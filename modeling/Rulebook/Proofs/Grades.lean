import Rulebook.Report
import Rulebook.Proofs.Json.Fields
import Rulebook.Proofs.Splits
import Rulebook.Proofs.Value
/-!
Grades. A score gets the grade of the first band it reaches, so the order of the bands decides. Main
statement: bands that are put in order give every score the grade of a highest threshold it reaches;
bands that are read stay as they are written, and do so exactly if no band stands behind a lower one
without an equal in front of that one.
-/

set_option autoImplicit false

namespace Rulebook.GradeBands

def Descending (bands : List Band) : Prop :=
  bands.Pairwise fun a b => b.threshold.value ≤ a.threshold.value

/-- Of the bands that a score reaches, none is higher. -/
structure Highest (bands : List Band) (s : Score) (b : Band) : Prop where
  mem : b ∈ bands
  reached : b.threshold.value ≤ s.value
  highest : ∀ c ∈ bands, c.threshold.value ≤ s.value → c.threshold.value ≤ b.threshold.value

inductive Deserves (g : GradeBands) (s : Score) : String → Prop where
  | band {b : Band} (highest : Highest g.bands s b) : Deserves g s b.grade
  | default (unreached : ∀ b ∈ g.bands, s.value < b.threshold.value) : Deserves g s g.default

/-- A band that stands behind a lower one has an equal in front of that one. -/
def Led (bands : List Band) : Prop :=
  ∀ before b after, bands = before ++ b :: after → ∀ c ∈ after,
    b.threshold.value < c.threshold.value → ∃ a ∈ before, a.threshold.value = c.threshold.value

def selected (g : GradeBands) (s : Score) : Option Band :=
  g.bands.find? fun b => decide (b.threshold.value ≤ s.value)

variable {g : GradeBands} {s : Score} {b : Band}

theorem grade_eq (g : GradeBands) (s : Score) :
    g.grade s = ((g.selected s).map Band.grade).getD g.default := rfl

theorem selected_eq_none : g.selected s = none ↔ ∀ b ∈ g.bands, s.value < b.threshold.value := by
  simp [selected]

theorem selected_eq_some :
    g.selected s = some b ↔ b.threshold.value ≤ s.value ∧ ∃ before after,
      g.bands = before ++ b :: after ∧ ∀ a ∈ before, s.value < a.threshold.value := by
  simp [selected, List.find?_eq_some_iff_append]

theorem exists_selected (hb : b ∈ g.bands) (hreached : b.threshold.value ≤ s.value) :
    ∃ c, g.selected s = some c := by
  refine Option.ne_none_iff_exists'.1 fun hnone => ?_
  have hlt := selected_eq_none.1 hnone b hb
  omega

theorem highest_of_led (h : Led g.bands) (hselected : g.selected s = some b) :
    Highest g.bands s b := by
  obtain ⟨hreached, before, after, horder, hbefore⟩ := selected_eq_some.1 hselected
  refine ⟨by simp [horder], hreached, fun c hc hcs => ?_⟩
  rcases List.mem_append.1 (horder ▸ hc) with hc | hc
  · have hlt := hbefore c hc
    omega
  rcases List.mem_cons.1 hc with rfl | hc
  · exact Int.le_refl _
  · refine Int.not_lt.1 fun hlt => ?_
    obtain ⟨a, ha, heq⟩ := h before b after horder c hc hlt
    have hlt' := hbefore a ha
    omega

theorem led_of_highest (h : ∀ s b, g.selected s = some b → Highest g.bands s b) : Led g.bands := by
  intro before b after horder c hc hlt
  have hcmem : c ∈ g.bands := by simp [horder, hc]
  obtain ⟨a, ha⟩ := exists_selected hcmem (Int.le_refl c.threshold.value)
  have hhighest := h _ _ ha
  have hle := hhighest.highest c hcmem (Int.le_refl _)
  have heq : a.threshold.value = c.threshold.value := Int.le_antisymm hhighest.reached hle
  obtain ⟨-, before', after', horder', hbefore'⟩ := selected_eq_some.1 ha
  rcases places_of_splits (horder.symm.trans horder') with hb | ⟨-, rfl, -⟩ | ha
  · have hlt' := hbefore' b hb
    omega
  · omega
  · exact ⟨a, ha, heq⟩

theorem led_of_descending {bands : List Band} (h : Descending bands) : Led bands := by
  rintro before b after rfl c hc hlt
  have hle := (List.pairwise_cons.1 (List.pairwise_append.1 h).2.1).1 c hc
  omega

theorem deserves_of_led (h : Led g.bands) (s : Score) : g.Deserves s (g.grade s) := by
  rw [grade_eq]
  cases hs : g.selected s with
  | none => exact .default (selected_eq_none.1 hs)
  | some b => exact .band (highest_of_led h hs)

theorem threshold_trans (a b c : Band) (hab : decide (b.threshold.value ≤ a.threshold.value) = true)
    (hbc : decide (c.threshold.value ≤ b.threshold.value) = true) :
    decide (c.threshold.value ≤ a.threshold.value) = true :=
  decide_eq_true (Int.le_trans (of_decide_eq_true hbc) (of_decide_eq_true hab))

theorem threshold_total (a b : Band) :
    (decide (b.threshold.value ≤ a.threshold.value) ||
      decide (a.threshold.value ≤ b.threshold.value)) = true := by
  simp only [Bool.or_eq_true, decide_eq_true_eq]
  exact Int.le_total ..

theorem descending_ofList (bands : List Band) (default : String) :
    Descending (ofList bands default).bands := by
  have hsorted : (ofList bands default).bands.Pairwise fun a b =>
      decide (b.threshold.value ≤ a.threshold.value) = true :=
    List.pairwise_mergeSort threshold_trans threshold_total bands
  exact hsorted.imp of_decide_eq_true

theorem bandOfJson?_toJson (b : Band) :
    bandOfJson? (.list [b.threshold.toJson, .text b.grade]) = some b := by
  rw [bandOfJson?, b.threshold.ofJson?_toJson, Option.map_some]

theorem toJson_fits (g : GradeBands) : Json.Fits Json.depthLimit g.toJson := by
  have hbands : Json.Fits 126
      (.list (g.bands.map fun b => .list [b.threshold.toJson, .text b.grade])) := by
    refine .list fun j hj => ?_
    obtain ⟨b, -, rfl⟩ := List.mem_map.1 hj
    exact .list (by simp [Json.Fits.text, b.threshold.toJson_fits])
  exact .fields (by simp [Json.Fits.text, hbands])

theorem ofJson?_toJson (g : GradeBands) : ofJson? g.toJson = some g := by
  have hbands : Json.listOf? bandOfJson?
      (.list (g.bands.map fun b => .list [b.threshold.toJson, .text b.grade])) = some g.bands :=
    Json.listOf?_map fun b _ => bandOfJson?_toJson b
  have hfields : g.toJson.structure? ["bands", "default_grade"] =
      some [some (.list (g.bands.map fun b => .list [b.threshold.toJson, .text b.grade])),
        some (.text g.default)] := rfl
  simp only [ofJson?, hfields, Json.required?, Json.text?, hbands, Option.bind_eq_bind,
    Option.bind_some, Option.pure_def]

theorem read?_compact (g : GradeBands) : read? g.toJson.compact = some g := by
  rw [read?, Json.read?_compact g.toJson_fits, Option.bind_some, ofJson?_toJson]

/-- Bands that are put in order are led. Bands that are read can have any order; if they are led,
each score gets a grade that it deserves, and exactly then the band taken is always a highest one. -/
theorem highest_iff_led (bands : List Band) (default : String) (g : GradeBands) :
    (Descending (ofList bands default).bands ∧ (ofList bands default).bands.Perm bands) ∧
    Descending leads.bands ∧
    read? g.toJson.compact = some g ∧
    (Descending g.bands → Led g.bands) ∧
    (Led g.bands → ∀ s, g.Deserves s (g.grade s)) ∧
    ((∀ s b, g.selected s = some b → Highest g.bands s b) ↔ Led g.bands) :=
  ⟨⟨descending_ofList bands default, List.mergeSort_perm _ _⟩, descending_ofList _ _,
    g.read?_compact, led_of_descending, deserves_of_led,
    led_of_highest, fun h _ _ => highest_of_led h⟩

def lowFirst : GradeBands := ⟨[⟨Score.clamp 50, "B"⟩, ⟨Score.clamp 80, "A"⟩], "C"⟩

theorem grade_of_deserves_lowFirst {grade : String}
    (h : lowFirst.Deserves (Score.clamp 95) grade) : grade = "A" := by
  cases h with
  | @band b highest =>
    have hle : (80 : Int) ≤ b.threshold.value :=
      highest.highest ⟨Score.clamp 80, "A"⟩ (by simp [lowFirst]) (by decide)
    rcases List.mem_pair.1 highest.mem with rfl | rfl
    · exact absurd hle (by decide)
    · rfl
  | default unreached =>
    exact absurd (unreached ⟨Score.clamp 80, "A"⟩ (by simp [lowFirst])) (by decide)

theorem highest_iff_led_lowFirst :
    read? "\x7b\"bands\":[[50,\"B\"],[80,\"A\"]],\"default_grade\":\"C\"\x7d" =
      some lowFirst ∧
    lowFirst.grade (Score.clamp 95) = "B" ∧ ¬ lowFirst.Deserves (Score.clamp 95) "B" ∧
    ¬ Led lowFirst.bands ∧ ¬ Descending lowFirst.bands := by
  obtain ⟨-, -, hread, hdescending, hled, -⟩ := highest_iff_led [] "" lowFirst
  have htext : lowFirst.toJson.compact =
      "\x7b\"bands\":[[50,\"B\"],[80,\"A\"]],\"default_grade\":\"C\"\x7d" := by decide
  have hgrade : lowFirst.grade (Score.clamp 95) = "B" := by decide
  have hundeserved : ¬ lowFirst.Deserves (Score.clamp 95) "B" := fun h =>
    absurd (grade_of_deserves_lowFirst h) (by decide)
  have hunled : ¬ Led lowFirst.bands := fun h => hundeserved (hgrade ▸ hled h (Score.clamp 95))
  exact ⟨htext ▸ hread, hgrade, hundeserved, hunled, fun h => hunled (hdescending h)⟩

end Rulebook.GradeBands
