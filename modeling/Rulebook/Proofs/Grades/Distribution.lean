import Rulebook.Proofs.Grades
import Rulebook.Proofs.Summary
/-!
Grades by bands that are put in order, and how many scores get each grade. Main statement: a score
gets the grade of the highest threshold it reaches, of several bands with this threshold that of the
first that is listed, and a distribution counts each score once.
-/

set_option autoImplicit false

namespace Rulebook.GradeBands

/-- Of the highest bands that a score reaches, the first that is listed. -/
structure FirstHighest (bands : List Band) (s : Score) (b : Band) : Prop
    extends Highest bands s b where
  first : ∃ before after, bands = before ++ b :: after ∧
    ∀ a ∈ before, a.threshold.value ≠ b.threshold.value

def standsAt (threshold : Int) (b : Band) : Bool := decide (b.threshold.value = threshold)

def hasGrade (g : GradeBands) (grade : String) : DecisionOutcome → Bool
  | .score s => g.grade s == grade
  | _ => false

structure GradesByHighest (bands : List Band) (default : String) : Prop where
  selected : ∀ s b, (ofList bands default).selected s = some b ↔ FirstHighest bands s b
  reached : ∀ s b, FirstHighest bands s b → (ofList bands default).grade s = b.grade
  unreached : ∀ s, (∀ b ∈ bands, s.value < b.threshold.value) →
    (ofList bands default).grade s = default
  decided : ∀ s, (∃ b, FirstHighest bands s b) ∨ ∀ b ∈ bands, s.value < b.threshold.value
  /-- The order of the list only counts between bands with the same threshold. -/
  permuted : ∀ others, List.Perm others bands → (bands.map (·.threshold)).Nodup →
    ∀ s, (ofList others default).grade s = (ofList bands default).grade s
  rising : ∀ s s' b, s.value ≤ s'.value → (ofList bands default).selected s = some b →
    ∃ b', (ofList bands default).selected s' = some b' ∧ b.threshold.value ≤ b'.threshold.value

structure Distributes (g : GradeBands) (ds : List Decision) (counts : Table Nat) : Prop where
  positive : ∀ grade, counts.get? grade ≠ some 0
  count : ∀ grade, (counts.get? grade).getD 0 = ds.countP fun d => g.hasGrade grade d.outcome
  total : counts.values.sum = ds.countP (·.outcome.isScore)

variable {bands others : List Band} {default : String} {s : Score} {b b' : Band}

theorem standsAt_iff {threshold : Int} :
    standsAt threshold b = true ↔ b.threshold.value = threshold := decide_eq_true_iff

theorem perm_ofList (bands : List Band) (default : String) :
    (ofList bands default).bands.Perm bands := List.mergeSort_perm _ _

theorem Highest.perm (h : Highest bands s b) (hperm : bands.Perm others) : Highest others s b :=
  ⟨hperm.mem_iff.1 h.mem, h.reached, fun c hc => h.highest c (hperm.mem_iff.2 hc)⟩

theorem Highest.threshold_eq (h : Highest bands s b) (h' : Highest bands s b') :
    b.threshold.value = b'.threshold.value :=
  Int.le_antisymm (h'.highest b h.mem h.reached) (h.highest b' h'.mem h'.reached)

theorem firstHighest_iff : FirstHighest bands s b ↔ Highest bands s b ∧
    bands.find? (standsAt b.threshold.value) = some b := by
  simp only [List.find?_eq_some_iff_append, standsAt, decide_true, true_and, Bool.not_eq_true',
    decide_eq_false_iff_not]
  exact ⟨fun h => ⟨h.toHighest, h.first⟩, fun h => ⟨h.1, h.2⟩⟩

theorem FirstHighest.eq (h : FirstHighest bands s b) (h' : FirstHighest bands s b') : b = b' := by
  obtain ⟨hhighest, hfirst⟩ := firstHighest_iff.1 h
  obtain ⟨hhighest', hfirst'⟩ := firstHighest_iff.1 h'
  rw [hhighest.threshold_eq hhighest', hfirst'] at hfirst
  exact (Option.some.inj hfirst).symm

theorem filter_ofList (bands : List Band) (default : String) (t : Int) :
    (ofList bands default).bands.filter (standsAt t) = bands.filter (standsAt t) := by
  have hequal : (bands.filter (standsAt t)).Pairwise fun a b =>
      decide (b.threshold.value ≤ a.threshold.value) = true := by
    refine List.pairwise_of_forall_mem_list fun a ha b hb => decide_eq_true ?_
    have ha := standsAt_iff.1 (List.mem_filter.1 ha).2
    have hb := standsAt_iff.1 (List.mem_filter.1 hb).2
    omega
  have hsub := List.sublist_mergeSort threshold_trans threshold_total hequal List.filter_sublist
  have hsub := hsub.filter (standsAt t)
  rw [List.filter_filter] at hsub
  simp only [Bool.and_self] at hsub
  refine (hsub.eq_of_length ?_).symm
  exact ((perm_ofList bands default).filter _).length_eq.symm

theorem find?_ofList (bands : List Band) (default : String) (t : Int) :
    (ofList bands default).bands.find? (standsAt t) = bands.find? (standsAt t) := by
  rw [← List.head?_filter, filter_ofList, List.head?_filter]

theorem firstHighest_of_selected (h : (ofList bands default).selected s = some b) :
    FirstHighest bands s b := by
  have hhighest := highest_of_led (led_of_descending (descending_ofList bands default)) h
  obtain ⟨hreached, before, after, horder, hbefore⟩ := selected_eq_some.1 h
  refine firstHighest_iff.2 ⟨hhighest.perm (perm_ofList bands default), ?_⟩
  rw [← find?_ofList bands default, List.find?_eq_some_iff_append]
  refine ⟨decide_eq_true rfl, before, after, horder, fun a ha => ?_⟩
  have hlt := hbefore a ha
  simp only [standsAt, Bool.not_eq_true', decide_eq_false_iff_not]
  omega

theorem selected_ofList :
    (ofList bands default).selected s = some b ↔ FirstHighest bands s b := by
  refine ⟨firstHighest_of_selected, fun h => ?_⟩
  have hmem := (perm_ofList bands default).mem_iff.2 h.mem
  obtain ⟨c, hc⟩ := exists_selected hmem h.reached
  rw [hc, h.eq (firstHighest_of_selected hc)]

theorem selected_ofList_eq_none :
    (ofList bands default).selected s = none ↔ ∀ b ∈ bands, s.value < b.threshold.value := by
  rw [selected_eq_none]
  exact forall_congr' fun b => imp_congr_left (perm_ofList bands default).mem_iff

theorem firstHighest_iff_of_nodup (hnodup : (bands.map (·.threshold)).Nodup) :
    FirstHighest bands s b ↔ Highest bands s b := by
  refine ⟨fun h => h.toHighest, fun h => ⟨h, ?_⟩⟩
  obtain ⟨before, after, rfl⟩ := List.append_of_mem h.mem
  refine ⟨before, after, rfl, fun a ha heq => ?_⟩
  rw [List.map_append, List.map_cons] at hnodup
  have hnew := (List.nodup_middle.1 hnodup).notMem
  exact hnew (List.mem_append_left _ (List.mem_map.2 ⟨a, ha, Score.ext heq⟩))

theorem selected_perm (hperm : others.Perm bands) (hnodup : (bands.map (·.threshold)).Nodup)
    (s : Score) : (ofList others default).selected s = (ofList bands default).selected s := by
  have hnodup' : (others.map (·.threshold)).Nodup := (hperm.map _).nodup_iff.2 hnodup
  ext b
  rw [selected_ofList, selected_ofList, firstHighest_iff_of_nodup hnodup,
    firstHighest_iff_of_nodup hnodup']
  exact ⟨fun h => h.perm hperm, fun h => h.perm hperm.symm⟩

theorem selected_rising {s' : Score} (hle : s.value ≤ s'.value)
    (h : (ofList bands default).selected s = some b) :
    ∃ b', (ofList bands default).selected s' = some b' ∧
      b.threshold.value ≤ b'.threshold.value := by
  have hb := firstHighest_of_selected h
  have hreached := Int.le_trans hb.reached hle
  obtain ⟨b', hb'⟩ := exists_selected ((perm_ofList bands default).mem_iff.2 hb.mem) hreached
  exact ⟨b', hb', (firstHighest_of_selected hb').highest b hb.mem hreached⟩

theorem gradesByHighest (bands : List Band) (default : String) : GradesByHighest bands default where
  selected s b := selected_ofList
  reached s b h := by rw [grade_eq, selected_ofList.2 h, Option.map_some, Option.getD_some]
  unreached s h := by
    rw [grade_eq, selected_ofList_eq_none.2 h, Option.map_none, Option.getD_none]
    rfl
  decided s := by
    cases hs : (ofList bands default).selected s with
    | none => exact .inr (selected_ofList_eq_none.1 hs)
    | some b => exact .inl ⟨b, selected_ofList.1 hs⟩
  permuted others hperm hnodup s := by
    rw [grade_eq, grade_eq, selected_perm hperm hnodup]
    rfl
  rising s s' b := selected_rising

theorem count_grades (g : GradeBands) (ds : List Decision) (grade : String) :
    ((ds.filterMap (·.outcome.score?)).map g.grade).count grade =
      ds.countP fun d => g.hasGrade grade d.outcome := by
  rw [List.count, List.countP_map, List.countP_filterMap]
  refine List.countP_congr fun d _ => ?_
  cases d.outcome <;> simp [DecisionOutcome.score?, hasGrade]

theorem distributes (g : GradeBands) (ds : List Decision) :
    g.Distributes ds (g.distribution ds) where
  positive grade := by
    rw [distribution, Table.get?_tally, Table.counted]
    split
    · exact (Option.some_ne_none 0).symm
    · rename_i hne
      exact fun h => hne (Option.some.inj h)
  count grade := by
    rw [distribution, Table.get?_tally, count_grades, Table.counted]
    split
    · rename_i hzero
      exact hzero.symm
    · rfl
  total := by
    rw [distribution, Table.sum_values_tally, List.length_map, List.length_filterMap_eq_countP]
    exact List.countP_congr fun d _ => by rw [DecisionOutcome.isSome_score?]

/-- Bands listed in any order grade by the highest threshold that is reached, and a distribution of
grades accounts for each score once. -/
theorem grades_distributed (bands : List Band) (default : String) :
    GradesByHighest bands default ∧ ∀ (g : GradeBands) ds, g.Distributes ds (g.distribution ds) :=
  ⟨gradesByHighest bands default, distributes⟩

def tied : List Band :=
  [⟨Score.clamp 50, "B"⟩, ⟨Score.clamp 80, "A"⟩, ⟨Score.clamp 80, "Top"⟩]

theorem grades_distributed_tied :
    (ofList tied "C").grade (Score.clamp 95) = "A" ∧ (ofList tied "C").grade (Score.clamp 49) = "C" ∧
      (ofList [⟨Score.clamp 80, "A"⟩, ⟨Score.clamp 50, "B"⟩] "C").grade (Score.clamp 50) =
        (ofList [⟨Score.clamp 50, "B"⟩, ⟨Score.clamp 80, "A"⟩] "C").grade (Score.clamp 50) := by
  have hfirst : FirstHighest tied (Score.clamp 95) ⟨Score.clamp 80, "A"⟩ :=
    { mem := by decide
      reached := by decide
      highest := by decide
      first := ⟨[⟨Score.clamp 50, "B"⟩], [⟨Score.clamp 80, "Top"⟩], rfl, by decide⟩ }
  exact ⟨(grades_distributed tied "C").1.reached _ _ hfirst,
    (grades_distributed tied "C").1.unreached _ (by decide),
    (grades_distributed _ "C").1.permuted _ (.swap ..) (by decide) _⟩

end Rulebook.GradeBands
