import Rulebook.Proofs.Evaluation
import Rulebook.Proofs.Validation
/-!
The trace of an evaluation. It is the account of what was looked at: the rules up to the one that
decides, and of each rule the conditions up to the first that is not satisfied. Main statement: a
trace tells exactly this, and the decision is the same whether it is kept or not.
-/

set_option autoImplicit false

namespace Rulebook

section UpTo

variable {α : Type} {p : α → Bool} {x : α} {xs : List α}

/-- The members up to and including the first one for which `p` holds. -/
def upTo (p : α → Bool) (xs : List α) : List α := xs.takeWhile (!p ·) ++ (xs.find? p).toList

theorem upTo_cons_of_pos (h : p x = true) : upTo p (x :: xs) = [x] := by simp [upTo, h]

theorem upTo_cons_of_neg (h : p x = false) : upTo p (x :: xs) = x :: upTo p xs := by
  simp [upTo, h]

theorem mem_of_mem_upTo (h : x ∈ upTo p xs) : x ∈ xs := by
  rcases List.mem_append.1 h with h | h
  · exact (List.takeWhile_sublist _).subset h
  · exact List.mem_of_find?_eq_some (Option.mem_toList.1 h)

theorem upTo_eq_self (h : ∀ x ∈ xs, p x = false) : upTo p xs = xs := by
  induction xs with
  | nil => rfl
  | cons x xs ih =>
    obtain ⟨hx, hxs⟩ := List.forall_mem_cons.1 h
    rw [upTo_cons_of_neg hx, ih hxs]

theorem filter_upTo (p : α → Bool) (xs : List α) : (upTo p xs).filter p = (xs.find? p).toList := by
  induction xs with
  | nil => rfl
  | cons x xs ih =>
    cases h : p x with
    | true => simp [upTo_cons_of_pos h, h]
    | false => simp [upTo_cons_of_neg h, h, ih]

end UpTo

theorem Verdict.eq_satisfied_of_isSatisfied {v : Verdict} (h : v.isSatisfied = true) :
    v = .satisfied := by
  cases v with
  | satisfied => rfl
  | unsatisfied | indeterminate => cases h

namespace TraceLine

def isCheck : TraceLine → Bool
  | .checked _ _ _ _ => true
  | _ => false

end TraceLine

namespace Rule

/-- The conditions that are looked at from position `index` on, with their positions: up to and
including the first that is not satisfied. -/
def examinedFrom (w : Record) (index : Nat) (cs : List Condition) : List (Condition × Nat) :=
  upTo (fun e => !(e.1.check w).isSatisfied) (cs.zipIdx index)

def examined (rule : Rule) (w : Record) : List (Condition × Nat) :=
  examinedFrom w 0 rule.conditions

def checkLine (rule : String) (w : Record) (e : Condition × Nat) : TraceLine :=
  .checked rule e.2 e.1 (e.1.check w)

def checks (rule : Rule) (w : Record) : List TraceLine :=
  (rule.examined w).map (checkLine rule.id w)

def account (rule : Rule) (w : Record) : List TraceLine :=
  rule.checks w ++ if (rule.examined w).length < rule.conditions.length then
    [.cutShort rule.id ((rule.examined w).length - 1)] else []

theorem scanFrom_lines (rule : String) (w : Record) (index : Nat) (cs : List Condition) :
    (scanFrom rule w index cs).2 = (examinedFrom w index cs).map (checkLine rule w) ++
      if (examinedFrom w index cs).length < cs.length then
        [.cutShort rule (index + (examinedFrom w index cs).length - 1)] else [] := by
  induction cs generalizing index with
  | nil => rfl
  | cons c cs ih =>
    cases h : (c.check w).isSatisfied with
    | true =>
      have hcons : examinedFrom w index (c :: cs) = (c, index) :: examinedFrom w (index + 1) cs :=
        upTo_cons_of_neg (by simp [h])
      have hlast (n : Nat) : index + (n + 1) - 1 = index + 1 + n - 1 := by omega
      rw [hcons]
      simp [scanFrom, h, ih, checkLine, hlast]
    | false =>
      have hcons : examinedFrom w index (c :: cs) = [(c, index)] :=
        upTo_cons_of_pos (by simp [h])
      rw [hcons]
      cases cs <;> simp [scanFrom, h, checkLine]

theorem scan_lines (rule : Rule) (w : Record) : (rule.scan w).2 = rule.account w := by
  rw [scan, scanFrom_lines, Nat.zero_add]
  rfl

variable {rule : Rule} {w : Record}

theorem examined_of_covers (h : rule.covers w = true) :
    rule.examined w = rule.conditions.zipIdx := by
  refine upTo_eq_self fun e he => ?_
  have hc : (e.1.check w).isSatisfied = true :=
    List.all_eq_true.1 h _ (List.fst_mem_of_mem_zipIdx he)
  simp [hc]

end Rule

namespace RuleSet

/-- The rules that are looked at: where the first match decides, those up to it. -/
def scannedOf (mode : Mode) (w : Record) (rules : List Rule) : List Rule :=
  match mode with
  | .firstMatch => upTo (·.covers w) rules
  | .accumulate => rules

def scanned (s : RuleSet) (w : Record) : List Rule := scannedOf s.mode w s.rules

def account (mode : Mode) (w : Record) (rule : Rule) : List TraceLine :=
  rule.account w ++ if mode = .firstMatch ∧ rule.covers w = true then [.stopped rule.id] else []

theorem scan_lines (mode : Mode) (w : Record) (rules : List Rule) :
    (scan mode w rules).2 = (scannedOf mode w rules).flatMap (account mode w) := by
  induction rules with
  | nil => cases mode <;> rfl
  | cons rule rules ih =>
    cases mode with
    | accumulate =>
      cases h : rule.covers w <;>
        simp_all [scan, rule.scan_covered w, rule.scan_lines w, scannedOf, account]
    | firstMatch =>
      cases h : rule.covers w with
      | true =>
        simp [scan, rule.scan_covered w, rule.scan_lines w, h, scannedOf, account,
          upTo_cons_of_pos (p := fun q : Rule => q.covers w) h]
      | false =>
        simp_all [scan, rule.scan_covered w, rule.scan_lines w, scannedOf, account,
          upTo_cons_of_neg (p := fun q : Rule => q.covers w) h]

/-- The rules that count are those of the scanned ones that cover the record. -/
theorem scan_matched (mode : Mode) (w : Record) (rules : List Rule) :
    (scan mode w rules).1 = (scannedOf mode w rules).filter (·.covers w) := by
  cases mode with
  | accumulate => exact scan_accumulate w rules
  | firstMatch => rw [scan_firstMatch, scannedOf, filter_upTo]

theorem matchedOutcome?_eq_none {mode : Mode} {matched : List Rule} :
    matchedOutcome? mode matched = none ↔ matched = [] := by
  cases mode <;> cases matched <;> simp [matchedOutcome?, accumulated]

def story (s : RuleSet) (w : Record) : List TraceLine :=
  (s.scanned w).flatMap (account s.mode w) ++
    if (s.scanned w).filter (·.covers w) = [] then [.fellBack (s.fallback.map Outcome.kind)] else []

theorem evaluate_trace (s : RuleSet) (stamp : Stamp) (r : Record) :
    (s.evaluate true stamp r).trace = s.story (Derivation.applyAll s.derived r) := by
  simp only [evaluate, story, scan_lines, scan_matched, Option.isNone_iff_eq_none,
    matchedOutcome?_eq_none, if_true]
  rfl

theorem evaluate_matched (s : RuleSet) (traced : Bool) (stamp : Stamp) (r : Record) :
    (s.evaluate traced stamp r).decision.matchedRuleIds =
      ((s.scanned (Derivation.applyAll s.derived r)).filter
        (·.covers (Derivation.applyAll s.derived r))).map (·.id) := by
  rw [evaluate_decision, answer, scan_matched]
  rfl

variable {s : RuleSet} {w : Record} {rule : Rule}

theorem mem_of_mem_scanned (h : rule ∈ s.scanned w) : rule ∈ s.rules := by
  unfold scanned scannedOf at h
  split at h
  · exact mem_of_mem_upTo h
  · exact h

theorem filter_isCheck_account (mode : Mode) (w : Record) (rule : Rule) :
    (account mode w rule).filter TraceLine.isCheck = rule.checks w := by
  have hchecks : (rule.checks w).filter TraceLine.isCheck = rule.checks w := by
    refine List.filter_eq_self.2 fun line hline => ?_
    obtain ⟨e, -, rfl⟩ := List.mem_map.1 hline
    rfl
  rw [account, Rule.account, List.filter_append, List.filter_append, hchecks]
  split <;> split <;> simp [TraceLine.isCheck]

theorem filter_isCheck_story (s : RuleSet) (w : Record) :
    (s.story w).filter TraceLine.isCheck = (s.scanned w).flatMap (·.checks w) := by
  rw [story, List.filter_append, List.filter_flatMap]
  simp only [filter_isCheck_account]
  split <;> simp [TraceLine.isCheck]

inductive Line (s : RuleSet) (w : Record) : TraceLine → Prop where
  | checked {rule : Rule} {c : Condition} {index : Nat} (scanned : rule ∈ s.scanned w)
      (examined : (c, index) ∈ rule.examined w) :
      Line s w (.checked rule.id index c (c.check w))
  | cutShort {rule : Rule} (scanned : rule ∈ s.scanned w)
      (unexamined : (rule.examined w).length < rule.conditions.length) :
      Line s w (.cutShort rule.id ((rule.examined w).length - 1))
  | stopped {rule : Rule} (scanned : rule ∈ s.scanned w) (mode : s.mode = .firstMatch)
      (covers : rule.covers w = true) : Line s w (.stopped rule.id)
  | fellBack (unmatched : (s.scanned w).filter (·.covers w) = []) :
      Line s w (.fellBack (s.fallback.map Outcome.kind))

theorem mem_account {mode : Mode} {line : TraceLine} :
    line ∈ account mode w rule ↔
      (∃ e ∈ rule.examined w, Rule.checkLine rule.id w e = line) ∨
      ((rule.examined w).length < rule.conditions.length ∧
        line = .cutShort rule.id ((rule.examined w).length - 1)) ∨
      (mode = .firstMatch ∧ rule.covers w = true) ∧ line = .stopped rule.id := by
  simp only [account, Rule.account, Rule.checks, List.mem_append, List.mem_map,
    List.mem_ite_nil_right, List.mem_singleton, or_assoc]

theorem mem_story {line : TraceLine} : line ∈ s.story w ↔ s.Line w line := by
  simp only [story, List.mem_append, List.mem_flatMap, List.mem_ite_nil_right, List.mem_singleton,
    mem_account]
  constructor
  · rintro (⟨rule, hr, ⟨e, he, rfl⟩ | ⟨hleft, rfl⟩ | ⟨⟨hmode, hcovers⟩, rfl⟩⟩ | ⟨hnone, rfl⟩)
    · exact .checked hr he
    · exact .cutShort hr hleft
    · exact .stopped hr hmode hcovers
    · exact .fellBack hnone
  · rintro (⟨hr, he⟩ | ⟨hr, hleft⟩ | ⟨hr, hmode, hcovers⟩ | ⟨hnone⟩)
    · exact .inl ⟨_, hr, .inl ⟨_, he, rfl⟩⟩
    · exact .inl ⟨_, hr, .inr (.inl ⟨hleft, rfl⟩)⟩
    · exact .inl ⟨_, hr, .inr (.inr ⟨⟨hmode, hcovers⟩, rfl⟩)⟩
    · exact .inr ⟨hnone, rfl⟩

/-- With no two rules of one name, a line on a rule is a line on this rule. -/
theorem mem_scanned_of_id (hids : (s.rules.map (·.id)).Nodup) (hr : rule ∈ s.rules) {rule' : Rule}
    (hr' : rule' ∈ s.scanned w) (hid : rule'.id = rule.id) : rule' = rule :=
  List.inj_on_of_nodup_map hids (mem_of_mem_scanned hr') hr hid

/-- What the trace says of an evaluation in which the rules `matched` count. The checks are those
of the scanned rules, in order; the other lines say why no more was looked at. -/
structure Tells (s : RuleSet) (w : Record) (matched : List String) (trace : List TraceLine) :
    Prop where
  checks : trace.filter TraceLine.isCheck = (s.scanned w).flatMap (·.checks w)
  cutShort : ∀ rule ∈ s.rules, (∃ index, .cutShort rule.id index ∈ trace) ↔
    rule ∈ s.scanned w ∧ (rule.examined w).length < rule.conditions.length
  stopped : ∀ id, .stopped id ∈ trace ↔ s.mode = .firstMatch ∧ id ∈ matched
  fellBack : ∀ kind, .fellBack kind ∈ trace ↔
    (∀ rule ∈ s.rules, rule.covers w = false) ∧ kind = s.fallback.map Outcome.kind
  matched : ∀ rule ∈ s.rules, rule.id ∈ matched ↔
    ∀ index c, rule.conditions[index]? = some c → .checked rule.id index c .satisfied ∈ trace

theorem scanned_eq_nil_iff : (s.scanned w).filter (·.covers w) = [] ↔
    ∀ rule ∈ s.rules, rule.covers w = false := by
  rw [scanned, ← scan_matched]
  cases s.mode with
  | firstMatch => simp [scan_firstMatch]
  | accumulate => simp [scan_accumulate]

/-- A condition is told to be satisfied if it was looked at and is. -/
theorem satisfied_mem_story (hids : (s.rules.map (·.id)).Nodup) (hr : rule ∈ s.rules) {index : Nat}
    {c : Condition} : .checked rule.id index c .satisfied ∈ s.story w ↔
      rule ∈ s.scanned w ∧ (c, index) ∈ rule.examined w ∧ (c.check w).isSatisfied = true := by
  rw [mem_story]
  constructor
  · intro h
    generalize hid : rule.id = id at h
    generalize hv : Verdict.satisfied = v at h
    cases h with
    | @checked rule' _ _ scanned examined =>
      obtain rfl := mem_scanned_of_id hids hr scanned hid.symm
      exact ⟨scanned, examined, by rw [← hv]; rfl⟩
  · rintro ⟨hscanned, hexamined, hsatisfied⟩
    have hline := Line.checked hscanned hexamined
    rwa [Verdict.eq_satisfied_of_isSatisfied hsatisfied] at hline

theorem story_tells (hids : (s.rules.map (·.id)).Nodup)
    (hne : ∀ rule ∈ s.rules, rule.conditions ≠ []) (w : Record) :
    s.Tells w (((s.scanned w).filter (·.covers w)).map (·.id)) (s.story w) where
  checks := s.filter_isCheck_story w
  cutShort rule hr := by
    constructor
    · rintro ⟨index, h⟩
      rw [mem_story] at h
      generalize hid : rule.id = id at h
      cases h with
      | @cutShort rule' scanned unexamined =>
        obtain rfl := mem_scanned_of_id hids hr scanned hid.symm
        exact ⟨scanned, unexamined⟩
    · rintro ⟨hscanned, hleft⟩
      exact ⟨_, mem_story.2 (.cutShort hscanned hleft)⟩
  stopped id := by
    rw [mem_story, List.mem_map]
    constructor
    · intro h
      cases h with
      | stopped scanned mode covers => exact ⟨mode, _, List.mem_filter.2 ⟨scanned, covers⟩, rfl⟩
    · rintro ⟨hmode, rule, hrule, rfl⟩
      obtain ⟨hscanned, hcovers⟩ := List.mem_filter.1 hrule
      exact .stopped hscanned hmode hcovers
  fellBack kind := by
    rw [mem_story, ← scanned_eq_nil_iff]
    constructor
    · intro h
      cases h with
      | fellBack unmatched => exact ⟨unmatched, rfl⟩
    · rintro ⟨hnone, rfl⟩
      exact .fellBack hnone
  matched rule hr := by
    simp only [satisfied_mem_story hids hr]
    rw [List.mem_map]
    constructor
    · rintro ⟨rule', hrule', hid⟩ index c hc
      obtain ⟨hscanned, hcovers⟩ := List.mem_filter.1 hrule'
      obtain rfl := mem_scanned_of_id hids hr hscanned hid
      have hexamined : (c, index) ∈ rule'.examined w := by
        rw [Rule.examined_of_covers hcovers]
        exact List.mem_zipIdx_iff_getElem?.2 hc
      exact ⟨hscanned, hexamined, List.all_eq_true.1 hcovers c (List.mem_of_getElem? hc)⟩
    · intro hall
      obtain ⟨c, cs, hcs⟩ := List.exists_cons_of_ne_nil (hne rule hr)
      have hscanned := (hall 0 c (by rw [hcs]; rfl)).1
      refine ⟨rule, List.mem_filter.2 ⟨hscanned, List.all_eq_true.2 fun c hc => ?_⟩, rfl⟩
      obtain ⟨index, hindex⟩ := List.mem_iff_getElem?.1 hc
      exact (hall index c hindex).2.2

theorem conditions_ne_nil {now : Instant} {d : Definition} {s : RuleSet}
    (h : d.compile now = .ok s) : ∀ rule ∈ s.rules, rule.conditions ≠ [] := by
  intro rule hr
  obtain ⟨-, hcompiled⟩ := Definition.compile_eq_ok_iff_valid.1 h
  obtain ⟨d', -, hrule⟩ := Definition.exists_compiled_of_mem hcompiled.rules rule hr
  exact hrule.inhabited

def lanes : Definition where
  id := "lanes"
  name := "Lanes"
  description := none
  rules := [
    ⟨"fast", "", .list [.structured "level" "==" (.text "gold"),
      .structured "amount" ">" (.number (.integer 100))], .action "fast"⟩,
    ⟨"slow", "", .suffixed [("amount_gte", .number (.integer 0))], .action "slow"⟩,
    ⟨"late", "", .list [.expression "amount >= 10"], .action "late"⟩]
  mode := .firstMatch
  fallback := none
  derived := [.copy "customer.level" "level"]
  definedAt := none

def lanesCompiled : RuleSet where
  id := "lanes"
  name := "Lanes"
  description := none
  rules := [
    ⟨"fast", "fast", [⟨"level", .eq, .text "gold"⟩,
      ⟨"amount", .gt, .number (Binary64.ofInt 100)⟩], .action "fast"⟩,
    ⟨"slow", "slow", [⟨"amount", .ge, .number (Binary64.ofInt 0)⟩], .action "slow"⟩,
    ⟨"late", "late", [⟨"amount", .ge, .number (Binary64.ofInt 10)⟩], .action "late"⟩]
  mode := .firstMatch
  fallback := none
  derived := [.copy "customer.level" "level"]
  definedAt := Instant.epoch

def silverCustomer : Record :=
  .ofList [("level", .text "gold"), ("customer.level", .text "silver"),
    ("amount", .number (Binary64.ofInt 200))]

end RuleSet

end Rulebook
