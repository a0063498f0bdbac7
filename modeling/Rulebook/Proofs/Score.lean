import Mathlib.Algebra.Order.BigOperators.Group.List
import Mathlib.Algebra.Ring.Int.Defs
import Mathlib.Data.List.Induction
import Rulebook.Score
/-!
Sums of scores. A running sum that leaves the range of scores stops at its end, and what follows is
added from there: a sum is exact as long as no running sum leaves the range.
-/

set_option autoImplicit false

namespace Rulebook

namespace Score

def least : Score := ⟨-0x8000000000000000, by decide, by decide⟩

def greatest : Score := ⟨0x7FFFFFFFFFFFFFFF, by decide, by decide⟩

def exactSum (scores : List Score) : Int := (scores.map (·.value)).sum

@[simp] theorem exactSum_nil : exactSum [] = 0 := rfl

@[simp] theorem exactSum_cons (s : Score) (scores : List Score) :
    exactSum (s :: scores) = s.value + exactSum scores := by simp [exactSum]

@[simp] theorem exactSum_append (before after : List Score) :
    exactSum (before ++ after) = exactSum before + exactSum after := by simp [exactSum]

theorem exactSum_perm {scores other : List Score} (h : scores.Perm other) :
    exactSum scores = exactSum other := (h.map _).sum_eq

def InRange (n : Int) : Prop := least.value ≤ n ∧ n ≤ greatest.value

instance (n : Int) : Decidable (InRange n) := inferInstanceAs (Decidable (_ ∧ _))

def StaysInRange (start : Int) (scores : List Score) : Prop :=
  ∀ before, before <+: scores → InRange (start + exactSum before)

theorem inRange_value (s : Score) : InRange s.value := by
  have := s.least_le
  have := s.lt_limit
  constructor <;> simp only [least, greatest] <;> omega

theorem add_value_of_inRange {a b : Score} (h : InRange (a.value + b.value)) :
    (add a b).value = a.value + b.value := by
  simp only [InRange, least, greatest] at h
  simp only [add, clamp]
  omega

def StopsAt (n : Int) (limit : Score) : Prop :=
  (greatest.value < n ∧ limit = greatest) ∨ (n < least.value ∧ limit = least)

theorem add_of_stopsAt {a b limit : Score} (h : StopsAt (a.value + b.value) limit) :
    add a b = limit := by
  simp only [StopsAt, greatest, least] at h
  rcases h with ⟨h, rfl⟩ | ⟨h, rfl⟩ <;> ext <;> simp only [add, clamp] <;> omega

theorem inRange_or_stopsAt (n : Int) : InRange n ∨ ∃ limit, StopsAt n limit := by
  by_cases habove : greatest.value < n
  · exact .inr ⟨greatest, .inl ⟨habove, rfl⟩⟩
  by_cases hbelow : n < least.value
  · exact .inr ⟨least, .inr ⟨hbelow, rfl⟩⟩
  exact .inl ⟨by omega, by omega⟩

theorem staysInRange_cons {start : Int} {s : Score} {scores : List Score}
    (h : StaysInRange start (s :: scores)) :
    InRange (start + s.value) ∧ StaysInRange (start + s.value) scores := by
  constructor
  · simpa using h [s] (by simp)
  · intro before hb
    have := h (s :: before) (List.cons_prefix_cons.2 ⟨rfl, hb⟩)
    simpa [Int.add_assoc] using this

theorem staysInRange_concat {start : Int} {s : Score} {scores : List Score}
    (h : StaysInRange start scores) (hs : InRange (start + exactSum scores + s.value)) :
    StaysInRange start (scores ++ [s]) := by
  intro before hb
  rcases List.prefix_concat_iff.1 hb with rfl | hb
  · simpa [Int.add_assoc] using hs
  · exact h before hb

theorem foldl_add_of_stays {start : Score} {scores : List Score}
    (h : StaysInRange start.value scores) :
    (scores.foldl add start).value = start.value + exactSum scores := by
  induction scores generalizing start with
  | nil => simp
  | cons s scores ih =>
    obtain ⟨hs, hlater⟩ := staysInRange_cons h
    have hadd := add_value_of_inRange hs
    rw [List.foldl_cons, ih (by rwa [hadd]), hadd, exactSum_cons, Int.add_assoc]

def SameSign (scores : List Score) : Prop :=
  (∀ s ∈ scores, 0 ≤ s.value) ∨ ∀ s ∈ scores, s.value ≤ 0

theorem SameSign.cons {s : Score} {scores : List Score} (h : SameSign (s :: scores)) :
    SameSign scores ∧
      ((0 ≤ s.value ∧ 0 ≤ exactSum scores) ∨ (s.value ≤ 0 ∧ exactSum scores ≤ 0)) := by
  rcases h with h | h
  · obtain ⟨hs, hlater⟩ := List.forall_mem_cons.1 h
    exact ⟨.inl hlater, .inl ⟨hs, List.sum_nonneg (List.forall_mem_map.2 hlater)⟩⟩
  · obtain ⟨hs, hlater⟩ := List.forall_mem_cons.1 h
    have hsum := List.sum_le_card_nsmul (scores.map (·.value)) 0 (List.forall_mem_map.2 hlater)
    exact ⟨.inr hlater, .inr ⟨hs, by simpa [exactSum] using hsum⟩⟩

/-- Scores of one sign move the sum in one direction, so that it is cut off at most once. -/
theorem foldl_add_of_sameSign {start : Score} {scores : List Score} (h : SameSign scores) :
    scores.foldl add start = clamp (start.value + exactSum scores) := by
  induction scores generalizing start with
  | nil => simp [clamp_of_inRange]
  | cons s scores ih =>
    obtain ⟨hlater, hsigns⟩ := h.cons
    have := start.least_le
    have := start.lt_limit
    rw [List.foldl_cons, ih hlater, exactSum_cons]
    -- If the first sum is cut off, what follows goes further the same way, and is cut off with it.
    ext
    simp only [add, clamp]
    omega

/-- The running sums stay in the range, or all move in one direction. -/
def Steady (scores : List Score) : Prop := StaysInRange 0 scores ∨ SameSign scores

theorem sum_of_steady {scores : List Score} (h : Steady scores) :
    sum scores = clamp (exactSum scores) := by
  rcases h with hstays | hsign
  · have hv : (sum scores).value = exactSum scores := by
      simpa [sum, zero] using @foldl_add_of_stays zero scores hstays
    rw [← hv, clamp_of_inRange]
  · simpa [sum, zero] using @foldl_add_of_sameSign zero scores hsign

/-- How a sum comes about: exactly, or from the end of the range at which it stopped last. -/
inductive AddsUp : List Score → Score → Prop where
  | exact {scores : List Score} {total : Score} (stays : StaysInRange 0 scores)
      (value : total.value = exactSum scores) : AddsUp scores total
  | stopped {before after : List Score} {reached s limit total : Score}
      (earlier : AddsUp before reached) (left : StopsAt (reached.value + s.value) limit)
      (stays : StaysInRange limit.value after)
      (value : total.value = limit.value + exactSum after) : AddsUp (before ++ s :: after) total

theorem stays_nil (s : Score) : StaysInRange s.value [] := by
  intro before hb
  rw [List.prefix_nil.1 hb]
  simpa using inRange_value s

/-- One more score keeps to the range, or the sum stops there. -/
theorem AddsUp.concat {scores : List Score} {total : Score} (h : AddsUp scores total) (s : Score) :
    AddsUp (scores ++ [s]) (add total s) := by
  rcases inRange_or_stopsAt (total.value + s.value) with hr | ⟨limit, hlimit⟩
  · have hadd := add_value_of_inRange hr
    -- The new score goes on from the last stretch that is exact.
    cases h with
    | exact stays value =>
      rw [value] at hr hadd
      exact .exact (staysInRange_concat stays (by simpa using hr)) (by simp [hadd])
    | stopped earlier left stays value =>
      rw [value] at hr hadd
      rw [List.append_assoc, List.cons_append]
      exact .stopped earlier left (staysInRange_concat stays hr) (by simp [hadd, Int.add_assoc])
  · exact .stopped h hlimit (stays_nil limit) (by simp [add_of_stopsAt hlimit])

theorem addsUp_sum (scores : List Score) : AddsUp scores (sum scores) := by
  induction scores using List.reverseRecOn with
  | nil => exact .exact (stays_nil zero) rfl
  | append_singleton scores s ih =>
    have hsum : sum (scores ++ [s]) = add (sum scores) s := by simp [sum]
    rw [hsum]
    exact ih.concat s

theorem sum_of_addsUp {scores : List Score} {total : Score} (h : AddsUp scores total) :
    sum scores = total := by
  induction h with
  | @exact scores total stays value =>
    ext
    rw [value]
    simpa [sum, zero] using @foldl_add_of_stays zero scores stays
  | @stopped before after reached s limit total _ left stays value ih =>
    have hsum : sum (before ++ s :: after) = after.foldl add (add (sum before) s) := by simp [sum]
    ext
    rw [hsum, ih, add_of_stopsAt left, foldl_add_of_stays stays, value]

theorem sum_eq_iff_addsUp (scores : List Score) (total : Score) :
    sum scores = total ↔ AddsUp scores total :=
  ⟨fun h => h ▸ addsUp_sum scores, sum_of_addsUp⟩

end Score

end Rulebook
