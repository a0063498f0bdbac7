import Mathlib.Algebra.BigOperators.Group.List.Lemmas
import Mathlib.Algebra.GroupWithZero.Nat
import Rulebook.Proofs.Table
/-!
Tables of counts. A tally counts a text as often as it occurs, and has no entry for a text that does
not occur. Counts of two tables are added key by key, and tallies of two lists add up to the tally
of both.
-/

set_option autoImplicit false

namespace Rulebook.Table

def counted (n : Nat) : Option Nat := if n = 0 then none else some n

theorem merge_counted (m n : Nat) :
    Option.merge (· + ·) (counted m) (counted n) = counted (m + n) := by
  cases m <;> cases n <;> simp [counted]

def bump (t : Table Nat) (key : String) (n : Nat) : Table Nat :=
  t.insert key ((t.get? key).getD 0 + n)

theorem get?_bump (t : Table Nat) (key k : String) (n : Nat) :
    (t.bump key n).get? k =
      Option.merge (· + ·) (t.get? k) (if k = key then some n else none) := by
  rw [bump, get?_insert]
  by_cases hk : k = key
  · subst hk
    cases t.get? k <;> simp
  · simp [hk]

theorem get?_tally (keys : List String) (k : String) :
    (tally keys).get? k = counted (keys.count k) := by
  have hfold (t : Table Nat) : (keys.foldl (fun t key => t.bump key 1) t).get? k =
      Option.merge (· + ·) (t.get? k) (counted (keys.count k)) := by
    induction keys generalizing t with
    | nil => simp [counted]
    | cons key keys ih =>
      have hone : (if k = key then some 1 else none) = counted (if key == k then 1 else 0) := by
        by_cases hk : k = key
        · simp [counted, hk]
        · simp [counted, hk, Ne.symm hk]
      rw [List.foldl_cons, ih, get?_bump, hone, List.count_cons, Nat.add_comm, ← merge_counted]
      exact (Option.associative_merge _).assoc ..
  exact (hfold empty).trans (by simp)

theorem keys_tally_perm (keys : List String) : (tally keys).keys.Perm keys.dedup := by
  refine (List.perm_ext_iff_of_nodup (tally keys).increasing.nodup (List.nodup_dedup _)).2
    fun k => ?_
  change k ∈ (tally keys).keys ↔ _
  rw [mem_keys, get?_tally, List.mem_dedup, ← List.count_pos_iff]
  by_cases hk : keys.count k = 0 <;> simp [counted, hk, Nat.pos_of_ne_zero]

theorem values_eq (t : Table Nat) : t.values = t.keys.map fun k => (t.get? k).getD 0 := by
  rw [values, keys, List.map_map]
  refine List.map_congr_left fun e he => ?_
  have hget : t.get? e.1 = some e.2 := (Entries.lookup_eq_some_iff_mem t.increasing.nodup).2 he
  simp [hget]

theorem sum_values_tally (keys : List String) : (tally keys).values.sum = keys.length := by
  have hcount (k : String) : ((tally keys).get? k).getD 0 = keys.count k := by
    rw [get?_tally, counted]
    split <;> simp_all
  calc
    (tally keys).values.sum = ((tally keys).keys.map fun k => keys.count k).sum := by
      rw [values_eq]
      simp only [hcount]
    _ = (keys.dedup.map fun k => keys.count k).sum := ((keys_tally_perm keys).map _).sum_eq
    _ = keys.length := List.sum_map_count_dedup_eq_length keys

instance : Zero (Table Nat) := ⟨empty⟩

instance : Add (Table Nat) := ⟨fun t u => u.entries.foldl (fun t e => t.bump e.1 e.2) t⟩

theorem get?_add (t u : Table Nat) (k : String) :
    (t + u).get? k = Option.merge (· + ·) (t.get? k) (u.get? k) := by
  have hfold (es : List (String × Nat)) (h : (es.map Prod.fst).Nodup) (t : Table Nat) :
      (es.foldl (fun t e => t.bump e.1 e.2) t).get? k =
        Option.merge (· + ·) (t.get? k) (es.lookup k) := by
    induction es generalizing t with
    | nil => simp
    | cons e es ih =>
      obtain ⟨key, n⟩ := e
      obtain ⟨hkey, hes⟩ := List.nodup_cons.1 h
      rw [List.foldl_cons, ih hes, get?_bump, Entries.lookup_cons]
      by_cases hk : k = key
      · subst hk
        have hnone : es.lookup k = none := List.lookup_eq_none_iff.2 fun e he =>
          bne_iff_ne.2 fun heq => hkey (List.mem_map.2 ⟨e, he, heq.symm⟩)
        simp [hnone]
      · simp [hk]
  exact hfold u.entries u.increasing.nodup t

instance : AddCommMonoid (Table Nat) where
  add_assoc t u v := eq_of_get? fun k => by
    simp only [get?_add]
    exact (Option.associative_merge _).assoc ..
  zero_add t := eq_of_get? fun k => by
    rw [get?_add]
    exact Option.merge_none_left
  add_zero t := rfl
  add_comm t u := eq_of_get? fun k => by
    rw [get?_add, get?_add]
    exact (Option.commutative_merge _).comm ..
  nsmul := nsmulRec

theorem tally_append (before after : List String) :
    tally (before ++ after) = tally before + tally after := by
  refine eq_of_get? fun k => ?_
  rw [get?_add, get?_tally, get?_tally, get?_tally, merge_counted, List.count_append]

end Rulebook.Table
