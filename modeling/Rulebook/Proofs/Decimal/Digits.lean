import Mathlib.Algebra.Group.Nat.Defs
import Mathlib.Data.List.Induction
import Rulebook.Decimal.Layout
/-! Digits as they are written and read: digits in front of anything else are read back. -/

set_option autoImplicit false

namespace Rulebook.Numeral

theorem readDigits_append {ds tail : List Char} (hd : ∀ c ∈ ds, c.isDigit = true)
    (ht : tail.head?.any Char.isDigit = false) : readDigits (ds ++ tail) = (ds, tail) := by
  simp only [readDigits, List.takeWhile_append_of_pos hd, List.dropWhile_append_of_pos hd]
  cases tail with
  | nil => simp
  | cons c cs =>
    have hc : c.isDigit = false := ht
    simp [hc]

theorem isDigit_of_mem_toDigits {n : Nat} {c : Char} (h : c ∈ Nat.toDigits 10 n) :
    c.isDigit = true :=
  Nat.isDigit_of_mem_toDigits (by decide) (by decide) h

theorem isDigit_of_mem_zeros {n : Nat} {c : Char} (h : c ∈ Layout.zeros n) : c.isDigit = true := by
  rw [List.eq_of_mem_replicate h]
  rfl

theorem digitsValue_toDigits (n : Nat) : digitsValue (Nat.toDigits 10 n) = n :=
  Nat.ofDigitChars_ten_toDigits

theorem digitsValue_zeros_append (k : Nat) (ds : List Char) :
    digitsValue (Layout.zeros k ++ ds) = digitsValue ds := by
  have h : digitsValue (Layout.zeros k) = 0 :=
    (Nat.ofDigitChars_replicate_zero (b := 10)).trans (Nat.mul_zero _)
  simp only [digitsValue, List.foldl_append] at h ⊢
  rw [h]

theorem digitsValue_append_zeros (ds : List Char) (k : Nat) :
    digitsValue (ds ++ Layout.zeros k) = 10 ^ k * digitsValue ds := by
  simp only [digitsValue, List.foldl_append]
  exact Nat.ofDigitChars_replicate_zero

theorem digitsValue_lt {ds : List Char} (hd : ∀ c ∈ ds, c.isDigit = true) :
    digitsValue ds < 10 ^ ds.length := by
  induction ds using List.reverseRecOn with
  | nil => decide
  | append_singleton ds c ih =>
    obtain ⟨hds, hc⟩ := List.forall_mem_append.1 hd
    have hlt := ih hds
    have hdigit : c.toNat - '0'.toNat < 10 := by
      have h := List.forall_mem_singleton.1 hc
      simp only [Char.isDigit, Bool.and_eq_true, decide_eq_true_eq, UInt32.le_iff_toNat_le] at h
      have htop : c.toNat ≤ '9'.toNat := h.2
      have hnine : '9'.toNat = 57 := rfl
      have hzero : '0'.toNat = 48 := rfl
      omega
    have hvalue : digitsValue (ds ++ [c]) = 10 * digitsValue ds + (c.toNat - '0'.toNat) := by
      simp [digitsValue]
    rw [hvalue, List.length_append, List.length_singleton, Nat.pow_succ]
    omega

theorem head?_toDigits_ne {n : Nat} (h : 0 < n) : (Nat.toDigits 10 n).head? ≠ some '0' := by
  induction n using Nat.base_induction 10 (by decide) with
  | single m hm =>
    rw [Nat.toDigits_of_lt_base hm]
    simp
    omega
  | digit m k hk hm ih =>
    obtain ⟨c, cs, hc⟩ := List.exists_cons_of_ne_nil (Nat.toDigits_ne_nil (n := m) (b := 10))
    rw [← Nat.toDigits_append_toDigits (by decide) hm hk, hc]
    rw [hc] at ih
    exact ih hm

end Rulebook.Numeral
