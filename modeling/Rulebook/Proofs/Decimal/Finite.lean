import Rulebook.Proofs.Decimal.Shortest
/-!
What is rounded to a finite double. Only a value near the greatest double or beyond it becomes
infinite, so every integer of 64 bits is finite.
-/

set_option autoImplicit false

namespace Rulebook.Binary64

open Float.Model (Format)
open Float.Model.UnpackedFloat

theorem isFinite_unpack {b : Packed} (h : unpackExponent b ≠ -1#11) :
    (unpack Format.binary64 b).isFinite = true := by
  by_cases hz : unpackExponent b = 0#11
  · by_cases hm : unpackMantissa b = 0#52
    · have hu : unpack Format.binary64 b = _ :=
        (if_neg h).trans ((if_pos hz).trans (dif_pos hm))
      rw [hu]
      rfl
    · have hu : unpack Format.binary64 b = _ :=
        (if_neg h).trans ((if_pos hz).trans (dif_neg hm))
      rw [hu]
      rfl
  · have hu : unpack Format.binary64 b = _ := (if_neg h).trans (if_neg hz)
    rw [hu]
    rfl

theorem isFinite_ofMagnitude (negative : Bool) {bits : Nat} (h : bits < infinityBits) :
    (ofMagnitude negative bits).isFinite = true := by
  unfold ofMagnitude
  set u := UInt64.ofNat (if negative then signBit + bits else bits) with hu
  have hbits : u.toBitVec.toNat / 2 ^ 52 % 2 ^ 11 ≠ 2047 := by
    have hnat : u.toBitVec.toNat = (if negative then signBit + bits else bits) % 2 ^ 64 := rfl
    simp only [infinityBits] at h
    rw [hnat]
    cases negative <;> simp only [signBit, Bool.false_eq_true, if_true, if_false] <;> omega
  have hexponent : @unpackExponent Format.binary64 u.toBitVec ≠ -1#11 := fun he => by
    have hnat := toNat_unpackExponent u.toBitVec
    rw [he] at hnat
    exact hbits hnat.symm
  have hvalid : Format.binary64.Valid u.toBitVec := ⟨fun he => absurd he hexponent⟩
  change (unpack Format.binary64 (pack Format.binary64 (unpack Format.binary64 u.toBitVec))).isFinite
    = true
  rw [pack_unpack hvalid]
  exact isFinite_unpack hexponent

theorem roundDiv_le {n d k : Nat} (hd : 0 < d) (h : n < k * d) : roundDiv n d ≤ k := by
  have hfloor : n / d < k := (Nat.div_lt_iff_lt_mul hd).2 h
  simp only [roundDiv]
  split <;> omega

/-- A significand has 53 bits at most, so a value below the last power of two stays finite. -/
theorem nearestBits_lt {num den : Nat} (hden : 0 < den) (h : (num : ℚ) / den < 2 ^ (1023 : Int)) :
    nearestBits num den < infinityBits := by
  unfold nearestBits
  by_cases hnum : num = 0
  · rw [if_pos hnum]
    decide
  · rw [if_neg hnum, floorLog2_eq (Nat.pos_of_ne_zero hnum) hden]
    have hdq : (0 : ℚ) < den := by exact_mod_cast hden
    have hpos : (0 : ℚ) < num / den :=
      div_pos (by exact_mod_cast Nat.pos_of_ne_zero hnum) hdq
    have hlog : Int.log 2 ((num : ℚ) / den) < 1023 :=
      (Int.lt_zpow_iff_log_lt (by decide) hpos).1 (by exact_mod_cast h)
    have hbelow : (num : ℚ) / den < 2 ^ (Int.log 2 ((num : ℚ) / den) + 1) := by
      exact_mod_cast Int.lt_zpow_succ_log_self (b := 2) (by decide) ((num : ℚ) / den)
    set q := max (Int.log 2 ((num : ℚ) / den) - 52) (-1074) with hq
    obtain ⟨hd, hr⟩ := unscale_ratio num hden q
    have hlt : (unscale num den q).1 < 2 ^ 53 * (unscale num den q).2 := by
      have hscaled : ((unscale num den q).1 : ℚ) / (unscale num den q).2 < 2 ^ (53 : Int) := by
        calc ((unscale num den q).1 : ℚ) / (unscale num den q).2
            = num / den * 2 ^ (-q) := hr
          _ < 2 ^ (Int.log 2 ((num : ℚ) / den) + 1) * 2 ^ (-q) := by gcongr
          _ = 2 ^ (Int.log 2 ((num : ℚ) / den) + 1 + -q) := (zpow_add₀ (by norm_num) _ _).symm
          _ ≤ 2 ^ (53 : Int) := zpow_le_zpow_right₀ (by norm_num) (by omega)
      rw [div_lt_iff₀ (by exact_mod_cast hd)] at hscaled
      exact_mod_cast hscaled
    have hround := roundDiv_le hd hlt
    simp only [hiddenBit, infinityBits] at hround ⊢
    omega

theorem isFinite_ofInt {n : Int} (h : n.natAbs < 0x10000000000000000) :
    (ofInt n).isFinite = true := by
  rw [ofInt, Numeral.toFloat_eq]
  refine isFinite_ofMagnitude _ ?_
  have hlength : (Nat.toDigits 10 n.natAbs).length ≤ 20 :=
    (Nat.length_toDigits_le_iff (by decide) (by decide)).2 (by omega)
  simp only [decimalBits]
  split
  · decide
  · rw [if_neg (by omega)]
    refine nearestBits_lt (ratio_value n.natAbs 0).1 ?_
    rw [(ratio_value n.natAbs 0).2, decimalValue, zpow_zero, mul_one]
    calc (n.natAbs : ℚ) < 2 ^ (64 : Int) := by exact_mod_cast h
      _ ≤ 2 ^ (1023 : Int) := zpow_le_zpow_right₀ (by norm_num) (by decide)

end Rulebook.Binary64
