import Mathlib.Algebra.Order.Field.Power
import Mathlib.Algebra.Order.Floor.Semifield
import Mathlib.Data.Int.Log
import Mathlib.Data.Rat.Floor
import Mathlib.Tactic.FieldSimp
import Mathlib.Tactic.Linarith
import Mathlib.Tactic.Positivity
import Mathlib.Tactic.Ring
import Rulebook.Decimal.Binary64
/-!
What rounding makes of a ratio. The nearest double depends on the value of the ratio alone, and the
value of a finite double is rounded to that double.
-/

set_option autoImplicit false

namespace Rulebook.Binary64

theorem unscale_ratio (num : Nat) {den : Nat} (hden : 0 < den) (q : Int) :
    0 < (unscale num den q).2 ∧
      ((unscale num den q).1 : ℚ) / (unscale num den q).2 = num / den * 2 ^ (-q) := by
  have hd : (den : ℚ) ≠ 0 := by positivity
  unfold unscale
  split
  · rename_i hq
    obtain ⟨k, rfl⟩ := Int.eq_ofNat_of_zero_le hq
    refine ⟨Nat.mul_pos hden (Nat.pow_pos (by decide)), ?_⟩
    simp [zpow_neg]
    field_simp
  · rename_i hq
    obtain ⟨k, rfl⟩ : ∃ k : Nat, q = -(k : Int) := ⟨(-q).toNat, by omega⟩
    refine ⟨hden, ?_⟩
    simp
    ring

theorem log_eq {b : Nat} (hb : 1 < b) {x : ℚ} {k : Int} (hlo : (b : ℚ) ^ k ≤ x)
    (hhi : x < (b : ℚ) ^ (k + 1)) : Int.log b x = k := by
  have hx : 0 < x := lt_of_lt_of_le (by positivity) hlo
  have h₁ : k ≤ Int.log b x := (Int.zpow_le_iff_le_log hb hx).1 hlo
  have h₂ : Int.log b x < k + 1 := (Int.lt_zpow_iff_log_lt hb hx).1 hhi
  omega

theorem log2_bounds {n : Nat} (hn : 0 < n) :
    (2 : ℚ) ^ (n.log2 : Int) ≤ n ∧ (n : ℚ) < 2 ^ ((n.log2 : Int) + 1) := by
  have h₁ : 2 ^ n.log2 ≤ n := Nat.log2_self_le (by omega)
  have h₂ : n < 2 ^ (n.log2 + 1) := Nat.lt_log2_self
  constructor
  · exact_mod_cast h₁
  · exact_mod_cast h₂

theorem floorLog2_eq {num den : Nat} (hnum : 0 < num) (hden : 0 < den) :
    floorLog2 num den = Int.log 2 ((num : ℚ) / den) := by
  obtain ⟨hnl, hnh⟩ := log2_bounds hnum
  obtain ⟨hdl, hdh⟩ := log2_bounds hden
  set k : Int := (num.log2 : Int) - den.log2 with hk
  obtain ⟨hd, hr⟩ := unscale_ratio num hden k
  have hdq : (0 : ℚ) < den := by exact_mod_cast hden
  have hupper : (num : ℚ) / den < 2 ^ (k + 1) := by
    rw [div_lt_iff₀ hdq]
    calc (num : ℚ) < 2 ^ ((num.log2 : Int) + 1) := hnh
      _ = 2 ^ (k + 1) * 2 ^ (den.log2 : Int) := by
        rw [← zpow_add₀ (by norm_num)]
        congr 1
        omega
      _ ≤ 2 ^ (k + 1) * den := by gcongr
  have hlower : (2 : ℚ) ^ (k - 1) ≤ num / den := by
    rw [le_div_iff₀ hdq]
    calc (2 : ℚ) ^ (k - 1) * den ≤ 2 ^ (k - 1) * 2 ^ ((den.log2 : Int) + 1) := by gcongr
      _ = 2 ^ (num.log2 : Int) := by
        rw [← zpow_add₀ (by norm_num)]
        congr 1
        omega
      _ ≤ num := hnl
  have hcut : (unscale num den k).2 ≤ (unscale num den k).1 ↔ (2 : ℚ) ^ k ≤ num / den := by
    have hdq' : (0 : ℚ) < (unscale num den k).2 := by exact_mod_cast hd
    rw [← Nat.cast_le (α := ℚ), ← one_le_div hdq', hr, zpow_neg, ← div_eq_mul_inv,
      one_le_div (by positivity)]
  change (if (unscale num den k).2 ≤ (unscale num den k).1 then k else k - 1) = _
  split
  · rename_i h
    exact (log_eq (by decide) (hcut.1 h) hupper).symm
  · rename_i h
    have hlt : (num : ℚ) / den < 2 ^ (k - 1 + 1) := by
      rw [sub_add_cancel]
      exact lt_of_not_ge fun hle => h (hcut.2 hle)
    exact (log_eq (by decide) hlower hlt).symm

theorem roundDiv_mul {num den c : Nat} (hc : 0 < c) :
    roundDiv (num * c) (den * c) = roundDiv num den := by
  have hlt : den * c < 2 * (num % den) * c ↔ den < 2 * (num % den) := Nat.mul_lt_mul_right hc
  have heq : 2 * (num % den) * c = den * c ↔ 2 * (num % den) = den := Nat.mul_left_inj (by omega)
  simp only [roundDiv, Nat.mul_div_mul_right _ _ hc, Nat.mul_mod_mul_right, ← Nat.mul_assoc, hlt,
    heq]

theorem roundDiv_congr {n d n' d' : Nat} (hd : 0 < d) (hd' : 0 < d')
    (h : (n : ℚ) / d = n' / d') : roundDiv n d = roundDiv n' d' := by
  have hdq : (d : ℚ) ≠ 0 := by positivity
  have hdq' : (d' : ℚ) ≠ 0 := by positivity
  have hc : n * d' = n' * d := by
    rw [div_eq_div_iff hdq hdq'] at h
    exact_mod_cast h
  rw [← roundDiv_mul hd', hc, Nat.mul_comm d d', roundDiv_mul hd]

theorem nearestBits_congr {num den num' den' : Nat} (hden : 0 < den) (hden' : 0 < den')
    (h : (num : ℚ) / den = num' / den') : nearestBits num den = nearestBits num' den' := by
  have hdq : (den : ℚ) ≠ 0 := by positivity
  have hdq' : (den' : ℚ) ≠ 0 := by positivity
  have hz : num = 0 ↔ num' = 0 := by
    have hn : (num : ℚ) / den = 0 ↔ num = 0 := by simp [Nat.ne_of_gt hden]
    have hn' : (num' : ℚ) / den' = 0 ↔ num' = 0 := by simp [Nat.ne_of_gt hden']
    rw [← hn, h, hn']
  unfold nearestBits
  by_cases h₀ : num = 0
  · rw [if_pos h₀, if_pos (hz.1 h₀)]
  · have h₀' : num' ≠ 0 := fun h' => h₀ (hz.2 h')
    rw [if_neg h₀, if_neg h₀', floorLog2_eq (by omega) hden, floorLog2_eq (by omega) hden', h]
    set q := max (Int.log 2 ((num' : ℚ) / den') - 52) (-1074)
    obtain ⟨hd, hr⟩ := unscale_ratio num hden q
    obtain ⟨hd', hr'⟩ := unscale_ratio num' hden' q
    have hround := roundDiv_congr hd hd' (by rw [hr, hr', h])
    simp only [hround]

theorem roundDiv_exact {n d m : Nat} (hd : 0 < d) (h : (n : ℚ) / d = m) : roundDiv n d = m := by
  have h₁ : roundDiv n d = roundDiv m 1 := roundDiv_congr hd (by decide) (by simpa using h)
  simpa [roundDiv, Nat.mod_one] using h₁

theorem log_scaled {m : Nat} (hm : 0 < m) (q : Int) :
    Int.log 2 ((m : ℚ) * 2 ^ q) = m.log2 + q := by
  obtain ⟨hlo, hhi⟩ := log2_bounds hm
  apply log_eq (by decide)
  · rw [Nat.cast_ofNat, zpow_add₀ (by norm_num)]
    gcongr
  · rw [Nat.cast_ofNat, add_right_comm, zpow_add₀ (by norm_num)]
    gcongr

def magnitudeValue (bits : Nat) : ℚ := (magnitude bits).1 * 2 ^ (magnitude bits).2

/-- Rounding a ratio with at most 53 bits above the exponent `q` loses nothing. -/
theorem nearestBits_exact {num den m : Nat} {q : Int} (hden : 0 < den) (hm : 0 < m)
    (hq : q = max ((m.log2 : Int) + q - 52) (-1074)) (h : (num : ℚ) / den = m * 2 ^ q) :
    nearestBits num den = min ((q + 1074).toNat * hiddenBit + m) infinityBits := by
  have hnum : 0 < num := by
    have hpos : (0 : ℚ) < num / den := by
      rw [h]
      positivity
    refine Nat.pos_of_ne_zero fun h₀ => ?_
    simp [h₀] at hpos
  have hlog : max (floorLog2 num den - 52) (-1074) = q := by
    rw [floorLog2_eq hnum hden, h, log_scaled hm, ← hq]
  obtain ⟨hd, hr⟩ := unscale_ratio num hden q
  have hexact : ((unscale num den q).1 : ℚ) / (unscale num den q).2 = m := by
    rw [hr, h, mul_assoc, ← zpow_add₀ (by norm_num)]
    simp
  unfold nearestBits
  rw [if_neg (Nat.ne_of_gt hnum)]
  simp only [hlog, roundDiv_exact hd hexact]

theorem nearestBits_magnitude {bits num den : Nat} (hb : bits < infinityBits) (hden : 0 < den)
    (h : (num : ℚ) / den = magnitudeValue bits) : nearestBits num den = bits := by
  have hdq : (den : ℚ) ≠ 0 := by positivity
  simp only [magnitudeValue, magnitude] at h
  by_cases he : bits / hiddenBit = 0
  · have hlt : bits < 2 ^ 52 := by
      simp only [hiddenBit] at he
      omega
    have hmod : bits % hiddenBit = bits := Nat.mod_eq_of_lt hlt
    simp only [he, if_true, hmod] at h
    rcases Nat.eq_zero_or_pos bits with rfl | hpos
    · have hnum : num = 0 := by simpa [hdq] using h
      simp [nearestBits, hnum]
    · have hl : bits.log2 < 52 := (Nat.log2_lt (by omega)).2 hlt
      rw [nearestBits_exact hden hpos (by omega) h, show ((-1074 : Int) + 1074).toNat = 0 from rfl,
        Nat.zero_mul, Nat.zero_add]
      exact Nat.min_eq_left (Nat.le_of_lt hb)
  · simp only [he, if_false] at h
    simp only [hiddenBit, infinityBits] at h hb he
    have hl : (0x10000000000000 + bits % 0x10000000000000).log2 = 52 :=
      (Nat.log2_eq_iff (by omega)).2 (by omega)
    rw [nearestBits_exact hden (by omega) (by rw [hl]; omega) h]
    simp only [hiddenBit, infinityBits]
    omega

end Rulebook.Binary64
