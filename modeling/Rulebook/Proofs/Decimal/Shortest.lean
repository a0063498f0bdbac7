import Rulebook.Decimal.Shortest
import Rulebook.Proofs.Decimal.Bits
import Rulebook.Proofs.Decimal.Rounding
/-!
The digits of a double read back as that double. What a numeral is read as depends on its value
alone, so trailing zeros do not matter; the shortest digits are chosen among those that read back,
and the exact value, which is taken if there are none, reads back as well.
-/

set_option autoImplicit false

namespace Rulebook

namespace Binary64

def decimalValue (digits : Nat) (scale : Int) : ℚ := digits * 10 ^ scale

theorem ratio_value (digits : Nat) (scale : Int) :
    0 < (ratio digits scale).2 ∧
      ((ratio digits scale).1 : ℚ) / (ratio digits scale).2 = decimalValue digits scale := by
  unfold ratio decimalValue
  split
  · rename_i hs
    obtain ⟨k, rfl⟩ := Int.eq_ofNat_of_zero_le hs
    simp
  · rename_i hs
    obtain ⟨k, rfl⟩ : ∃ k : Nat, scale = -(k : Int) := ⟨(-scale).toNat, by omega⟩
    refine ⟨Nat.pow_pos (by decide), ?_⟩
    simp [div_eq_mul_inv]

theorem decimalValue_eq_zero {digits : Nat} {scale : Int} :
    decimalValue digits scale = 0 ↔ digits = 0 := by
  have h : (10 : ℚ) ^ scale ≠ 0 := by positivity
  simp [decimalValue, h]

theorem length_toDigits_bounds {n : Nat} (hn : 0 < n) :
    10 ^ ((Nat.toDigits 10 n).length - 1) ≤ n ∧ n < 10 ^ (Nat.toDigits 10 n).length := by
  have hpos : 0 < (Nat.toDigits 10 n).length := Nat.length_toDigits_pos
  refine ⟨?_, (Nat.length_toDigits_le_iff (by decide) hpos).1 (Nat.le_refl _)⟩
  by_cases h₁ : (Nat.toDigits 10 n).length = 1
  · rw [h₁]
    exact hn
  · refine Nat.le_of_not_lt fun hlt => ?_
    have := (Nat.length_toDigits_le_iff (by decide) (by omega)).2 hlt
    omega

theorem log_decimalValue {digits : Nat} (hd : 0 < digits) (scale : Int) :
    Int.log 10 (decimalValue digits scale) + 1 = scale + (Nat.toDigits 10 digits).length := by
  have hpos : 0 < (Nat.toDigits 10 digits).length := Nat.length_toDigits_pos
  obtain ⟨hlo, hhi⟩ := length_toDigits_bounds hd
  set k := (Nat.toDigits 10 digits).length
  have h : Int.log 10 (decimalValue digits scale) = ((k - 1 : Nat) : Int) + scale := by
    have hlo : (10 : ℚ) ^ (((k - 1 : Nat) : Int)) ≤ digits := by exact_mod_cast hlo
    have hhi : (digits : ℚ) < 10 ^ (((k - 1 : Nat) : Int) + 1) := by
      have hk : ((k - 1 : Nat) : Int) + 1 = (k : Int) := by omega
      rw [hk]
      exact_mod_cast hhi
    apply log_eq (by decide)
    · rw [Nat.cast_ofNat, zpow_add₀ (by norm_num), decimalValue]
      gcongr
    · rw [Nat.cast_ofNat, add_right_comm, zpow_add₀ (by norm_num), decimalValue]
      gcongr
  omega

theorem decimalBits_congr {digits digits' : Nat} {scale scale' : Int}
    (h : decimalValue digits scale = decimalValue digits' scale') :
    decimalBits digits scale = decimalBits digits' scale' := by
  have hz : digits = 0 ↔ digits' = 0 := by
    rw [← @decimalValue_eq_zero digits scale, h, decimalValue_eq_zero]
  obtain ⟨hden, hr⟩ := ratio_value digits scale
  obtain ⟨hden', hr'⟩ := ratio_value digits' scale'
  unfold decimalBits
  by_cases h₀ : digits = 0
  · simp [h₀, hz.1 h₀]
  · have h₀' : digits' ≠ 0 := fun h' => h₀ (hz.2 h')
    simp only [h₀, h₀', false_or, ← log_decimalValue (Nat.pos_of_ne_zero h₀),
      ← log_decimalValue (Nat.pos_of_ne_zero h₀'), h,
      nearestBits_congr hden hden' (by rw [hr, hr', h])]

theorem magnitudeValue_bounds {bits : Nat} (h₀ : 0 < bits) (hb : bits < infinityBits) :
    (2 : ℚ) ^ (-1074 : Int) ≤ magnitudeValue bits ∧ magnitudeValue bits < 2 ^ (1024 : Int) := by
  have hm : 0 < (magnitude bits).1 ∧ (magnitude bits).1 < 2 ^ 53 ∧
      -1074 ≤ (magnitude bits).2 ∧ (magnitude bits).2 ≤ 971 := by
    simp only [infinityBits] at hb
    simp only [magnitude, hiddenBit]
    by_cases he : bits / 0x10000000000000 = 0
    · simp only [he, if_true]
      omega
    · simp only [he, if_false]
      omega
  obtain ⟨hpos, hlt, hlo, hhi⟩ := hm
  have hpos : (1 : ℚ) ≤ (magnitude bits).1 := by exact_mod_cast hpos
  have hlt : ((magnitude bits).1 : ℚ) < 2 ^ (53 : Int) := by exact_mod_cast hlt
  have hlo : (2 : ℚ) ^ (-1074 : Int) ≤ 2 ^ (magnitude bits).2 :=
    zpow_le_zpow_right₀ (by norm_num) hlo
  have hhi : (2 : ℚ) ^ (magnitude bits).2 ≤ 2 ^ (971 : Int) := zpow_le_zpow_right₀ (by norm_num) hhi
  have hp : (0 : ℚ) < 2 ^ (magnitude bits).2 := by positivity
  unfold magnitudeValue
  constructor
  · calc (2 : ℚ) ^ (-1074 : Int) ≤ 1 * 2 ^ (magnitude bits).2 := by rw [one_mul]; exact hlo
      _ ≤ (magnitude bits).1 * 2 ^ (magnitude bits).2 := by gcongr
  · calc ((magnitude bits).1 : ℚ) * 2 ^ (magnitude bits).2
        < 2 ^ (53 : Int) * 2 ^ (magnitude bits).2 := by gcongr
      _ ≤ 2 ^ (53 : Int) * 2 ^ (971 : Int) := by gcongr
      _ = 2 ^ (1024 : Int) := by rw [← zpow_add₀ (by norm_num)]; rfl

/-- A numeral with the value of a finite magnitude is rounded to it. -/
theorem decimalBits_magnitude {bits digits : Nat} {scale : Int} (hb : bits < infinityBits)
    (h : decimalValue digits scale = magnitudeValue bits) : decimalBits digits scale = bits := by
  obtain ⟨hden, hr⟩ := ratio_value digits scale
  have hnear := nearestBits_magnitude hb hden (hr.trans h)
  by_cases h₀ : digits = 0
  · subst h₀
    have : (ratio 0 scale).1 = 0 := by unfold ratio; split <;> simp
    simpa [decimalBits, nearestBits, this] using hnear
  · have hbits : 0 < bits := by
      refine Nat.pos_of_ne_zero fun hz => h₀ (decimalValue_eq_zero.1 (h.trans ?_))
      simp [hz, magnitudeValue, magnitude]
    obtain ⟨hlo, hhi⟩ := magnitudeValue_bounds hbits hb
    have hpos : 0 < magnitudeValue bits := lt_of_lt_of_le (by positivity) hlo
    have hleast : -331 ≤ Int.log 10 (magnitudeValue bits) := by
      refine (Int.zpow_le_iff_le_log (by decide) hpos).1 (le_trans ?_ hlo)
      rw [zpow_neg, zpow_neg]
      refine inv_anti₀ (by positivity) ?_
      exact_mod_cast (by decide +kernel : 2 ^ 1074 ≤ 10 ^ 331)
    have hmost : Int.log 10 (magnitudeValue bits) < 310 := by
      refine (Int.lt_zpow_iff_log_lt (by decide) hpos).1 (lt_of_lt_of_le hhi ?_)
      exact_mod_cast (by decide +kernel : 2 ^ 1024 ≤ 10 ^ 310)
    have htop := log_decimalValue (Nat.pos_of_ne_zero h₀) scale
    rw [h] at htop
    unfold decimalBits
    rw [if_neg (by omega), if_neg (by omega)]
    exact hnear

end Binary64

namespace Numeral

def value (n : Numeral) : ℚ := Binary64.decimalValue n.digits n.scale

theorem dropZeros_value (fuel digits : Nat) (scale : Int) :
    Binary64.decimalValue (dropZeros fuel digits scale).1 (dropZeros fuel digits scale).2 =
      Binary64.decimalValue digits scale := by
  induction fuel generalizing digits scale with
  | zero => rfl
  | succ fuel ih =>
    unfold dropZeros
    by_cases h : digits % 10 = 0
    · rw [if_pos h, ih]
      obtain ⟨k, rfl⟩ : ∃ k, digits = 10 * k := ⟨digits / 10, by omega⟩
      rw [Nat.mul_div_cancel_left _ (by decide)]
      simp only [Binary64.decimalValue, zpow_add₀ (show (10 : ℚ) ≠ 0 by norm_num)]
      push_cast
      ring
    · rw [if_neg h]

theorem normal_value (n : Numeral) : n.normal.value = n.value := by
  unfold normal
  split
  · rename_i h
    simp [value, Binary64.decimalValue, h]
  · exact dropZeros_value n.digits n.digits n.scale

theorem normal_negative (n : Numeral) : n.normal.negative = n.negative := by
  unfold normal
  split <;> rfl

theorem toFloat_eq (n : Numeral) :
    n.toFloat = Binary64.ofMagnitude n.negative (Binary64.decimalBits n.digits n.scale) := by
  rw [toFloat, normal_negative, Binary64.decimalBits_congr (normal_value n)]

theorem toFloat_congr {n k : Numeral} (hs : n.negative = k.negative) (hv : n.value = k.value) :
    n.toFloat = k.toFloat := by
  rw [toFloat_eq, toFloat_eq, hs, Binary64.decimalBits_congr hv]

end Numeral

namespace Shortest

open Binary64

theorem onGrid?_hits {tie : Tie} {bits m d : Nat} {q scale : Int}
    (h : onGrid? tie bits m q scale = some d) : decimalBits d scale = bits := by
  unfold onGrid? at h
  grind

theorem exact_value_of_nonneg (m : Nat) {q : Int} (hq : 0 ≤ q) :
    decimalValue (m * Nat.pow 2 q.toNat) 0 = m * 2 ^ q := by
  obtain ⟨k, rfl⟩ := Int.eq_ofNat_of_zero_le hq
  simp [decimalValue]

theorem exact_value_of_neg (m : Nat) {q : Int} (hq : ¬ 0 ≤ q) :
    decimalValue (m * Nat.pow 5 (-q).toNat) q = m * 2 ^ q := by
  obtain ⟨k, rfl⟩ : ∃ k : Nat, q = -(k : Int) := ⟨(-q).toNat, by omega⟩
  have h : (10 : ℚ) ^ k = 2 ^ k * 5 ^ k := by rw [← mul_pow]; norm_num
  simp only [decimalValue, neg_neg, Int.toNat_natCast, Nat.pow_eq, Nat.cast_mul, Nat.cast_pow,
    Nat.cast_ofNat, zpow_neg, zpow_natCast, h]
  field_simp

theorem search_hits (tie : Tie) {bits : Nat} (hb : bits < infinityBits) (fuel : Nat)
    (scale : Int) :
    let found := search tie bits (magnitude bits).1 (magnitude bits).2 fuel scale
    decimalBits found.1 found.2 = bits := by
  induction fuel generalizing scale with
  | zero =>
    unfold search
    split
    · rename_i hq
      exact decimalBits_magnitude hb (exact_value_of_nonneg _ hq)
    · rename_i hq
      exact decimalBits_magnitude hb (exact_value_of_neg _ hq)
  | succ fuel ih =>
    unfold search
    cases h : onGrid? tie bits (magnitude bits).1 (magnitude bits).2 scale with
    | some d => exact onGrid?_hits h
    | none => exact ih (scale - 1)

theorem digits_hit (tie : Tie) {bits : Nat} (hb : bits < infinityBits) :
    decimalBits (digits tie bits).1 (digits tie bits).2 = bits := by
  unfold digits
  split
  · rename_i h
    simp [decimalBits, h]
  · exact search_hits tie hb 20 _

/-- The digits of a finite double read back as that double. -/
theorem numeral_toFloat (tie : Tie) {x : Float} (hx : x.isFinite = true) :
    (numeral tie x).toFloat = x := by
  rw [Numeral.toFloat_eq]
  simp only [numeral]
  rw [digits_hit tie (magnitudeBits_lt_of_isFinite hx), ofMagnitude_magnitudeBits]

end Shortest

end Rulebook
