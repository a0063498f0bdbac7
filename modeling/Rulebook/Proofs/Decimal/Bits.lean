import Mathlib.Algebra.Group.Nat.Defs
import Rulebook.Decimal.Binary64
/-!
A double is its sign and the bits of its magnitude: taken apart and put together again it is the
same double.
-/

set_option autoImplicit false

namespace Rulebook.Binary64

open Float.Model (Format UnpackedFloat)
open Float.Model.UnpackedFloat

abbrev Packed : Type := BitVec Format.binary64.numBits

theorem toNat_unpackMantissa (b : Packed) : (unpackMantissa b).toNat = b.toNat % 2 ^ 52 := by
  simp [unpackMantissa]

theorem toNat_unpackExponent (b : Packed) :
    (unpackExponent b).toNat = b.toNat / 2 ^ 52 % 2 ^ 11 := by
  simp [unpackExponent, Nat.shiftRight_eq_div_pow]

theorem toNat_unpackSign (b : Packed) : (unpackSign b).toNat = b.toNat / 2 ^ 63 % 2 := by
  unfold unpackSign
  simp [Nat.shiftRight_eq_div_pow]

theorem toNat_append {n k : Nat} (v : BitVec n) (w : BitVec k) :
    (v ++ w).toNat = v.toNat * 2 ^ k + w.toNat := by
  rw [BitVec.toNat_append, ← Nat.shiftLeft_add_eq_or_of_lt w.isLt, Nat.shiftLeft_eq]

theorem toBitVec_ofBitVec (v : BitVec 1) : (Sign.ofBitVec v).toBitVec = v := by
  revert v
  decide

theorem components_unpacked (b : Packed) :
    packComponents Format.binary64 (Sign.ofBitVec (unpackSign b)) (unpackExponent b)
      (unpackMantissa b) = b := by
  have hb : b.toNat < 2 ^ 64 := b.isLt
  apply BitVec.eq_of_toNat_eq
  rw [packComponents, toBitVec_ofBitVec, toNat_append, toNat_append, toNat_unpackSign,
    toNat_unpackExponent, toNat_unpackMantissa]
  change (b.toNat / 2 ^ 63 % 2 * 2 ^ 11 + b.toNat / 2 ^ 52 % 2 ^ 11) * 2 ^ 52 + b.toNat % 2 ^ 52 =
    b.toNat
  omega

theorem toNat_implicit (v : BitVec 52) : (1#1 ++ v).toNat = 2 ^ 52 + v.toNat := by
  rw [toNat_append]
  simp

theorem log2_implicit (v : BitVec 52) : (1#1 ++ v).toNat.log2 = 52 := by
  have hv := v.isLt
  rw [toNat_implicit]
  exact (Nat.log2_eq_iff (by omega)).2 (by omega)

theorem exponentBias_eq : Format.binary64.exponentBias = 1023 := rfl

theorem mantissaBits_eq : Format.binary64.mantissaBits = 53 := rfl

theorem pack_subnormal (s : Sign) (v : BitVec 52) (hv : 0 < v.toNat) {e : Int} (he : e = -1074) :
    pack Format.binary64 (.finite s v.toNat e hv) = packComponents Format.binary64 s 0#11 v := by
  subst he
  have hl : v.toNat.log2 < 52 := (Nat.log2_lt (by omega)).2 v.isLt
  have hb : ¬ v.toNat.log2 + 1 = 53 := by omega
  unfold pack
  dsimp only
  rw [if_neg (by decide), mantissaBits_eq, if_neg hb, BitVec.ofNat_toNat, BitVec.setWidth_eq]

theorem pack_normal (s : Sign) (e : BitVec 11) (v : BitVec 52) (he : e ≠ -1#11)
    {m : Nat} (hm : m = (1#1 ++ v).toNat) (hp : 0 < m) :
    pack Format.binary64 (.finite s m ((e.toNat : Int) - 1075) hp) =
      packComponents Format.binary64 s e v := by
  have hn : e.toNat ≠ 2047 := fun h => he (BitVec.eq_of_toNat_eq h)
  have hlt := e.isLt
  have hb : ((e.toNat : Int) - 1075 + Format.binary64.exponentBias + (52 : Nat)).toNat =
      e.toNat := by
    rw [exponentBias_eq]
    omega
  have hl : m.log2 + 1 = 53 := by rw [hm, log2_implicit]
  have hv : BitVec.ofNat 52 m = v := by
    apply BitVec.eq_of_toNat_eq
    have := v.isLt
    rw [hm, toNat_implicit, BitVec.toNat_ofNat]
    omega
  unfold pack
  dsimp only
  rw [if_neg (by rw [hb]; omega), mantissaBits_eq, if_pos hl, hv, hb, BitVec.ofNat_toNat,
    BitVec.setWidth_eq]

/-- Bits that stand for a number, or for the one way not to be a number, are packed again. -/
theorem pack_unpack {b : Packed} (hb : Format.binary64.Valid b) :
    pack Format.binary64 (unpack Format.binary64 b) = b := by
  have hc := components_unpacked b
  by_cases hi : unpackExponent b = -1#11
  · by_cases hm : unpackMantissa b = 0#52
    · have hu : unpack Format.binary64 b = _ := (if_pos hi).trans (if_pos hm)
      rw [hi, hm] at hc
      rw [hu]
      exact hc
    · rw [hb.eq_packedNaN hi hm]
      rfl
  · by_cases hz : unpackExponent b = 0#11
    · rw [hz] at hc
      by_cases hm : unpackMantissa b = 0#52
      · have hu : unpack Format.binary64 b = _ :=
          (if_neg hi).trans ((if_pos hz).trans (dif_pos hm))
        rw [hm] at hc
        rw [hu]
        exact hc
      · have hu : unpack Format.binary64 b = _ :=
          (if_neg hi).trans ((if_pos hz).trans (dif_neg hm))
        rw [hu]
        exact (pack_subnormal _ _ _ (by rw [hz]; rfl)).trans hc
    · have hu : unpack Format.binary64 b = _ := (if_neg hi).trans (if_neg hz)
      rw [hu]
      exact (pack_normal _ _ _ hi rfl _).trans hc

theorem ofBits_toBits (x : Float) : Float.ofBits x.toBits = x := by
  obtain ⟨⟨bits, valid⟩⟩ := x
  have h : (Float.Model.ofBits bits).toBits = bits :=
    congrArg UInt64.ofBitVec (pack_unpack valid)
  have hm : Float.Model.ofBits bits = ⟨bits, valid⟩ := by
    generalize Float.Model.ofBits bits = m at h
    obtain ⟨bits', valid'⟩ := m
    cases h
    rfl
  exact congrArg Float.ofModel hm

theorem ofMagnitude_magnitudeBits (x : Float) :
    ofMagnitude (isNegative x) (magnitudeBits x) = x := by
  have hx : x.toBits.toNat < 2 ^ 64 := x.toBits.toNat_lt
  have hb : (if isNegative x then signBit + magnitudeBits x else magnitudeBits x) =
      x.toBits.toNat := by
    simp only [isNegative, magnitudeBits, signBit]
    by_cases h : 0x8000000000000000 ≤ x.toBits.toNat <;>
      simp only [h, decide_true, decide_false, if_true, if_false, Bool.false_eq_true] <;> omega
  rw [ofMagnitude, hb, UInt64.ofNat_toNat, ofBits_toBits]

theorem magnitudeBits_lt_of_isFinite {x : Float} (h : x.isFinite = true) :
    magnitudeBits x < infinityBits := by
  refine Nat.lt_of_not_le fun hge => ?_
  have hx : x.toBits.toNat < 2 ^ 64 := x.toBits.toNat_lt
  have he : @unpackExponent Format.binary64 x.toBits.toBitVec = -1#11 := by
    apply BitVec.eq_of_toNat_eq
    rw [toNat_unpackExponent]
    change x.toBits.toNat / 2 ^ 52 % 2 ^ 11 = 2047
    simp only [magnitudeBits, signBit, infinityBits] at hge
    omega
  have hf : (unpack Format.binary64 x.toBits.toBitVec).isFinite = true := h
  have hu : unpack Format.binary64 x.toBits.toBitVec = _ := if_pos he
  rw [hu] at hf
  split at hf <;> cases hf

end Rulebook.Binary64
