import Rulebook.Json.Printer
import Rulebook.Json.Reader
import Rulebook.Proofs.Decimal.Digits
import Rulebook.Proofs.Decimal.Shortest
/-!
Numbers in documents. A finite double and an integer of 64 bits are read back from what is written,
whatever follows, as long as it does not make the number longer.
-/

set_option autoImplicit false

namespace Rulebook.Json

open Numeral (readDigits digitsValue)

def endsNumber (tail : List Char) : Bool := !tail.head?.any fun c => c.isDigit || endsWhole c

theorem no_digit_of_endsNumber {tail : List Char} (h : endsNumber tail = true) :
    tail.head?.any Char.isDigit = false := by
  cases tail with
  | nil => rfl
  | cons c cs => simp_all [endsNumber]

theorem no_endsWhole_of_endsNumber {tail : List Char} (h : endsNumber tail = true) :
    tail.head?.any endsWhole = false := by
  cases tail with
  | nil => rfl
  | cons c cs => simp_all [endsNumber]

theorem readExponent_none {tail : List Char} (h : endsNumber tail = true) :
    Numeral.readExponent tail = some (0, tail) := by
  have he := no_endsWhole_of_endsNumber h
  cases tail with
  | nil => rfl
  | cons c cs =>
    have hc : ¬ (c = 'e' ∨ c = 'E') := by
      rintro (rfl | rfl) <;> simp [endsWhole] at he
    simp only [Numeral.readExponent, if_neg hc]

theorem readExponent_written (e : Int) {tail : List Char} (h : endsNumber tail = true) :
    Numeral.readExponent
      ('e' :: (if 0 ≤ e then '+' else '-') :: Nat.toDigits 10 e.natAbs ++ tail) =
      some (e, tail) := by
  obtain ⟨d, ds, hd⟩ := List.exists_cons_of_ne_nil (Nat.toDigits_ne_nil (n := e.natAbs) (b := 10))
  have hread : readDigits (d :: ds ++ tail) = (d :: ds, tail) :=
    Numeral.readDigits_append (fun c hc => Numeral.isDigit_of_mem_toDigits (hd ▸ hc))
      (no_digit_of_endsNumber h)
  have hvalue : digitsValue (d :: ds) = e.natAbs := by rw [← hd, Numeral.digitsValue_toDigits]
  simp only [Numeral.readExponent, List.cons_append, true_or, if_true, hd] at hread ⊢
  by_cases he : 0 ≤ e
  · simp only [he, if_true, Numeral.readSign, hread, hvalue, Bool.false_eq_true, if_false,
      Option.some.injEq, Prod.mk.injEq, and_true]
    omega
  · simp only [he, if_true, if_false, Numeral.readSign, hread, hvalue, Option.some.injEq,
      Prod.mk.injEq, and_true]
    omega

theorem readMinus_sign (negative : Bool) {c : Char} {cs : List Char} (h : c ≠ '-') :
    readMinus (Layout.sign negative ++ c :: cs) = (negative, c :: cs) := by
  cases negative with
  | true => rfl
  | false =>
    change readMinus (c :: cs) = _
    unfold readMinus
    split
    · rename_i heq
      exact absurd (List.cons.inj heq).1 h
    · rfl

structure Whole (ds : List Char) : Prop where
  digits : ∀ c ∈ ds, c.isDigit = true
  ne_nil : ds ≠ []
  leading : ds.length = 1 ∨ ds.head? ≠ some '0'

theorem readNumber_start {ds rest : List Char} (hw : Whole ds)
    (hr : rest.head?.any Char.isDigit = false) (negative : Bool) :
    readNumber (Layout.sign negative ++ (ds ++ rest)) =
      if rest.head?.any endsWhole then
        match readFraction rest with
        | none => none
        | some (fraction, cs) =>
          (Numeral.readExponent cs).map fun (exponent, rest) =>
            (realNumber (Numeral.ofParts negative ds fraction exponent), rest)
      else some (wholeNumber negative (digitsValue ds), rest) := by
  have hread := Numeral.readDigits_append hw.digits hr
  have hlead := hw.leading
  obtain ⟨d, ds, rfl⟩ := List.exists_cons_of_ne_nil hw.ne_nil
  have hminus : readMinus (Layout.sign negative ++ (d :: ds ++ rest)) =
      (negative, d :: ds ++ rest) := by
    refine readMinus_sign negative fun h => ?_
    have := hw.digits d List.mem_cons_self
    rw [h] at this
    cases this
  have hwhole : ((d :: ds).isEmpty || (d :: ds).length != 1 && (d :: ds).head? == some '0') =
      false := by
    rcases hlead with h | h
    · rw [h]
      rfl
    · rw [beq_false_of_ne h, Bool.and_false]
      rfl
  unfold readNumber
  simp only [hminus, hread]
  exact if_neg (Bool.eq_false_iff.1 hwhole)

theorem readNumber_parts {ds rest fraction exponentChars tail : List Char} {exponent : Int}
    (hw : Whole ds) (hr : rest.head?.any endsWhole = true)
    (hf : readFraction rest = some (fraction, exponentChars))
    (he : Numeral.readExponent exponentChars = some (exponent, tail)) (negative : Bool) :
    readNumber (Layout.sign negative ++ (ds ++ rest)) =
      some (realNumber (Numeral.ofParts negative ds fraction exponent), tail) := by
  have hd : rest.head?.any Char.isDigit = false := by
    cases rest with
    | nil => rfl
    | cons c cs =>
      simp only [List.head?_cons, Option.any_some, endsWhole, Bool.or_eq_true, decide_eq_true_eq]
        at hr ⊢
      rcases hr with (rfl | rfl) | rfl <;> rfl
  rw [readNumber_start hw hd, if_pos hr, hf]
  simp only [he, Option.map_some]

theorem readFraction_point {ds tail : List Char} (hd : ∀ c ∈ ds, c.isDigit = true) (hne : ds ≠ [])
    (ht : tail.head?.any Char.isDigit = false) :
    readFraction ('.' :: (ds ++ tail)) = some (ds, tail) := by
  obtain ⟨d, ds, rfl⟩ := List.exists_cons_of_ne_nil hne
  simp only [readFraction, Numeral.readDigits_append hd ht]

theorem value_ofParts (negative : Bool) (whole fraction : List Char) (exponent : Int) :
    (Numeral.ofParts negative whole fraction exponent).value =
      Binary64.decimalValue (digitsValue (whole ++ fraction)) (exponent - fraction.length) := rfl

theorem decimalValue_zeros (digits k : Nat) :
    Binary64.decimalValue (10 ^ (k + 1) * digits) (-1) = Binary64.decimalValue digits k := by
  simp [Binary64.decimalValue, pow_succ]
  ring

section Written

variable {ds : List Char} (hds : ∀ c ∈ ds, c.isDigit = true) (negative : Bool)
  {tail : List Char} (ht : endsNumber tail = true)

include hds ht

theorem readNumber_point_zero (hne : ds ≠ []) {k : Nat}
    (hl : ds.head? ≠ some '0' ∨ ds.length + k = 1) :
    ∃ n : Numeral, n.negative = negative ∧ n.value = Binary64.decimalValue (digitsValue ds) k ∧
      readNumber (Layout.sign negative ++ (ds ++ Layout.zeros k ++ ['.', '0'] ++ tail)) =
        some (realNumber n, tail) := by
  have hw : Whole (ds ++ Layout.zeros k) := by
    refine ⟨fun c hc => ?_, by simp [hne], ?_⟩
    · rcases List.mem_append.1 hc with hc | hc
      · exact hds c hc
      · exact Numeral.isDigit_of_mem_zeros hc
    · obtain ⟨d, ds, rfl⟩ := List.exists_cons_of_ne_nil hne
      rcases hl with hl | hl
      · exact .inr hl
      · exact .inl (by rw [List.length_append, Layout.zeros, List.length_replicate, hl])
  refine ⟨Numeral.ofParts negative (ds ++ Layout.zeros k) ['0'] 0, rfl, ?_, ?_⟩
  · have hz : ['0'] = Layout.zeros 1 := rfl
    rw [value_ofParts, List.append_assoc, hz, Layout.zeros, Layout.zeros,
      List.replicate_append_replicate]
    have := Numeral.digitsValue_append_zeros ds (k + 1)
    rw [Layout.zeros] at this
    rw [this]
    exact decimalValue_zeros _ _
  · rw [List.append_assoc]
    have hzero : ∀ c ∈ ['0'], c.isDigit = true := by simp
    exact readNumber_parts hw rfl (readFraction_point hzero (by simp)
      (no_digit_of_endsNumber ht)) (readExponent_none ht) negative

theorem readNumber_split {k : Nat} (h₀ : 0 < k) (hk : k < ds.length)
    (hl : ds.head? ≠ some '0') :
    ∃ n : Numeral, n.negative = negative ∧
      n.value = Binary64.decimalValue (digitsValue ds) (k - ds.length) ∧
      readNumber (Layout.sign negative ++ (ds.take k ++ '.' :: ds.drop k ++ tail)) =
        some (realNumber n, tail) := by
  have hw : Whole (ds.take k) := by
    refine ⟨fun c hc => hds c (List.mem_of_mem_take hc), ?_, .inr ?_⟩
    · exact List.ne_nil_of_length_pos (by rw [List.length_take]; omega)
    · rwa [List.head?_take, if_neg (by omega)]
  refine ⟨Numeral.ofParts negative (ds.take k) (ds.drop k) 0, rfl, ?_, ?_⟩
  · rw [value_ofParts, List.take_append_drop, List.length_drop]
    congr 1
    omega
  · rw [List.append_assoc]
    refine readNumber_parts hw rfl (readFraction_point (fun c hc => hds c (List.mem_of_mem_drop hc))
      ?_ (no_digit_of_endsNumber ht)) (readExponent_none ht) negative
    exact List.ne_nil_of_length_pos (by rw [List.length_drop]; omega)

theorem readNumber_below_one (hne : ds ≠ []) (k : Nat) :
    ∃ n : Numeral, n.negative = negative ∧
      n.value = Binary64.decimalValue (digitsValue ds) (-(k + ds.length : Int)) ∧
      readNumber (Layout.sign negative ++ ('0' :: '.' :: Layout.zeros k ++ ds ++ tail)) =
        some (realNumber n, tail) := by
  refine ⟨Numeral.ofParts negative ['0'] (Layout.zeros k ++ ds) 0, rfl, ?_, ?_⟩
  · have hz : ['0'] ++ (Layout.zeros k ++ ds) = Layout.zeros (k + 1) ++ ds := rfl
    rw [value_ofParts, hz, Numeral.digitsValue_zeros_append]
    congr 1
    simp [Layout.zeros]
  · have hd : ∀ c ∈ Layout.zeros k ++ ds, c.isDigit = true := fun c hc => by
      rcases List.mem_append.1 hc with hc | hc
      · exact Numeral.isDigit_of_mem_zeros hc
      · exact hds c hc
    have hw : Whole ['0'] := ⟨by simp, by simp, .inl rfl⟩
    have hread := readNumber_parts hw rfl (readFraction_point hd (by simp [hne])
      (no_digit_of_endsNumber ht)) (readExponent_none ht) negative
    simpa using hread

theorem readNumber_scientific (hne : ds ≠ []) (e : Int) :
    ∃ n : Numeral, n.negative = negative ∧
      n.value = Binary64.decimalValue (digitsValue ds) (e + 1 - ds.length) ∧
      readNumber (Layout.sign negative ++
        (ds.take 1 ++ (if 1 < ds.length then '.' :: ds.drop 1 else []) ++
          'e' :: (if 0 ≤ e then '+' else '-') :: Nat.toDigits 10 e.natAbs ++ tail)) =
        some (realNumber n, tail) := by
  obtain ⟨d, ds, rfl⟩ := List.exists_cons_of_ne_nil hne
  have hw : Whole [d] := ⟨by simpa using hds d (by simp), by simp, .inl rfl⟩
  refine ⟨Numeral.ofParts negative [d] ds e, rfl, ?_, ?_⟩
  · rw [value_ofParts]
    congr 1
    simp
  · have he := readExponent_written e ht
    cases ds with
    | nil => exact readNumber_parts hw rfl rfl he negative
    | cons c ds =>
      have hd : ∀ c' ∈ c :: ds, c'.isDigit = true := fun c' hc => hds c' (List.mem_cons_of_mem _ hc)
      have hread := readNumber_parts hw rfl (readFraction_point hd (by simp) rfl) he negative
      simpa using hread

end Written

/-- In each of the four ways in which it can be written a number keeps its value. -/
theorem readNumber_written (negative : Bool) {digits : Nat} {scale : Int}
    (hz : digits = 0 → scale = 0) {tail : List Char} (ht : endsNumber tail = true) :
    ∃ n : Numeral, n.negative = negative ∧ n.value = Binary64.decimalValue digits scale ∧
      readNumber (Layout.sign negative ++
          (Layout.document.written (Nat.toDigits 10 digits) scale ++ tail)) =
        some (realNumber n, tail) := by
  have hds : ∀ c ∈ Nat.toDigits 10 digits, c.isDigit = true :=
    fun c hc => Numeral.isDigit_of_mem_toDigits hc
  have hvalue := Numeral.digitsValue_toDigits digits
  have hne : Nat.toDigits 10 digits ≠ [] := Nat.toDigits_ne_nil
  have hpos : 0 < (Nat.toDigits 10 digits).length := Nat.length_toDigits_pos
  have hlead : (Nat.toDigits 10 digits).head? ≠ some '0' ∨
      scale = 0 ∧ (Nat.toDigits 10 digits).length = 1 := by
    rcases Nat.eq_zero_or_pos digits with h | h
    · exact .inr ⟨hz h, by simp [h]⟩
    · exact .inl (Numeral.head?_toDigits_ne h)
  generalize Nat.toDigits 10 digits = ds at hds hvalue hne hpos hlead
  subst hvalue
  simp only [Layout.written, Layout.document, decide_eq_true_eq, if_true]
  by_cases hp : -5 ≤ scale + ds.length - 1 ∧ scale + ds.length - 1 ≤ 15
  · rw [if_pos hp]
    by_cases hs : 0 ≤ scale
    · rw [if_pos hs]
      obtain ⟨k, rfl⟩ := Int.eq_ofNat_of_zero_le hs
      exact readNumber_point_zero hds negative ht hne (hlead.imp_right fun h => by omega)
    · have hlead : ds.head? ≠ some '0' := hlead.resolve_right fun h => hs (by omega)
      rw [if_neg hs]
      by_cases he : 0 ≤ scale + ds.length - 1
      · rw [if_pos he]
        have hread := readNumber_split hds negative ht (k := (scale + ds.length - 1).toNat + 1)
          (by omega) (by omega) hlead
        rwa [show (((scale + ds.length - 1).toNat + 1 : Nat) : Int) - ds.length = scale by omega]
          at hread
      · rw [if_neg he]
        have hread := readNumber_below_one hds negative ht hne
          (-(scale + ds.length - 1) - 1).toNat
        rwa [show -(((-(scale + ds.length - 1) - 1).toNat : Int) + ds.length) = scale by omega]
          at hread
  · rw [if_neg hp]
    have hread := readNumber_scientific hds negative ht hne (scale + ds.length - 1)
    rwa [show scale + ds.length - 1 + 1 - ds.length = scale by omega] at hread

theorem scale_of_zero_digits (tie : Shortest.Tie) {x : Float} (hx : x.isFinite = true)
    (h : (Shortest.numeral tie x).digits = 0) : (Shortest.numeral tie x).scale = 0 := by
  have hhit := Shortest.digits_hit tie (Binary64.magnitudeBits_lt_of_isFinite hx)
  have hz : (Shortest.digits tie (Binary64.magnitudeBits x)).1 = 0 := h
  have hbits : Binary64.magnitudeBits x = 0 := by
    rw [hz] at hhit
    simpa [Binary64.decimalBits] using hhit.symm
  simp [Shortest.numeral, Shortest.digits, hbits]

theorem readNumber_real {x : Float} (hx : x.isFinite = true) {tail : List Char}
    (ht : endsNumber tail = true) :
    readNumber (realChars x ++ tail) = some (.number (.real x), tail) := by
  obtain ⟨n, hs, hv, hread⟩ := readNumber_written (Shortest.numeral .even x).negative
    (scale_of_zero_digits .even hx) ht
  have hn : n.toFloat = x := by
    rw [Numeral.toFloat_congr hs hv, Shortest.numeral_toFloat .even hx]
  rw [realChars, if_pos hx, Layout.chars, Layout.numeralChars, List.append_assoc]
  exact hread.trans (by simp [realNumber, hn, hx])

theorem readNumber_integer {n : Int} (hlo : -0x8000000000000000 ≤ n)
    (hhi : n < 0x10000000000000000) {tail : List Char} (ht : endsNumber tail = true) :
    readNumber (intChars n ++ tail) = some (.number (.integer n), tail) := by
  have hw : Whole (Nat.toDigits 10 n.natAbs) := by
    refine ⟨fun c hc => Numeral.isDigit_of_mem_toDigits hc, Nat.toDigits_ne_nil, ?_⟩
    rcases Nat.eq_zero_or_pos n.natAbs with h | h
    · exact .inl (by simp [h])
    · exact .inr (Numeral.head?_toDigits_ne h)
  rw [intChars, List.append_assoc, readNumber_start hw (no_digit_of_endsNumber ht),
    no_endsWhole_of_endsNumber ht, if_neg (by decide), Numeral.digitsValue_toDigits]
  by_cases h : n < 0
  · have hn : -(n.natAbs : Int) = n := by omega
    have hm : n.natAbs ≠ 0 ∧ n.natAbs ≤ 0x8000000000000000 := by omega
    simp only [wholeNumber, h, decide_true, if_true, if_pos hm, hn]
  · have hn : (n.natAbs : Int) = n := by omega
    have hm : n.natAbs < 0x10000000000000000 := by omega
    simp only [wholeNumber, h, decide_false, Bool.false_eq_true, if_false, if_pos hm, hn]

end Rulebook.Json
