import Mathlib.Algebra.Group.Nat.Defs
import Rulebook.Instant.Text
import Rulebook.Proofs.Blank
import Rulebook.Proofs.Decimal.Digits
/-!
Instants read back. Every instant of the calendar is read back from its text, leap seconds and years
of more than four digits included, and every text that is read names an instant of the calendar.
-/

set_option autoImplicit false

namespace Rulebook.Instant

open Numeral (digitsValue)
open Text (isBlank trimStart trimStart_cons)

/-- An instant of the calendar. A leap second ends a minute. -/
structure Valid (t : Instant) : Prop where
  date : t.date.isValid = true
  second : t.second < secondsPerDay
  nanosecond : t.nanosecond < 2 * nanosecondsPerSecond
  leap : nanosecondsPerSecond ≤ t.nanosecond → t.second % 60 = 59

theorem isDigit_of_mem_padded {width n : Nat} {c : Char} (h : c ∈ padded width n) :
    c.isDigit = true := by
  rcases List.mem_append.1 h with h | h
  · exact Numeral.isDigit_of_mem_zeros h
  · exact Numeral.isDigit_of_mem_toDigits h

theorem digitsValue_padded (width n : Nat) : digitsValue (padded width n) = n :=
  (Numeral.digitsValue_zeros_append _ _).trans (Numeral.digitsValue_toDigits n)

theorem padded_ne_nil (width n : Nat) : padded width n ≠ [] := by
  simp [padded, Nat.toDigits_ne_nil]

theorem length_padded {width n : Nat} (hw : 0 < width) (hn : n < 10 ^ width) :
    (padded width n).length = width := by
  have h := (Nat.length_toDigits_le_iff (by decide) hw).2 hn
  simp [padded]
  omega

theorem not_blank_of_isDigit {c : Char} (h : c.isDigit = true) : isBlank c = false :=
  Text.not_blank_of_printed (Text.printed_of_isAlphanum (by simp [Char.isAlphanum, h]))

theorem trimStart_padded (width n : Nat) (tail : List Char) :
    trimStart (padded width n ++ tail) = padded width n ++ tail := by
  obtain ⟨c, cs, hc⟩ := List.exists_cons_of_ne_nil (padded_ne_nil width n)
  have hd : c.isDigit = true := isDigit_of_mem_padded (hc ▸ List.mem_cons_self)
  rw [hc]
  exact trimStart_cons (not_blank_of_isDigit hd)

theorem readCount_padded {most width n : Nat} (tail : List Char)
    (hl : (padded width n).length ≤ most)
    (hs : (padded width n).length = most ∨ tail.head?.any Char.isDigit = false) :
    readCount most (padded width n ++ tail) = some (n, tail) := by
  have hd : ∀ c ∈ padded width n, c.isDigit = true := fun _ => isDigit_of_mem_padded
  have hne := padded_ne_nil width n
  have hv := digitsValue_padded width n
  generalize padded width n = ds at hl hs hd hne hv
  have htail : (tail.take (most - ds.length)).takeWhile Char.isDigit = [] := by
    rcases hs with hs | hs
    · simp [hs]
    · cases tail with
      | nil => simp
      | cons c cs =>
        have hc : c.isDigit = false := hs
        cases most - ds.length <;> simp [hc]
  have htake : ((ds ++ tail).take most).takeWhile Char.isDigit = ds := by
    rw [List.take_append, List.take_of_length_le hl, List.takeWhile_append_of_pos hd, htail,
      List.append_nil]
  simp [readCount, htake, hne, hv]

theorem readPart_padded {n : Nat} (hn : n < 100) (tail : List Char) :
    readPart (padded 2 n ++ tail) = some (n, tail) := by
  have hl : (padded 2 n).length = 2 := length_padded (by decide) hn
  rw [readPart, trimStart_padded, readCount_padded tail (Nat.le_of_eq hl) (.inl hl)]

theorem readMark_cons {mark : Char} (h : isBlank mark = false) (cs : List Char) :
    readMark mark (mark :: cs) = some cs := by
  simp [readMark, trimStart_cons h]

theorem readYear_of_isDigit {c : Char} (h : c.isDigit = true) (cs : List Char) :
    readYear (c :: cs) = (readCount 4 (c :: cs)).map fun (n, rest) => ((n : Int), rest) := by
  rw [readYear, trimStart_cons (not_blank_of_isDigit h)]
  split
  · rename_i heq
    rw [(List.cons.inj heq).1] at h
    cases h
  · rename_i heq
    rw [(List.cons.inj heq).1] at h
    cases h
  · rfl

theorem readYear_yearChars (year : Int) (cs : List Char) :
    readYear (yearChars year ++ '-' :: cs) = some (year, '-' :: cs) := by
  have hlong : ∀ n, readCount (padded 4 n ++ '-' :: cs).length (padded 4 n ++ '-' :: cs) =
      some (n, '-' :: cs) := fun n =>
    readCount_padded _ (by simp) (.inr rfl)
  unfold yearChars
  split
  · rename_i h
    have hl : (padded 4 year.toNat).length = 4 := length_padded (by decide) (by omega)
    have hread := readCount_padded ('-' :: cs) (Nat.le_of_eq hl) (.inl hl)
    obtain ⟨d, ds, hd⟩ := List.exists_cons_of_ne_nil (padded_ne_nil 4 year.toNat)
    have hdigit : d.isDigit = true := isDigit_of_mem_padded (hd ▸ List.mem_cons_self)
    rw [hd] at hread ⊢
    rw [List.cons_append, readYear_of_isDigit hdigit, ← List.cons_append, hread]
    simp
    omega
  · rename_i h
    by_cases hn : year < 0
    · simp only [hn, if_true, List.cons_append]
      rw [readYear, trimStart_cons rfl]
      simp only [hlong, Option.map_some, Option.some.injEq, Prod.mk.injEq, and_true]
      omega
    · simp only [hn, if_false, List.cons_append]
      rw [readYear, trimStart_cons rfl]
      simp only [hlong, Option.map_some, Option.some.injEq, Prod.mk.injEq, and_true]
      omega

theorem readFraction_padded {width n : Nat} (hw : 0 < width) (hmost : width ≤ 9)
    (hn : n < 10 ^ width) :
    readFraction ('.' :: (padded width n ++ ['Z'])) = some (n * 10 ^ (9 - width), ['Z']) := by
  have hl := length_padded hw hn
  have hread : readCount 9 (padded width n ++ ['Z']) = some (n, ['Z']) :=
    readCount_padded ['Z'] (by omega) (.inr rfl)
  simp [readFraction, hread, hl]

theorem readFraction_fractionChars {n : Nat} (hn : n < nanosecondsPerSecond) :
    readFraction (fractionChars n ++ ['Z']) = some (n, ['Z']) := by
  simp only [nanosecondsPerSecond] at hn
  unfold fractionChars
  split
  · subst_vars; rfl
  split
  · have hread := readFraction_padded (show 0 < 3 by decide) (by decide)
      (show n / 1000000 < 10 ^ 3 by omega)
    rw [show n / 1000000 * 10 ^ (9 - 3) = n by omega] at hread
    exact hread
  split
  · have hread := readFraction_padded (show 0 < 6 by decide) (by decide)
      (show n / 1000 < 10 ^ 6 by omega)
    rw [show n / 1000 * 10 ^ (9 - 6) = n by omega] at hread
    exact hread
  · have hread := readFraction_padded (show 0 < 9 by decide) (by decide) hn
    rw [show n * 10 ^ (9 - 9) = n by omega] at hread
    exact hread

theorem day_lt_of_isValid {d : Date} (h : d.isValid = true) : d.month < 100 ∧ d.day < 100 := by
  have hmost : Date.daysInMonth d.year d.month ≤ 31 := by
    unfold Date.daysInMonth
    split <;> (try split) <;> omega
  simp only [Date.isValid, decide_eq_true_eq] at h
  omega

/-- What is read of a date and a time of day in universal time. The second sixty is the one before
it, a thousand million nanoseconds on. -/
theorem readChars?_parts {d : Date} {hour minute second nanosecond : Nat} (hd : d.isValid = true)
    (hh : hour ≤ 23) (hm : minute ≤ 59) (hs : second ≤ 60)
    (hn : nanosecond < nanosecondsPerSecond) :
    readChars? (yearChars d.year ++ '-' :: padded 2 d.month ++ '-' :: padded 2 d.day ++
      'T' :: padded 2 hour ++ ':' :: padded 2 minute ++ ':' :: padded 2 second ++
      fractionChars nanosecond ++ ['Z']) =
    some ⟨d, hour * 3600 + minute * 60 + (if second = 60 then 59 else second),
      if second = 60 then nanosecond + nanosecondsPerSecond else nanosecond⟩ := by
  obtain ⟨hmonth, hday⟩ := day_lt_of_isValid hd
  have hdash : isBlank '-' = false := rfl
  have hcolon : isBlank ':' = false := rfl
  have hoffset : readOffset (trimStart ['Z']) = some (0, []) := rfl
  have hlocal : ∀ s n, s < secondsPerDay → ofLocal d s n 0 = ⟨d, s, n⟩ := fun s n hlt => by
    simp only [ofLocal]
    rw [if_neg (by omega), if_neg (by omega), Int.sub_zero, Int.toNat_natCast]
  have hday' : hour * 3600 + minute * 60 + (if second = 60 then 59 else second) <
      secondsPerDay := by
    simp only [secondsPerDay]
    split <;> omega
  have hhour : hour < 100 := by omega
  have hminute : minute < 100 := by omega
  have hsecond : second < 100 := by omega
  unfold readChars?
  simp only [List.append_assoc, List.cons_append]
  refine Option.bind_eq_some_iff.2 ⟨_, readYear_yearChars d.year _, ?_⟩
  refine Option.bind_eq_some_iff.2 ⟨_, readMark_cons hdash _, ?_⟩
  refine Option.bind_eq_some_iff.2 ⟨_, readPart_padded hmonth _, ?_⟩
  refine Option.bind_eq_some_iff.2 ⟨_, readMark_cons hdash _, ?_⟩
  refine Option.bind_eq_some_iff.2 ⟨_, readPart_padded hday _, ?_⟩
  refine Option.bind_eq_some_iff.2 ⟨_, readPart_padded hhour _, ?_⟩
  refine Option.bind_eq_some_iff.2 ⟨_, readMark_cons hcolon _, ?_⟩
  refine Option.bind_eq_some_iff.2 ⟨_, readPart_padded hminute _, ?_⟩
  refine Option.bind_eq_some_iff.2 ⟨_, readMark_cons hcolon _, ?_⟩
  refine Option.bind_eq_some_iff.2 ⟨_, readPart_padded hsecond _, ?_⟩
  refine Option.bind_eq_some_iff.2 ⟨_, readFraction_fractionChars hn, ?_⟩
  refine Option.bind_eq_some_iff.2 ⟨_, hoffset, ?_⟩
  simp only [hlocal _ _ hday']
  simp [hd, hh, hm, hs, trimStart, secondsPerDay]

theorem read?_text {t : Instant} (h : t.Valid) : read? t.text = some t := by
  obtain ⟨date, second, nanosecond⟩ := t
  obtain ⟨hdate, hsecond, hnano, hleap⟩ := h
  simp only at hdate hsecond hnano hleap
  have hday : secondsPerDay = 86400 := rfl
  have hhour : second / 3600 ≤ 23 := by omega
  have hminute : second / 60 % 60 ≤ 59 := by omega
  rw [read?, text, String.toList_ofList, chars]
  by_cases hl : nanosecondsPerSecond ≤ nanosecond
  · have hsixty : second % 60 + 1 = 60 := by rw [hleap hl]
    have hread := readChars?_parts hdate hhour hminute (Nat.le_of_eq hsixty)
      (show nanosecond - nanosecondsPerSecond < nanosecondsPerSecond by omega)
    simp only [hsixty, if_true, Nat.sub_add_cancel hl] at hread
    simp only [hl, if_true, hsixty]
    rw [hread, show second / 3600 * 3600 + second / 60 % 60 * 60 + 59 = second by omega]
  · have hsixty : second % 60 ≠ 60 := by omega
    have hread := readChars?_parts hdate hhour hminute (show second % 60 ≤ 60 by omega)
      (show nanosecond < nanosecondsPerSecond by omega)
    simp only [hsixty, if_false] at hread
    simp only [hl, if_false, Nat.add_zero]
    rw [hread, show second / 3600 * 3600 + second / 60 % 60 * 60 + second % 60 = second by omega]

theorem readFraction_lt {cs rest : List Char} {n : Nat} (h : readFraction cs = some (n, rest)) :
    n < nanosecondsPerSecond := by
  unfold readFraction at h
  split at h
  · rename_i digits
    obtain ⟨⟨value, left⟩, hread, heq⟩ := Option.map_eq_some_iff.1 h
    obtain ⟨rfl, -⟩ := Prod.mk.inj heq
    simp only [readCount] at hread
    split at hread
    · cases hread
    · obtain ⟨rfl, rfl⟩ := Prod.mk.inj (Option.some.inj hread)
      have hdigit : ∀ c ∈ (digits.take 9).takeWhile Char.isDigit, c.isDigit = true :=
        List.all_eq_true.1 List.all_takeWhile
      have hlt := Numeral.digitsValue_lt hdigit
      have hmost : ((digits.take 9).takeWhile Char.isDigit).length ≤ 9 ∧
          ((digits.take 9).takeWhile Char.isDigit).length ≤ digits.length := by
        have hprefix := (List.takeWhile_prefix (l := digits.take 9) Char.isDigit).length_le
        rw [List.length_take] at hprefix
        omega
      generalize (digits.take 9).takeWhile Char.isDigit = ds at hlt hmost ⊢
      rw [List.length_drop, show digits.length - (digits.length - ds.length) = ds.length by omega]
      calc
        digitsValue ds * 10 ^ (9 - ds.length) < 10 ^ ds.length * 10 ^ (9 - ds.length) :=
          Nat.mul_lt_mul_of_pos_right hlt (Nat.pow_pos (by decide))
        _ = 10 ^ 9 := by rw [← Nat.pow_add, Nat.add_sub_cancel' hmost.1]
  · obtain ⟨rfl, -⟩ := Prod.mk.inj (Option.some.inj h)
    decide

theorem readOffset_minutes {cs rest : List Char} {offset : Int}
    (h : readOffset cs = some (offset, rest)) : offset % 60 = 0 := by
  unfold readOffset at h
  split at h
  · split at h
    · obtain ⟨rfl, -⟩ := Prod.mk.inj (Option.some.inj h)
      decide
    split at h
    · obtain ⟨rfl, -⟩ := Prod.mk.inj (Option.some.inj h)
      decide
    split at h
    · split at h
      · split at h
        · split at h
          · obtain ⟨rfl, -⟩ := Prod.mk.inj (Option.some.inj h)
            split <;> omega
          · cases h
        · cases h
      · cases h
    · cases h
  · cases h

theorem valid_ofLocal {date : Date} {second nanosecond : Nat} {offset : Int}
    (hdate : (ofLocal date second nanosecond offset).date.isValid = true)
    (hsecond : second < secondsPerDay) (hoffset : offset.natAbs < secondsPerDay)
    (hminutes : offset % 60 = 0) (hnano : nanosecond < 2 * nanosecondsPerSecond)
    (hleap : nanosecondsPerSecond ≤ nanosecond → second % 60 = 59) :
    (ofLocal date second nanosecond offset).Valid := by
  have hday : secondsPerDay = 86400 := rfl
  simp only [ofLocal] at hdate ⊢
  split at hdate <;> rename_i hbefore
  · rw [if_pos hbefore]
    exact ⟨hdate, by dsimp only; omega, hnano, fun h => by have := hleap h; dsimp only; omega⟩
  · rw [if_neg hbefore]
    split at hdate <;> rename_i hafter
    · rw [if_pos hafter]
      exact ⟨hdate, by dsimp only; omega, hnano, fun h => by have := hleap h; dsimp only; omega⟩
    · rw [if_neg hafter]
      exact ⟨hdate, by dsimp only; omega, hnano, fun h => by have := hleap h; dsimp only; omega⟩

theorem valid_of_readChars? {cs : List Char} {t : Instant} (h : readChars? cs = some t) :
    t.Valid := by
  obtain ⟨⟨year, _⟩, -, h⟩ := Option.bind_eq_some_iff.1 h
  obtain ⟨_, -, h⟩ := Option.bind_eq_some_iff.1 h
  obtain ⟨⟨month, _⟩, -, h⟩ := Option.bind_eq_some_iff.1 h
  obtain ⟨_, -, h⟩ := Option.bind_eq_some_iff.1 h
  obtain ⟨⟨day, _⟩, -, h⟩ := Option.bind_eq_some_iff.1 h
  dsimp only at h
  split at h
  · split at h
    · obtain ⟨_, -, h⟩ := Option.bind_eq_some_iff.1 h
      obtain ⟨⟨hour, _⟩, -, h⟩ := Option.bind_eq_some_iff.1 h
      obtain ⟨_, -, h⟩ := Option.bind_eq_some_iff.1 h
      obtain ⟨⟨minute, _⟩, -, h⟩ := Option.bind_eq_some_iff.1 h
      obtain ⟨_, -, h⟩ := Option.bind_eq_some_iff.1 h
      obtain ⟨⟨second, _⟩, -, h⟩ := Option.bind_eq_some_iff.1 h
      obtain ⟨⟨nanosecond, _⟩, hfraction, h⟩ := Option.bind_eq_some_iff.1 h
      obtain ⟨⟨offset, _⟩, hoffset, h⟩ := Option.bind_eq_some_iff.1 h
      have hminutes := readOffset_minutes hoffset
      have hlt := readFraction_lt hfraction
      obtain ⟨hranges, h⟩ := Option.ite_none_right_eq_some.1 h
      obtain ⟨hdate, h⟩ := Option.ite_none_right_eq_some.1 h
      obtain rfl := Option.some.inj h
      simp only [Bool.and_eq_true, decide_eq_true_eq] at hranges
      obtain ⟨⟨⟨⟨⟨-, hhour⟩, hminute⟩, hsecond⟩, hless⟩, -⟩ := hranges
      have hday : secondsPerDay = 86400 := rfl
      refine valid_ofLocal hdate ?_ hless hminutes ?_ ?_
      · split <;> omega
      · split <;> omega
      · split <;> omega
    · cases h
  · cases h

theorem valid_of_read? {s : String} {t : Instant} (h : read? s = some t) : t.Valid :=
  valid_of_readChars? h

end Rulebook.Instant
