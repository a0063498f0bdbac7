import Rulebook.Instant.Basic
import Rulebook.Decimal.Numeral
import Rulebook.Text.Blank
/-!
Instants as text, `2024-01-31T08:30:00.250Z`. Writing uses universal time and the shortest of no,
three, six or nine places that loses nothing; reading takes any offset, blanks between the parts
and parts without leading zeros.
-/

set_option autoImplicit false

namespace Rulebook.Instant

open Text (isBlank trimStart)

def padded (width n : Nat) : List Char :=
  let ds := Nat.toDigits 10 n
  List.replicate (width - ds.length) '0' ++ ds

/-- Years of four digits stand without a sign, all others with one. -/
def yearChars (year : Int) : List Char :=
  if 0 ≤ year ∧ year ≤ 9999 then padded 4 year.toNat
  else (if year < 0 then '-' else '+') :: padded 4 year.natAbs

def fractionChars (nanosecond : Nat) : List Char :=
  if nanosecond = 0 then []
  else if nanosecond % 1000000 = 0 then '.' :: padded 3 (nanosecond / 1000000)
  else if nanosecond % 1000 = 0 then '.' :: padded 6 (nanosecond / 1000)
  else '.' :: padded 9 nanosecond

def nanosecondsPerSecond : Nat := 1000000000

def chars (t : Instant) : List Char :=
  let leap := nanosecondsPerSecond ≤ t.nanosecond
  let second := t.second % 60 + (if leap then 1 else 0)
  let nanosecond := if leap then t.nanosecond - nanosecondsPerSecond else t.nanosecond
  yearChars t.date.year ++ '-' :: padded 2 t.date.month ++ '-' :: padded 2 t.date.day ++
    'T' :: padded 2 (t.second / 3600) ++ ':' :: padded 2 (t.second / 60 % 60) ++
    ':' :: padded 2 second ++ fractionChars nanosecond ++ ['Z']

def text (t : Instant) : String := String.ofList t.chars

def readCount (most : Nat) (cs : List Char) : Option (Nat × List Char) :=
  let ds := (cs.take most).takeWhile Char.isDigit
  if ds.isEmpty then none else some (Numeral.digitsValue ds, cs.drop ds.length)

def readPart (cs : List Char) : Option (Nat × List Char) := readCount 2 (trimStart cs)

def readYear (cs : List Char) : Option (Int × List Char) :=
  match trimStart cs with
  | '-' :: cs => (readCount cs.length cs).map fun (n, rest) => (-(n : Int), rest)
  | '+' :: cs => (readCount cs.length cs).map fun (n, rest) => ((n : Int), rest)
  | cs => (readCount 4 cs).map fun (n, rest) => ((n : Int), rest)

def readMark (mark : Char) (cs : List Char) : Option (List Char) :=
  match trimStart cs with
  | c :: rest => if c = mark then some rest else none
  | [] => none

/-- Digits beyond the ninth are passed over. -/
def readFraction : List Char → Option (Nat × List Char)
  | '.' :: cs =>
    (readCount 9 cs).map fun (n, rest) =>
      (n * Nat.pow 10 (9 - (cs.length - rest.length)), rest.dropWhile Char.isDigit)
  | cs => some (0, cs)

def readOffset : List Char → Option (Int × List Char)
  | c :: cs =>
    if c = 'Z' ∨ c = 'z' then some (0, cs)
    else if ((c :: cs).take 3).map Char.toUpper = ['U', 'T', 'C'] then some (0, cs.drop 2)
    else if c = '+' ∨ c = '-' ∨ c = '\u2212' then
      match cs with
      | h₁ :: h₂ :: cs =>
        match cs.dropWhile fun c => c = ':' || isBlank c with
        | m₁ :: m₂ :: rest =>
          if [h₁, h₂, m₁, m₂].all Char.isDigit && m₁ ≤ '5' then
            let seconds : Int :=
              Numeral.digitsValue [h₁, h₂] * 3600 + Numeral.digitsValue [m₁, m₂] * 60
            some (if c = '+' then seconds else -seconds, rest)
          else none
        | _ => none
      | _ => none
    else none
  | [] => none

def readChars? (cs : List Char) : Option Instant := do
  let (year, cs) ← readYear cs
  let cs ← readMark '-' cs
  let (month, cs) ← readPart cs
  let cs ← readMark '-' cs
  let (day, cs) ← readPart cs
  let cs ← match cs with
    | c :: cs => if c = 'T' ∨ c = 't' ∨ c = ' ' then some cs else none
    | [] => none
  let (hour, cs) ← readPart cs
  let cs ← readMark ':' cs
  let (minute, cs) ← readPart cs
  let cs ← readMark ':' cs
  let (second, cs) ← readPart cs
  let (nanosecond, cs) ← readFraction cs
  let (offset, cs) ← readOffset (trimStart cs)
  let date : Date := ⟨year, month, day⟩
  if date.isValid && hour ≤ 23 && minute ≤ 59 && second ≤ 60 && offset.natAbs < secondsPerDay &&
      (trimStart cs).isEmpty then
    let leap := second = 60
    let t := ofLocal date (hour * 3600 + minute * 60 + (if leap then 59 else second))
      (if leap then nanosecond + nanosecondsPerSecond else nanosecond) offset
    if t.date.isValid then some t else none
  else none

def read? (s : String) : Option Instant := readChars? s.toList

end Rulebook.Instant
