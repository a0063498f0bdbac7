import Rulebook.Decimal.Numeral
/-!
Dates and times of TOML: a date, a time of day, or both with or without an offset. They are settings
as texts, in one way of writing: a capital `T`, no needless zeros in a fraction.
-/

set_option autoImplicit false

namespace Rulebook.Toml

def readField (width low high : Nat) (cs : List Char) : Option (List Char × List Char) :=
  let (ds, rest) := Numeral.readDigits cs
  let n := Numeral.digitsValue ds
  if ds.length = width ∧ low ≤ n ∧ n ≤ high then some (ds, rest) else none

def expect (c : Char) : List Char → Option (List Char)
  | d :: cs => if d = c then some cs else none
  | [] => none

def isLeapYear (y : Nat) : Bool := (y % 4 = 0 && y % 100 != 0) || y % 400 = 0

def daysIn (year month : Nat) : Nat :=
  if month = 2 then if isLeapYear year then 29 else 28
  else if month = 4 ∨ month = 6 ∨ month = 9 ∨ month = 11 then 30
  else 31

def readDate (cs : List Char) : Option (List Char × List Char) := do
  let (year, cs) ← readField 4 0 9999 cs
  let (month, cs) ← readField 2 1 12 (← expect '-' cs)
  let days := daysIn (Numeral.digitsValue year) (Numeral.digitsValue month)
  let (day, cs) ← readField 2 1 days (← expect '-' cs)
  pure (year ++ '-' :: month ++ '-' :: day, cs)

/-- Nine places count, and zeros at their end do not. -/
def fractionText (ds : List Char) : List Char :=
  match ((ds.take 9).reverse.dropWhile (· = '0')).reverse with
  | [] => ['.', '0']
  | ds => '.' :: ds

def readFraction (cs : List Char) : Option (List Char × List Char) :=
  match cs with
  | '.' :: cs =>
    match Numeral.readDigits cs with
    | ([], _) => none
    | (ds, rest) => some (fractionText ds, rest)
  | cs => some ([], cs)

def readTime (cs : List Char) : Option (List Char × List Char) := do
  let (hour, cs) ← readField 2 0 23 cs
  let (minute, cs) ← readField 2 0 59 (← expect ':' cs)
  match cs with
  | ':' :: cs => do
    let (second, cs) ← readField 2 0 60 cs
    let (fraction, cs) ← readFraction cs
    pure (hour ++ ':' :: minute ++ ':' :: second ++ fraction, cs)
  | cs => pure (hour ++ ':' :: minute, cs)

def offset? : List Char → Option (List Char)
  | [] => some []
  | ['Z'] => some ['Z']
  | ['z'] => some ['Z']
  | c :: cs => do
    if c != '+' && c != '-' then none
    else
      let (hours, cs) ← readField 2 0 23 cs
      let (minutes, cs) ← readField 2 0 59 (← expect ':' cs)
      let sign := if Numeral.digitsValue (hours ++ minutes) = 0 then '+' else c
      if cs.isEmpty then some (sign :: hours ++ ':' :: minutes) else none

def time? (cs : List Char) : Option (List Char) :=
  match cs.dropWhile Char.isDigit with
  | ':' :: _ => do
    let (time, cs) ← readTime cs
    if cs.isEmpty then some time else none
  | _ => do
    let (date, cs) ← readDate cs
    match cs with
    | [] => some date
    | c :: cs =>
      if c != 'T' && c != 't' && c != ' ' then none
      else do
        let (time, cs) ← readTime cs
        pure (date ++ 'T' :: time ++ (← offset? cs))

def startsTime (cs : List Char) : Bool :=
  match Numeral.readDigits cs with
  | (_ :: _, '-' :: _) => true
  | (_ :: _, ':' :: _) => true
  | _ => false

end Rulebook.Toml
