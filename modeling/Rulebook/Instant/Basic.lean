/-!
Instants in universal time, by the calendar: a date, a second of the day and nanoseconds. A leap
second is the second before it with a nanosecond count beyond one thousand million.
-/

set_option autoImplicit false

namespace Rulebook

structure Date where
  year : Int
  month : Nat
  day : Nat
  deriving DecidableEq, Repr

namespace Date

def isLeapYear (year : Int) : Bool := year % 4 == 0 && (year % 100 != 0 || year % 400 == 0)

def daysInMonth (year : Int) : Nat → Nat
  | 2 => if isLeapYear year then 29 else 28
  | 4 | 6 | 9 | 11 => 30
  | _ => 31

def earliestYear : Int := -262143

def latestYear : Int := 262142

def isValid (d : Date) : Bool :=
  decide (earliestYear ≤ d.year ∧ d.year ≤ latestYear ∧ 1 ≤ d.month ∧ d.month ≤ 12 ∧ 1 ≤ d.day ∧
    d.day ≤ daysInMonth d.year d.month)

def next (d : Date) : Date :=
  if d.day < daysInMonth d.year d.month then ⟨d.year, d.month, d.day + 1⟩
  else if d.month < 12 then ⟨d.year, d.month + 1, 1⟩
  else ⟨d.year + 1, 1, 1⟩

def previous (d : Date) : Date :=
  if 1 < d.day then ⟨d.year, d.month, d.day - 1⟩
  else if 1 < d.month then ⟨d.year, d.month - 1, daysInMonth d.year (d.month - 1)⟩
  else ⟨d.year - 1, 12, 31⟩

end Date

structure Instant where
  date : Date
  second : Nat
  nanosecond : Nat
  deriving DecidableEq, Repr

namespace Instant

def secondsPerDay : Nat := 86400

def compare (s t : Instant) : Ordering := compareLex (compareOn (·.date.year))
  (compareLex (compareOn (·.date.month)) (compareLex (compareOn (·.date.day))
    (compareLex (compareOn (·.second)) (compareOn (·.nanosecond))))) s t

instance : Ord Instant := ⟨compare⟩

/-- Local time at an offset of `offset` seconds, which is less than a day, in universal time. -/
def ofLocal (date : Date) (second nanosecond : Nat) (offset : Int) : Instant :=
  let s : Int := second - offset
  if s < 0 then ⟨date.previous, (s + secondsPerDay).toNat, nanosecond⟩
  else if secondsPerDay ≤ s then ⟨date.next, (s - secondsPerDay).toNat, nanosecond⟩
  else ⟨date, s.toNat, nanosecond⟩

def min (s t : Instant) : Instant := if compare t s = .lt then t else s

def max (s t : Instant) : Instant := if compare s t = .lt then t else s

def epoch : Instant := ⟨⟨1970, 1, 1⟩, 0, 0⟩

def sinceEpoch (nanoseconds : Nat) : Instant :=
  let seconds := nanoseconds / 1000000000
  ⟨Nat.repeat Date.next (seconds / secondsPerDay) epoch.date, seconds % secondsPerDay,
    nanoseconds % 1000000000⟩

end Instant

end Rulebook
