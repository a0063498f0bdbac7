import Rulebook.Json.Basic
/-!
Reading JSON text. Each reader takes what it can from the front of the text and returns the rest.
The grammar is strict, and a part without a value is still read to its end (`Json.unusable`).
-/

set_option autoImplicit false

namespace Rulebook.Json

def isSpace (c : Char) : Bool := c = ' ' || c = '\n' || c = '\t' || c = '\r'

def skipSpace (cs : List Char) : List Char := cs.dropWhile isSpace

def hexDigit? (c : Char) : Option Nat :=
  let n := c.toNat
  if '0' ≤ c ∧ c ≤ '9' then some (n - '0'.toNat)
  else if 'a' ≤ c ∧ c ≤ 'f' then some (n - 'a'.toNat + 10)
  else if 'A' ≤ c ∧ c ≤ 'F' then some (n - 'A'.toNat + 10)
  else none

def hexUnit? (a b c d : Char) : Option Nat := do
  let a ← hexDigit? a
  let b ← hexDigit? b
  let c ← hexDigit? c
  let d ← hexDigit? d
  pure (((a * 16 + b) * 16 + c) * 16 + d)

def isHighHalf (u : Nat) : Bool := 0xD800 ≤ u && u ≤ 0xDBFF

def isLowHalf (u : Nat) : Bool := 0xDC00 ≤ u && u ≤ 0xDFFF

def joinHalves (high low : Nat) : Char :=
  Char.ofNat (0x10000 + (high - 0xD800) * 0x400 + (low - 0xDC00))

def namedEscape? : Char → Option Char
  | '"' => some '"'
  | '\\' => some '\\'
  | '/' => some '/'
  | 'b' => some '\x08'
  | 'f' => some '\x0c'
  | 'n' => some '\n'
  | 'r' => some '\r'
  | 't' => some '\t'
  | _ => none

inductive TextUnit where
  | whole (c : Char)
  | half (u : Nat)
  deriving DecidableEq, Repr

def TextUnit.ofUnit (u : Nat) : TextUnit :=
  if isHighHalf u || isLowHalf u then .half u else .whole (Char.ofNat u)

def readUnits : List Char → Option (List TextUnit × List Char)
  | [] => none
  | '"' :: rest => some ([], rest)
  | '\\' :: 'u' :: a :: b :: c :: d :: rest =>
    match hexUnit? a b c d with
    | none => none
    | some u => (readUnits rest).map fun (us, rest) => (.ofUnit u :: us, rest)
  | '\\' :: c :: rest =>
    match namedEscape? c with
    | none => none
    | some e => (readUnits rest).map fun (us, rest) => (.whole e :: us, rest)
  | c :: rest =>
    if c.toNat < 0x20 then none
    else (readUnits rest).map fun (us, rest) => (.whole c :: us, rest)

def joinUnits? : List TextUnit → Option (List Char)
  | [] => some []
  | .whole c :: us => (joinUnits? us).map (c :: ·)
  | .half h :: .half l :: us =>
    if isHighHalf h && isLowHalf l then (joinUnits? us).map (joinHalves h l :: ·) else none
  | .half _ :: _ => none

/-- A quoted text from behind the opening quote; no text if a half is alone. -/
def readText (cs : List Char) : Option (Option String × List Char) :=
  (readUnits cs).map fun (us, rest) => ((joinUnits? us).map String.ofList, rest)

def realNumber (n : Numeral) : Json :=
  let x := n.toFloat
  if x.isFinite then .number (.real x) else .unusable

/-- A whole number keeps its kind if it fits 64 bits; minus zero does not. -/
def wholeNumber (negative : Bool) (n : Nat) : Json :=
  if negative then
    if n ≠ 0 ∧ n ≤ 0x8000000000000000 then .number (.integer (-n)) else realNumber ⟨true, n, 0⟩
  else if n < 0x10000000000000000 then .number (.integer n)
  else realNumber ⟨false, n, 0⟩

def readMinus : List Char → Bool × List Char
  | '-' :: cs => (true, cs)
  | cs => (false, cs)

def readFraction : List Char → Option (List Char × List Char)
  | '.' :: cs =>
    match Numeral.readDigits cs with
    | ([], _) => none
    | read => some read
  | cs => some ([], cs)

def endsWhole (c : Char) : Bool := c = '.' || c = 'e' || c = 'E'

def readNumber (cs : List Char) : Option (Json × List Char) :=
  let (negative, cs) := readMinus cs
  let (whole, cs) := Numeral.readDigits cs
  if whole.isEmpty || (whole.length != 1 && whole.head? == some '0') then none
  else if cs.head?.any endsWhole then
    match readFraction cs with
    | none => none
    | some (fraction, cs) =>
      (Numeral.readExponent cs).map fun (exponent, rest) =>
        (realNumber (Numeral.ofParts negative whole fraction exponent), rest)
  else some (wholeNumber negative (Numeral.digitsValue whole), cs)

/-- `room` is the number of containers that may still be opened. -/
def container (room : Nat) (j : Json) : Json := if room = 0 then .unusable else j

mutual

def readValue : Nat → Nat → List Char → Option (Json × List Char)
  | 0, _, _ => none
  | fuel + 1, room, cs =>
    match skipSpace cs with
    | 'n' :: 'u' :: 'l' :: 'l' :: rest => some (.null, rest)
    | 't' :: 'r' :: 'u' :: 'e' :: rest => some (.bool true, rest)
    | 'f' :: 'a' :: 'l' :: 's' :: 'e' :: rest => some (.bool false, rest)
    | '"' :: cs =>
      (readText cs).map fun (read, rest) =>
        (match read with
          | some s => .text s
          | none => .unusable, rest)
    | '[' :: cs =>
      match skipSpace cs with
      | ']' :: rest => some (container room (.list []), rest)
      | cs => (readItems fuel (room - 1) cs).map fun (items, rest) =>
          (container room (.list items), rest)
    | '{' :: cs =>
      match skipSpace cs with
      | '}' :: rest => some (container room (.fields []), rest)
      | cs => (readFields fuel (room - 1) cs).map fun (entries, rest) =>
          (match entries with
            | some entries => container room (.fields entries)
            | none => .unusable, rest)
    | cs => readNumber cs

def readItems : Nat → Nat → List Char → Option (List Json × List Char)
  | 0, _, _ => none
  | fuel + 1, room, cs =>
    match readValue fuel room cs with
    | none => none
    | some (item, cs) =>
      match skipSpace cs with
      | ',' :: cs => (readItems fuel room cs).map fun (items, rest) => (item :: items, rest)
      | ']' :: rest => some ([item], rest)
      | _ => none

/-- Fields up to the closing brace, at least one; `none` for entries whose key has no value. -/
def readFields : Nat → Nat → List Char → Option (Option (List (String × Json)) × List Char)
  | 0, _, _ => none
  | fuel + 1, room, cs =>
    match skipSpace cs with
    | '"' :: cs =>
      match readText cs with
      | none => none
      | some (key, cs) =>
        match skipSpace cs with
        | ':' :: cs =>
          match readValue fuel room cs with
          | none => none
          | some (item, cs) =>
            let entry : Option (String × Json) := key.map (·, item)
            match skipSpace cs with
            | ',' :: cs =>
              (readFields fuel room cs).map fun (entries, rest) =>
                (do pure ((← entry) :: (← entries)), rest)
            | '}' :: rest => some (entry.map ([·]), rest)
            | _ => none
        | _ => none
    | _ => none

end

def depthLimit : Nat := 127

def read? (s : String) : Option Json :=
  let cs := s.toList
  match readValue (2 * cs.length + 2) depthLimit cs with
  | some (j, rest) => if rest.all isSpace then some j else none
  | none => none

def readValue? (s : String) : Option Json := (read? s).bind value?

end Rulebook.Json
