import Rulebook.Settings.Toml.Tables
import Rulebook.Settings.Toml.Quoted
import Rulebook.Settings.Toml.Time
import Rulebook.Settings.Key
/-!
Reading settings from TOML. Each reader takes what it can from the front of the text and returns the
rest.
-/

set_option autoImplicit false

namespace Rulebook.Toml

def skipSpace (cs : List Char) : List Char := cs.dropWhile isSpace

def skipComment : List Char → List Char
  | '#' :: cs => cs.dropWhile fun c => !isControl c
  | cs => cs

/-- What may stand behind the last thing in a line: space, a comment and the line end. -/
def endLine? (cs : List Char) : Option (List Char) :=
  match skipComment (skipSpace cs) with
  | [] => some []
  | '\n' :: cs => some cs
  | '\r' :: '\n' :: cs => some cs
  | _ => none

def skipLines : Nat → List Char → List Char
  | 0, cs => cs
  | fuel + 1, cs =>
    match skipComment (skipSpace cs) with
    | '\n' :: cs => skipLines fuel cs
    | '\r' :: '\n' :: cs => skipLines fuel cs
    | cs => cs

def readName (cs : List Char) : Option (String × List Char) :=
  match readQuoted cs with
  | some (name, rest) => some (String.ofList name, rest)
  | none => Key.readName cs

def readNames : Nat → List Char → Option (List String × List Char)
  | 0, _ => none
  | fuel + 1, cs => do
    let (name, cs) ← readName (skipSpace cs)
    match skipSpace cs with
    | '.' :: cs => do
      let (names, rest) ← readNames fuel cs
      pure (name :: names, rest)
    | cs => pure ([name], cs)

/-- The most names of a key, and the most brackets that may be open at once. -/
def depthLimit : Nat := 80

def readKey (cs : List Char) : Option (List String × List Char) :=
  (readNames (cs.length + 1) cs).filter fun (names, _) => names.length ≤ depthLimit

def ungroup? (isDigit : Char → Bool) : List Char → Option (List Char)
  | [] => none
  | [c] => if isDigit c then some [c] else none
  | c :: '_' :: cs => if isDigit c then (ungroup? isDigit cs).map (c :: ·) else none
  | c :: cs => if isDigit c then (ungroup? isDigit cs).map (c :: ·) else none

def digitsInBase (base : Nat) (cs : List Char) : Nat :=
  cs.foldl (fun n c => base * n + (Json.hexDigit? c).getD 0) 0

def integer? (n : Int) : Option Setting :=
  if Setting.isWord n then some (.integer n) else none

def wholeDigits? (cs : List Char) : Option (List Char) :=
  (ungroup? Char.isDigit cs).filter fun ds => ds.length == 1 || ds.head? != some '0'

def isExponentMark (c : Char) : Bool := c = 'e' || c = 'E'

def real? (negative : Bool) (cs : List Char) : Option Setting := do
  let isMantissa (c : Char) : Bool := !isExponentMark c
  let mantissa := cs.takeWhile isMantissa
  let whole ← wholeDigits? (mantissa.takeWhile (· != '.'))
  let fraction ← match mantissa.dropWhile (· != '.') with
    | [] => some []
    | _ :: ds => ungroup? Char.isDigit ds
  let exponent : Int ← match cs.dropWhile isMantissa with
    | [] => some 0
    | _ :: cs => do
      let (negative, cs) := Numeral.readSign cs
      let n : Int := Numeral.digitsValue (← ungroup? Char.isDigit cs)
      some (if negative then -n else n)
  let x := (Numeral.ofParts negative whole fraction exponent).toFloat
  if x.isFinite then some (.real x) else none

def inBase? (base : Nat) (isDigit : Char → Bool) (cs : List Char) : Option Setting := do
  integer? (digitsInBase base (← ungroup? isDigit cs))

def number? (cs : List Char) : Option Setting :=
  let (negative, ds) := Numeral.readSign cs
  match cs, ds with
  | '0' :: 'x' :: ds, _ => inBase? 16 (fun c => (Json.hexDigit? c).isSome) ds
  | '0' :: 'o' :: ds, _ => inBase? 8 (fun c => c.isDigit && c < '8') ds
  | '0' :: 'b' :: ds, _ => inBase? 2 (fun c => c = '0' || c = '1') ds
  | _, ['i', 'n', 'f'] => some (.real (Binary64.ofMagnitude negative Binary64.infinityBits))
  | _, ['n', 'a', 'n'] => (Binary64.ofText? "nan").map .real
  | _, ds =>
    if ds.any fun c => c = '.' || isExponentMark c then real? negative ds
    else do
      let n : Int := Numeral.digitsValue (← wholeDigits? ds)
      integer? (if negative then -n else n)

def word? (cs : List Char) : Option Setting :=
  if cs = "true".toList then some (.bool true)
  else if cs = "false".toList then some (.bool false)
  else if startsTime cs then (time? cs).map fun cs => .text (String.ofList cs)
  else number? cs

def isWordChar (c : Char) : Bool := Key.isNameChar c || c = '+' || c = '.' || c = ':'

/-- A word, or a date and a time with a space between them. -/
def readWord (cs : List Char) : List Char × List Char :=
  let (word, rest) := (cs.takeWhile isWordChar, cs.dropWhile isWordChar)
  match (readDate word).map (·.2), rest with
  | some [], ' ' :: c :: rest =>
    if c.isDigit then
      (word ++ ' ' :: (c :: rest).takeWhile isWordChar, (c :: rest).dropWhile isWordChar)
    else (word, ' ' :: c :: rest)
  | _, rest => (word, rest)

mutual

/-- `room` is the number of brackets that may still be opened. -/
def readValue : Nat → Nat → List Char → Option (Setting × List Char)
  | 0, _, _ => none
  | fuel + 1, room, cs =>
    match cs, room with
    | '[' :: _, 0 => none
    | '{' :: _, 0 => none
    | '[' :: cs, room + 1 => (readItems fuel room cs).map fun (items, rest) => (.list items, rest)
    | '{' :: cs, room + 1 => do
      let (fields, rest) ← readFields fuel room cs
      pure (← inlineTable? fields, rest)
    | c :: cs, _ =>
      if c = '"' ∨ c = '\'' then
        (readText (c :: cs)).map fun (cs, rest) => (.text (String.ofList cs), rest)
      else
        let (word, rest) := readWord (c :: cs)
        (word? word).map (·, rest)
    | [], _ => none

def readItems : Nat → Nat → List Char → Option (List Setting × List Char)
  | 0, _, _ => none
  | fuel + 1, room, cs =>
    match skipLines fuel cs with
    | ']' :: rest => some ([], rest)
    | cs => do
      let (item, cs) ← readValue fuel room cs
      match skipLines fuel cs with
      | ',' :: cs => do
        let (items, rest) ← readItems fuel room cs
        pure (item :: items, rest)
      | ']' :: rest => pure ([item], rest)
      | _ => none

def readFields : Nat → Nat → List Char → Option (List (List String × Setting) × List Char)
  | 0, _, _ => none
  | fuel + 1, room, cs =>
    match skipLines fuel cs with
    | '}' :: rest => some ([], rest)
    | cs => do
      let (names, cs) ← readKey cs
      let (s, cs) ← readValue fuel room (skipSpace (← expect '=' cs))
      match skipLines fuel cs with
      | ',' :: cs => do
        let (fields, rest) ← readFields fuel room cs
        pure ((names, s) :: fields, rest)
      | '}' :: rest => pure ([(names, s)], rest)
      | _ => none

end

/-- One line that is neither blank nor a comment: a header, which later keys stand under, or a key
with its value. -/
def readLine (fuel : Nat) (header : List String) (es : Items) (cs : List Char) :
    Option (List String × Items × List Char) :=
  match cs with
  | '[' :: '[' :: cs => do
    let (names, cs) ← readKey cs
    let rest ← endLine? (← expect ']' (← expect ']' cs))
    pure (names, ← openTable declareNext names es, rest)
  | '[' :: cs => do
    let (names, cs) ← readKey cs
    let rest ← endLine? (← expect ']' cs)
    pure (names, ← openTable declare names es, rest)
  | cs => do
    let (names, cs) ← readKey cs
    let (s, cs) ← readValue fuel depthLimit (skipSpace (← expect '=' cs))
    let rest ← endLine? cs
    pure (header, ← within (assign s names) header es, rest)

def readLines : Nat → List String → Items → List Char → Option Items
  | 0, _, _, _ => none
  | fuel + 1, header, es, cs =>
    match skipSpace cs with
    | [] => some es
    | cs =>
      match endLine? cs with
      | some rest => readLines fuel header es rest
      | none => do
        let (header, es, rest) ← readLine fuel header es cs
        readLines fuel header es rest

def dropMark : List Char → List Char
  | '\uFEFF' :: cs => cs
  | cs => cs

def read? (s : String) : Option (List (String × Setting)) :=
  let cs := dropMark s.toList
  (readLines (cs.length + 2) [] [] cs).map settings

end Rulebook.Toml
