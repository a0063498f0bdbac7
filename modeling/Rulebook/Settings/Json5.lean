import Rulebook.Settings.Setting
import Rulebook.Json.Reader
import Rulebook.Text.Alphanumeric
import Rulebook.Text.Blank
/-!
Reading settings from JSON5: documents with comments, names without quotes, quotes of either kind,
commas at the end, and more ways to write numbers.
-/

set_option autoImplicit false

namespace Rulebook.Json5

def isLineEnd (c : Char) : Bool := c = '\n' || c = '\r' || c = '\u2028' || c = '\u2029'

def isSpace (c : Char) : Bool := (Text.isBlank c && c != '\u0085') || c = '\uFEFF'

def closeComment : List Char → Option (List Char)
  | '*' :: '/' :: cs => some cs
  | _ :: cs => closeComment cs
  | [] => none

def skipSpace : Nat → List Char → List Char
  | 0, cs => cs
  | fuel + 1, cs =>
    match cs.dropWhile isSpace with
    | '/' :: '/' :: cs => skipSpace fuel (cs.dropWhile fun c => !isLineEnd c)
    | '/' :: '*' :: cs =>
      match closeComment cs with
      | some cs => skipSpace fuel cs
      | none => '/' :: '*' :: cs
    | cs => cs

def namedEscape? (c : Char) : Option Char :=
  match c with
  | 'b' => some '\x08'
  | 'f' => some '\x0c'
  | 'n' => some '\n'
  | 'r' => some '\r'
  | 't' => some '\t'
  | 'v' => some '\x0b'
  | '0' => some '\x00'
  | c => if c.isDigit || c = 'x' || c = 'u' then none else some c

def readUnits (quote : Char) : List Char → Option (List Json.TextUnit × List Char)
  | [] => none
  | '\\' :: 'u' :: a :: b :: c :: d :: rest => do
    let u ← Json.hexUnit? a b c d
    let (us, rest) ← readUnits quote rest
    pure (.ofUnit u :: us, rest)
  | '\\' :: 'x' :: a :: b :: rest => do
    let u ← Json.hexUnit? '0' '0' a b
    let (us, rest) ← readUnits quote rest
    pure (.ofUnit u :: us, rest)
  | '\\' :: '\r' :: '\n' :: rest => readUnits quote rest
  | '\\' :: c :: rest =>
    if isLineEnd c then readUnits quote rest
    else do
      let e ← namedEscape? c
      let (us, rest) ← readUnits quote rest
      pure (.whole e :: us, rest)
  | c :: rest =>
    if c = quote then some ([], rest)
    else if c = '\n' || c = '\r' || c = '\\' then none
    else do
      let (us, rest) ← readUnits quote rest
      pure (.whole c :: us, rest)

def readText (quote : Char) (cs : List Char) : Option (String × List Char) := do
  let (us, rest) ← readUnits quote cs
  pure (String.ofList (← Json.joinUnits? us), rest)

def startsName (c : Char) : Bool :=
  (Text.isAlphanumeric c && !c.isDigit) || c = '$' || c = '_'

def isNameChar (c : Char) : Bool :=
  Text.isAlphanumeric c || c = '$' || c = '_' || c = '\u200C' || c = '\u200D'

def readName (cs : List Char) : Option (String × List Char) :=
  match cs with
  | [] => none
  | c :: cs =>
    if c = '"' ∨ c = '\'' then readText c cs
    else if startsName c then
      some (String.ofList (c :: cs.takeWhile isNameChar), cs.dropWhile isNameChar)
    else none

def readHexadecimal (cs : List Char) : Option (Setting × List Char) :=
  let isDigit (c : Char) : Bool := (Json.hexDigit? c).isSome
  let n := (cs.takeWhile isDigit).foldl (fun n c => 16 * n + (Json.hexDigit? c).getD 0) 0
  if (cs.takeWhile isDigit).isEmpty || 0x100000000 ≤ n then none
  else some (.integer n, cs.dropWhile isDigit)

/-- Digits with an optional point on either side of them, and an optional exponent. Without both it
is an integer of 64 bits. -/
def readDecimal (negative : Bool) (cs : List Char) : Option (Setting × List Char) := do
  let (whole, cs) := Numeral.readDigits cs
  if whole.length ≠ 1 ∧ whole.head? = some '0' then none
  else
    let (pointed, fraction, cs) := match cs with
      | '.' :: cs => (true, Numeral.readDigits cs)
      | cs => (false, [], cs)
    let (exponent, rest) ← Numeral.readExponent cs
    let n : Int := Numeral.digitsValue whole
    let n := if negative then -n else n
    if whole.isEmpty && fraction.isEmpty then none
    else if pointed || rest.length < cs.length then
      let x := (Numeral.ofParts negative whole fraction exponent).toFloat
      if x.isFinite then some (.real x, rest) else none
    else if Setting.isWord n then some (.integer n, rest)
    else none

def readWord (word : String) (cs : List Char) : Option (List Char) :=
  if word.toList.isPrefixOf cs then some (cs.drop word.length) else none

/-- Only decimal numbers take a plus, and only they and the words take a minus. -/
def readNumber (cs : List Char) : Option (Setting × List Char) :=
  let (negative, ds) := Numeral.readSign cs
  match readWord "Infinity" ds, readWord "NaN" ds with
  | some rest, _ =>
    if cs.head? = some '+' then none
    else some (.real (Binary64.ofMagnitude negative Binary64.infinityBits), rest)
  | _, some rest =>
    if cs.head? = some '+' then none
    else (Binary64.ofText? "nan").map fun x => (.real x, rest)
  | none, none =>
    match cs with
    | '0' :: 'x' :: cs => readHexadecimal cs
    | '0' :: 'X' :: cs => readHexadecimal cs
    | _ => readDecimal negative ds

mutual

def readValue : Nat → List Char → Option (Setting × List Char)
  | 0, _ => none
  | fuel + 1, cs =>
    match skipSpace fuel cs with
    | 'n' :: 'u' :: 'l' :: 'l' :: rest => some (.null, rest)
    | 't' :: 'r' :: 'u' :: 'e' :: rest => some (.bool true, rest)
    | 'f' :: 'a' :: 'l' :: 's' :: 'e' :: rest => some (.bool false, rest)
    | '"' :: cs => (readText '"' cs).map fun (s, rest) => (.text s, rest)
    | '\'' :: cs => (readText '\'' cs).map fun (s, rest) => (.text s, rest)
    | '[' :: cs => (readItems fuel cs).map fun (items, rest) => (.list items, rest)
    | '{' :: cs => (readFields fuel [] cs).map fun (es, rest) => (.table es, rest)
    | cs => readNumber cs

def readItems : Nat → List Char → Option (List Setting × List Char)
  | 0, _ => none
  | fuel + 1, cs =>
    match skipSpace fuel cs with
    | ']' :: rest => some ([], rest)
    | cs => do
      let (item, cs) ← readValue fuel cs
      match skipSpace fuel cs with
      | ',' :: cs => do
        let (items, rest) ← readItems fuel cs
        pure (item :: items, rest)
      | ']' :: rest => pure ([item], rest)
      | _ => none

/-- Fields up to the closing brace. A comma may follow the last one, and of equal names the last
counts. -/
def readFields : Nat → List (String × Setting) → List Char →
    Option (List (String × Setting) × List Char)
  | 0, _, _ => none
  | fuel + 1, es, cs =>
    match skipSpace fuel cs with
    | '}' :: rest => some (es, rest)
    | cs => do
      let (name, cs) ← readName cs
      match skipSpace fuel cs with
      | ':' :: cs => do
        let (s, cs) ← readValue fuel cs
        let es := Entries.insert name s es
        match skipSpace fuel cs with
        | ',' :: cs => readFields fuel es cs
        | '}' :: rest => pure (es, rest)
        | _ => none
      | _ => none

end

def read? (s : String) : Option Setting := do
  let cs := s.toList
  let (setting, rest) ← readValue (2 * cs.length + 2) cs
  if (skipSpace (rest.length + 1) rest).isEmpty then some setting else none

end Rulebook.Json5
