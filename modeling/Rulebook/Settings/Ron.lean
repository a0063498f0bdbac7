import Rulebook.Settings.Setting
import Rulebook.Json.Reader
import Rulebook.Text.Alphanumeric
/-!
Reading settings from RON: structures and tuples in parentheses, lists in brackets, maps in braces,
optional values, characters, texts and numbers. Names of structures say nothing.
-/

set_option autoImplicit false

namespace Rulebook.Ron

def isSpace (c : Char) : Bool :=
  c = ' ' || c = '\n' || c = '\t' || c = '\r' || c = '\x0b' || c = '\x0c' || c = '\u0085' ||
    c = '\u200E' || c = '\u200F' || c = '\u2028' || c = '\u2029'

def closeComment : Nat → List Char → Option (List Char)
  | 0, '*' :: '/' :: cs => some cs
  | depth + 1, '*' :: '/' :: cs => closeComment depth cs
  | depth, '/' :: '*' :: cs => closeComment (depth + 1) cs
  | depth, _ :: cs => closeComment depth cs
  | _, [] => none

def skipSpace : Nat → List Char → List Char
  | 0, cs => cs
  | fuel + 1, cs =>
    match cs.dropWhile isSpace with
    | '/' :: '/' :: cs => skipSpace fuel (cs.dropWhile (· != '\n'))
    | '/' :: '*' :: cs =>
      match closeComment 0 cs with
      | some cs => skipSpace fuel cs
      | none => '/' :: '*' :: cs
    | cs => cs

def startsName (c : Char) : Bool := (Text.isAlphanumeric c && !c.isDigit) || c = '_'

def isNameChar (c : Char) : Bool := Text.isAlphanumeric c || c = '_'

def isRawNameChar (c : Char) : Bool := isNameChar c || c = '.' || c = '+' || c = '-'

def readName (cs : List Char) : Option (String × List Char) :=
  match cs with
  | 'r' :: '#' :: cs =>
    if (cs.takeWhile isRawNameChar).isEmpty then none
    else some (String.ofList (cs.takeWhile isRawNameChar), cs.dropWhile isRawNameChar)
  | c :: cs =>
    if startsName c then
      some (String.ofList (c :: cs.takeWhile isNameChar), cs.dropWhile isNameChar)
    else none
  | [] => none

def hexadecimal? (cs : List Char) : Option Nat :=
  cs.foldlM (fun n c => (Json.hexDigit? c).map (16 * n + ·)) 0

def character? (n : Nat) : Option Char := if n.isValidChar then some (Char.ofNat n) else none

def readEscape : List Char → Option (Char × List Char)
  | '"' :: rest => some ('"', rest)
  | '\'' :: rest => some ('\'', rest)
  | '\\' :: rest => some ('\\', rest)
  | 'n' :: rest => some ('\n', rest)
  | 'r' :: rest => some ('\r', rest)
  | 't' :: rest => some ('\t', rest)
  | '0' :: rest => some ('\x00', rest)
  | 'x' :: a :: b :: rest => do
    pure (← character? (← Json.hexUnit? '0' '0' a b), rest)
  | 'u' :: '{' :: cs => do
    let isDigit (c : Char) : Bool := (Json.hexDigit? c).isSome
    let ds := cs.takeWhile isDigit
    match cs.dropWhile isDigit with
    | '}' :: rest =>
      if ds.isEmpty || 6 < ds.length then none
      else do pure (← character? (← hexadecimal? ds), rest)
    | _ => none
  | _ => none

def readText : Nat → List Char → Option (List Char × List Char)
  | 0, _ => none
  | _, [] => none
  | _, '"' :: rest => some ([], rest)
  | fuel + 1, '\\' :: cs => do
    let (c, cs) ← readEscape cs
    let (cs, rest) ← readText fuel cs
    pure (c :: cs, rest)
  | fuel + 1, c :: cs => do
    let (cs, rest) ← readText fuel cs
    pure (c :: cs, rest)

/-- A text without escapes, up to a quote with as many marks behind it as stood in front. -/
def readRaw (marks : List Char) : List Char → Option (List Char × List Char)
  | [] => none
  | c :: cs =>
    if c = '"' ∧ marks.isPrefixOf cs then some ([], cs.drop marks.length)
    else do
      let (text, rest) ← readRaw marks cs
      pure (c :: text, rest)

def readQuoted (cs : List Char) : Option (String × List Char) :=
  let plain (read : List Char × List Char) : String × List Char := (String.ofList read.1, read.2)
  match cs with
  | '"' :: cs => (readText (cs.length + 1) cs).map plain
  | 'r' :: cs =>
    match cs.dropWhile (· = '#') with
    | '"' :: rest => (readRaw (cs.takeWhile (· = '#')) rest).map plain
    | _ => none
  | _ => none

def readCharacter : List Char → Option (Char × List Char)
  | '\\' :: cs => do
    let (c, cs) ← readEscape cs
    match cs with
    | '\'' :: rest => pure (c, rest)
    | _ => none
  | c :: '\'' :: rest => some (c, rest)
  | _ => none

def isNumberChar (c : Char) : Bool :=
  c.isAlphanum || c = '_' || c = '+' || c = '-' || c = '.'

def suffixes : List String :=
  ["i8", "i16", "i32", "i64", "i128", "u8", "u16", "u32", "u64", "u128"]

def stripSuffix (cs : List Char) : List Char :=
  match suffixes.find? fun s => s.toList.isSuffixOf cs with
  | some s => cs.take (cs.length - s.length)
  | none => cs

def digits? (base : Nat) (cs : List Char) : Option Nat :=
  match cs with
  | [] => none
  | '_' :: _ => none
  | cs => (cs.filter (· != '_')).foldlM (fun n c => do
      let d ← Json.hexDigit? c
      if d < base then some (base * n + d) else none) 0

def whole? (cs : List Char) : Option Nat :=
  match cs with
  | '0' :: 'x' :: cs => digits? 16 (stripSuffix cs)
  | '0' :: 'o' :: cs => digits? 8 (stripSuffix cs)
  | '0' :: 'b' :: cs => digits? 2 (stripSuffix cs)
  | cs => digits? 10 (stripSuffix cs)

def stripRealSuffix (cs : List Char) : List Char :=
  if "f32".toList.isSuffixOf cs || "f64".toList.isSuffixOf cs then cs.take (cs.length - 3) else cs

def number? (cs : List Char) : Option Setting :=
  let (negative, ds) := Numeral.readSign cs
  match whole? ds with
  | some n => some (.integer (if negative then -(n : Int) else n))
  | none =>
    let cs := (stripRealSuffix cs).filter (· != '_')
    (Binary64.ofText? (String.ofList cs)).map .real

def nameOf? : Setting → Option String
  | .text s => some s
  | _ => none

mutual

/-- A name alone says nothing; one before parentheses says no more than they do. -/
def readValue : Nat → List Char → Option (Setting × List Char)
  | 0, _ => none
  | fuel + 1, cs =>
    match skipSpace fuel cs with
    | [] => none
    | '(' :: cs => readParentheses fuel cs
    | '[' :: cs => (readItems fuel ']' cs).map fun (items, rest) => (.list items, rest)
    | '{' :: cs => (readEntries fuel [] cs).map fun (es, rest) => (.table es, rest)
    | '\'' :: cs => (readCharacter cs).map fun (c, rest) => (.text c.toString, rest)
    | c :: cs =>
      match readQuoted (c :: cs), readName (c :: cs) with
      | some (s, rest), _ => some (.text s, rest)
      | none, some ("true", rest) => some (.bool true, rest)
      | none, some ("false", rest) => some (.bool false, rest)
      | none, some ("None", rest) => some (.null, rest)
      | none, some (name, rest) =>
        if name = "inf" ∨ name = "NaN" then
          (Binary64.ofText? name).map fun x => (.real x, rest)
        else
          match skipSpace fuel rest with
          | '(' :: cs =>
            if name = "Some" then do
              let (s, cs) ← readValue fuel cs
              match skipSpace fuel cs with
              | ')' :: rest => some (s, rest)
              | ',' :: cs =>
                match skipSpace fuel cs with
                | ')' :: rest => some (s, rest)
                | _ => none
              | _ => none
            else readParentheses fuel cs
          | cs => some (.null, cs)
      | none, none => do
        let s ← number? ((c :: cs).takeWhile isNumberChar)
        pure (s, (c :: cs).dropWhile isNumberChar)

def readParentheses : Nat → List Char → Option (Setting × List Char)
  | 0, _ => none
  | fuel + 1, cs =>
    match skipSpace fuel cs with
    | ')' :: rest => some (.null, rest)
    | cs =>
      let named := match readName cs with
        | some (_, rest) => (skipSpace fuel rest).head? == some ':'
        | none => false
      if named then (readFields fuel [] cs).map fun (es, rest) => (.table es, rest)
      else (readItems fuel ')' cs).map fun (items, rest) => (.list items, rest)

def readItems : Nat → Char → List Char → Option (List Setting × List Char)
  | 0, _, _ => none
  | fuel + 1, mark, cs =>
    match skipSpace fuel cs with
    | [] => none
    | c :: cs =>
      if c = mark then some ([], cs)
      else do
        let (item, cs) ← readValue fuel (c :: cs)
        match skipSpace fuel cs with
        | [] => none
        | c :: cs =>
          if c = mark then pure ([item], cs)
          else if c = ',' then do
            let (items, rest) ← readItems fuel mark cs
            pure (item :: items, rest)
          else none

/-- Fields of a structure. Of equal names the last counts. -/
def readFields : Nat → List (String × Setting) → List Char →
    Option (List (String × Setting) × List Char)
  | 0, _, _ => none
  | fuel + 1, es, cs =>
    match skipSpace fuel cs with
    | ')' :: rest => some (es, rest)
    | cs => do
      let (name, cs) ← readName cs
      match skipSpace fuel cs with
      | ':' :: cs => do
        let (s, cs) ← readValue fuel cs
        let es := Entries.insert name s es
        match skipSpace fuel cs with
        | ',' :: cs => readFields fuel es cs
        | ')' :: rest => pure (es, rest)
        | _ => none
      | _ => none

def readEntries : Nat → List (String × Setting) → List Char →
    Option (List (String × Setting) × List Char)
  | 0, _, _ => none
  | fuel + 1, es, cs =>
    match skipSpace fuel cs with
    | '}' :: rest => some (es, rest)
    | cs => do
      let (key, cs) ← readValue fuel cs
      let name ← nameOf? key
      match skipSpace fuel cs with
      | ':' :: cs => do
        let (s, cs) ← readValue fuel cs
        let es := Entries.insert name s es
        match skipSpace fuel cs with
        | ',' :: cs => readEntries fuel es cs
        | '}' :: rest => pure (es, rest)
        | _ => none
      | _ => none

end

def skipExtensions : Nat → List Char → List Char
  | 0, cs => cs
  | fuel + 1, cs =>
    match skipSpace fuel cs with
    | '#' :: '!' :: '[' :: cs => skipExtensions fuel ((cs.dropWhile (· != ']')).drop 1)
    | cs => cs

def read? (s : String) : Option Setting := do
  let cs := s.toList
  let fuel := 2 * cs.length + 2
  let (setting, rest) ← readValue fuel (skipExtensions fuel cs)
  if (skipSpace fuel rest).isEmpty then some setting else none

end Rulebook.Ron
