import Rulebook.Json.Reader
/-!
Quoted texts of TOML: with escapes between double quotes, as they are between single ones, and over
several lines between three quotes.
-/

set_option autoImplicit false

namespace Rulebook.Toml

def isControl (c : Char) : Bool := (c.toNat < 0x20 && c != '\t') || c.toNat = 0x7F

def character? (n : Nat) : Option Char := if n.isValidChar then some (Char.ofNat n) else none

def readEscape : List Char → Option (Char × List Char)
  | 'u' :: a :: b :: c :: d :: rest => do
    pure (← character? (← Json.hexUnit? a b c d), rest)
  | 'U' :: a :: b :: c :: d :: a' :: b' :: c' :: d' :: rest => do
    let high ← Json.hexUnit? a b c d
    pure (← character? (high * 0x10000 + (← Json.hexUnit? a' b' c' d')), rest)
  | 'x' :: a :: b :: rest => do pure (← character? (← Json.hexUnit? '0' '0' a b), rest)
  | 'e' :: rest => some ('\x1b', rest)
  | '/' :: _ => none
  | c :: rest => (Json.namedEscape? c).map (·, rest)
  | [] => none

/-- Three to five quotes close a text over several lines. The first two of them belong to it if
they are more than it takes. -/
def closing? (quote : Char) (cs : List Char) : Option (List Char × List Char) :=
  let quotes := min (cs.takeWhile (· = quote)).length 5
  if quotes < 3 then none else some (cs.take (quotes - 3), cs.drop quotes)

def isSpace (c : Char) : Bool := c = ' ' || c = '\t'

/-- A backslash at the end of a line takes the line end with it and all space behind it. -/
def joinLines? (cs : List Char) : Option (List Char) :=
  match cs.dropWhile isSpace with
  | '\n' :: cs => some (cs.dropWhile fun c => isSpace c || c = '\n' || c = '\r')
  | '\r' :: '\n' :: cs => some (cs.dropWhile fun c => isSpace c || c = '\n' || c = '\r')
  | _ => none

def readEscaped : Nat → List Char → Option (List Char × List Char)
  | 0, _ => none
  | _, [] => none
  | _, '"' :: rest => some ([], rest)
  | fuel + 1, '\\' :: cs => do
    let (c, cs) ← readEscape cs
    let (cs, rest) ← readEscaped fuel cs
    pure (c :: cs, rest)
  | fuel + 1, c :: cs =>
    if isControl c then none
    else do
      let (cs, rest) ← readEscaped fuel cs
      pure (c :: cs, rest)

def readEscapedLines : Nat → List Char → Option (List Char × List Char)
  | 0, _ => none
  | _, [] => none
  | fuel + 1, '\\' :: cs =>
    match joinLines? cs with
    | some cs => readEscapedLines fuel cs
    | none => do
      let (c, cs) ← readEscape cs
      let (cs, rest) ← readEscapedLines fuel cs
      pure (c :: cs, rest)
  | fuel + 1, '\r' :: '\n' :: cs => do
    let (cs, rest) ← readEscapedLines fuel cs
    pure ('\r' :: '\n' :: cs, rest)
  | fuel + 1, c :: cs =>
    match closing? '"' (c :: cs) with
    | some read => some read
    | none =>
      if isControl c && c != '\n' then none
      else do
        let (cs, rest) ← readEscapedLines fuel cs
        pure (c :: cs, rest)

def readLiteral (cs : List Char) : Option (List Char × List Char) :=
  let inside (c : Char) : Bool := c != '\'' && !isControl c
  match cs.dropWhile inside with
  | '\'' :: rest => some (cs.takeWhile inside, rest)
  | _ => none

def readLiteralLines : List Char → Option (List Char × List Char)
  | [] => none
  | '\r' :: '\n' :: cs => do
    let (cs, rest) ← readLiteralLines cs
    pure ('\r' :: '\n' :: cs, rest)
  | c :: cs =>
    match closing? '\'' (c :: cs) with
    | some read => some read
    | none =>
      if isControl c && c != '\n' then none
      else do
        let (cs, rest) ← readLiteralLines cs
        pure (c :: cs, rest)

def dropLineEnd : List Char → List Char
  | '\n' :: cs => cs
  | '\r' :: '\n' :: cs => cs
  | cs => cs

def readQuoted (cs : List Char) : Option (List Char × List Char) :=
  match cs with
  | '"' :: cs => readEscaped (cs.length + 1) cs
  | '\'' :: cs => readLiteral cs
  | _ => none

def readText (cs : List Char) : Option (List Char × List Char) :=
  match cs with
  | '"' :: '"' :: '"' :: cs => readEscapedLines (cs.length + 1) (dropLineEnd cs)
  | '\'' :: '\'' :: '\'' :: cs => readLiteralLines (dropLineEnd cs)
  | cs => readQuoted cs

end Rulebook.Toml
