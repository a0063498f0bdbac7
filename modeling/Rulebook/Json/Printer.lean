import Rulebook.Json.Basic
/-! Writing JSON: compact, and with one entry a line. -/

set_option autoImplicit false

namespace Rulebook.Json

def hexDigits2 (n : Nat) : List Char :=
  [Nat.digitChar (n / 16), Nat.digitChar (n % 16)]

def escapeChar (c : Char) : List Char :=
  if c = '"' then ['\\', '"']
  else if c = '\\' then ['\\', '\\']
  else if c = '\x08' then ['\\', 'b']
  else if c = '\x0c' then ['\\', 'f']
  else if c = '\n' then ['\\', 'n']
  else if c = '\r' then ['\\', 'r']
  else if c = '\t' then ['\\', 't']
  else if c.toNat < 0x20 then ['\\', 'u', '0', '0'] ++ hexDigits2 c.toNat
  else [c]

def textChars (s : String) : List Char := '"' :: s.toList.flatMap escapeChar ++ ['"']

def intChars (n : Int) : List Char := Layout.sign (n < 0) ++ Nat.toDigits 10 n.natAbs

/-- A double that is not finite has no number to stand for it. -/
def realChars (x : Float) : List Char :=
  if x.isFinite then Layout.document.chars x else "null".toList

def numberChars : Number → List Char
  | .integer n => intChars n
  | .real x => realChars x

def boolChars (b : Bool) : List Char := if b then "true".toList else "false".toList

/-- The blanks in front of an entry at a level, and behind a colon. -/
structure Spacing where
  line : Nat → List Char
  colon : List Char

def Spacing.tight : Spacing := ⟨fun _ => [], []⟩

def Spacing.lines : Spacing := ⟨fun level => '\n' :: List.replicate (2 * level) ' ', [' ']⟩

mutual

def chars (sp : Spacing) (level : Nat) : Json → List Char
  | .null | .unusable => "null".toList
  | .bool b => boolChars b
  | .number n => numberChars n
  | .text s => textChars s
  | .list [] => ['[', ']']
  | .list (j :: js) =>
    '[' :: (sp.line (level + 1) ++ (chars sp (level + 1) j ++ itemChars sp level js))
  | .fields [] => ['{', '}']
  | .fields ((key, j) :: es) =>
    '{' :: (sp.line (level + 1) ++ (textChars key ++ ':' ::
      (sp.colon ++ (chars sp (level + 1) j ++ fieldChars sp level es))))

def itemChars (sp : Spacing) (level : Nat) : List Json → List Char
  | [] => sp.line level ++ [']']
  | j :: js => ',' :: (sp.line (level + 1) ++ (chars sp (level + 1) j ++ itemChars sp level js))

def fieldChars (sp : Spacing) (level : Nat) : List (String × Json) → List Char
  | [] => sp.line level ++ ['}']
  | (key, j) :: es =>
    ',' :: (sp.line (level + 1) ++ (textChars key ++ ':' ::
      (sp.colon ++ (chars sp (level + 1) j ++ fieldChars sp level es))))

end

def compact (j : Json) : String := String.ofList (j.chars .tight 0)

def pretty (j : Json) : String := String.ofList (j.chars .lines 0)

end Rulebook.Json
