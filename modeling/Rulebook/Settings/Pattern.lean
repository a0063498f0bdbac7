import Rulebook.Json.Reader
import Rulebook.Text.Alphanumeric
/-!
Regular expressions in filters. They are kept as texts; here is decided which texts are regular
expressions. Counted repetitions and properties with names need a closing brace, which cannot stand
in a filter, and limits of words are not among the expressions, so that none of them is read here.
-/

set_option autoImplicit false

namespace Rulebook.Pattern

inductive Escape where
  | character (c : Char)
  | several
  | anchor
  deriving DecidableEq

def letterEscape? (c : Char) : Option Escape :=
  match c with
  | 'a' => some (.character '\x07')
  | 'f' => some (.character '\x0c')
  | 't' => some (.character '\t')
  | 'n' => some (.character '\n')
  | 'r' => some (.character '\r')
  | 'v' => some (.character '\x0b')
  | 'd' | 'D' | 's' | 'S' | 'w' | 'W' => some .several
  | 'A' | 'z' => some .anchor
  | _ => none

def standsForItself (c : Char) : Bool := c.toNat < 0x80 && !c.isAlphanum && c != '<' && c != '>'

def readCode (width : Nat) (cs : List Char) : Option (Escape × List Char) := do
  let n ← (cs.take width).foldlM (fun n c => (Json.hexDigit? c).map (16 * n + ·)) 0
  if cs.length < width || !n.isValidChar then none
  else some (.character (Char.ofNat n), cs.drop width)

def isCategory (c : Char) : Bool := "CLMNPSZclmnpsz".toList.contains c

def readEscape : List Char → Option (Escape × List Char)
  | [] => none
  | 'x' :: cs => readCode 2 cs
  | 'u' :: cs => readCode 4 cs
  | 'U' :: cs => readCode 8 cs
  | 'p' :: c :: cs => if isCategory c then some (.several, cs) else none
  | 'P' :: c :: cs => if isCategory c then some (.several, cs) else none
  | c :: cs =>
    if standsForItself c then some (.character c, cs) else (letterEscape? c).map (·, cs)

/-! ### Classes of characters -/

def classNames : List String :=
  ["alnum", "alpha", "ascii", "blank", "cntrl", "digit", "graph", "lower", "print", "punct",
    "space", "upper", "word", "xdigit"]

/-- The rest behind a class with a name, from behind its opening bracket. -/
def namedClass? (cs : List Char) : Option (List Char) :=
  match cs with
  | ':' :: cs =>
    let cs := if cs.head? = some '^' then cs.drop 1 else cs
    match cs.dropWhile (· != ':') with
    | ':' :: ']' :: rest =>
      if classNames.contains (String.ofList (cs.takeWhile (· != ':'))) then some rest else none
    | _ => none
  | _ => none

/-- The start of a class from behind the opening bracket: a sign for its complement, and dashes or
a closing bracket, which stand for themselves there. -/
def openClass (cs : List Char) : List Char :=
  let cs := if cs.head? = some '^' then cs.drop 1 else cs
  match cs with
  | ']' :: rest => rest
  | cs => cs.dropWhile (· = '-')

/-- A member of a class; `none` inside for a whole class. -/
def readMember (cs : List Char) : Option (Option Char × List Char) :=
  match cs with
  | '\\' :: cs =>
    match readEscape cs with
    | some (.character c, rest) => some (some c, rest)
    | some (.several, rest) => some (none, rest)
    | _ => none
  | c :: cs => some (some c, cs)
  | [] => none

def readRange (cs : List Char) : Option (List Char) := do
  let (low, cs) ← readMember cs
  match cs with
  | '-' :: c :: rest =>
    if c = ']' || c = '-' then some cs
    else do
      let (high, rest) ← readMember (c :: rest)
      match low, high with
      | some low, some high => if low ≤ high then some rest else none
      | _, _ => none
  | cs => some cs

def readClass : Nat → Nat → List Char → Option (List Char)
  | 0, _, _ => none
  | fuel + 1, depth, cs =>
    match cs with
    | [] => none
    | ']' :: cs => if depth = 1 then some cs else readClass fuel (depth - 1) cs
    | '[' :: cs =>
      match namedClass? cs with
      | some rest => readClass fuel depth rest
      | none => readClass fuel (depth + 1) (openClass cs)
    | '&' :: '&' :: cs => readClass fuel depth cs
    | '-' :: '-' :: cs => readClass fuel depth cs
    | '~' :: '~' :: cs => readClass fuel depth cs
    | cs => (readRange cs).bind (readClass fuel depth)

/-! ### Groups -/

def areFlags (cs : List Char) : Bool :=
  let letters := cs.filter (· != '-')
  letters.all "imsUuxR".toList.contains && letters.eraseDups.length = letters.length &&
    cs.length ≤ letters.length + 1 && cs.getLast?.any (· != '-')

def startsName (c : Char) : Bool := c = '_' || (Text.isAlphanumeric c && !c.isDigit)

def isNameChar (c : Char) : Bool := Text.isAlphanumeric c || "_.[]".toList.contains c

inductive Opening where
  | group (name : Option String)
  | flags

def readName (cs : List Char) : Option (Opening × List Char) :=
  let name := cs.takeWhile (· != '>')
  if name.head?.any startsName && name.all isNameChar && name.length < cs.length then
    some (.group (some (String.ofList name)), cs.drop (name.length + 1))
  else none

def readOpening (cs : List Char) : Option (Opening × List Char) :=
  match cs with
  | '?' :: 'P' :: '<' :: cs => readName cs
  | '?' :: '<' :: cs => readName cs
  | '?' :: ':' :: cs => some (.group none, cs)
  | '?' :: cs =>
    let flags := cs.takeWhile fun c => c != ':' && c != ')'
    if !areFlags flags then none
    else match cs.drop flags.length with
      | ':' :: rest => some (.group none, rest)
      | ')' :: rest => some (.flags, rest)
      | _ => none
  | cs => some (.group none, cs)

/-- Whether the rest of a text ends an expression with so many open groups. A repetition needs an
operand, and no two groups have one name. -/
def isRest : Nat → Nat → Bool → List String → List Char → Bool
  | 0, _, _, _, _ => false
  | fuel + 1, depth, operand, names, cs =>
    match cs with
    | [] => depth = 0
    | '(' :: cs =>
      match readOpening cs with
      | none => false
      | some (.flags, rest) => isRest fuel depth false names rest
      | some (.group none, rest) => isRest fuel (depth + 1) false names rest
      | some (.group (some name), rest) =>
        !names.contains name && isRest fuel (depth + 1) false (name :: names) rest
    | ')' :: cs => depth != 0 && isRest fuel (depth - 1) true names cs
    | '|' :: cs => isRest fuel depth false names cs
    | '[' :: cs =>
      match readClass (cs.length + 2) 1 (openClass cs) with
      | some rest => isRest fuel depth true names rest
      | none => false
    | '\\' :: cs =>
      match readEscape cs with
      | some (_, rest) => isRest fuel depth true names rest
      | none => false
    | c :: cs =>
      if c = '{' then false
      else if c = '*' || c = '+' || c = '?' then operand && isRest fuel depth true names cs
      else isRest fuel depth true names cs

def isPattern (s : String) : Bool := isRest (s.length + 1) 0 false [] s.toList

end Rulebook.Pattern
