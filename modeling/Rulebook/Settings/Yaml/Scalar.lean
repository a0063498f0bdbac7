import Rulebook.Settings.Yaml.Cursor
import Rulebook.Json.Reader
/-!
Single values of YAML: plain words, texts in quotes, and texts in indented lines. A plain word is told
apart from a number, a truth value or null by its look.
-/

set_option autoImplicit false

namespace Rulebook.Yaml

def digitsInBase? (base : Nat) (cs : List Char) : Option Nat :=
  if cs.isEmpty then none
  else cs.foldlM (fun n c => do
    let d ← Json.hexDigit? c
    if d < base then some (base * n + d) else none) 0

def integerInBase? (base : Nat) (cs : List Char) : Option Int :=
  let (negative, ds) := Numeral.readSign cs
  (digitsInBase? base ds).bind fun n =>
    let n : Int := if negative then -(n : Int) else n
    if Setting.isWord n then some n else none

def integer? (s : String) : Option Int :=
  match s.toList with
  | '0' :: 'x' :: cs => integerInBase? 16 cs
  | '0' :: 'o' :: cs => integerInBase? 8 cs
  | '+' :: cs => integerInBase? 10 ('+' :: cs) <|> integerInBase? 10 cs
  | cs => integerInBase? 10 cs

def specialWords : List String :=
  [".inf", ".Inf", ".INF", "+.inf", "+.Inf", "+.INF", "-.inf", "-.Inf", "-.INF",
    ".nan", ".NaN", ".NAN"]

def isSpecial (s : String) : Bool := specialWords.contains s

def real? (s : String) : Option Float :=
  if s.toList.any Char.isDigit then Binary64.ofText? s else none

def isNull (s : String) : Bool := s = "" || s = "~" || s = "null"

def plain? (s : String) : Option Setting :=
  match integer? s with
  | some n => some (.integer n)
  | none =>
    if isNull s then some .null
    else if s = "true" then some (.bool true)
    else if s = "false" then some (.bool false)
    else if isSpecial s then none
    else match real? s with
      | some x => some (.real x)
      | none => some (.text s)

/-- The name that a plain word is as a key. Integers have one spelling, null is no name. -/
def plainName? (s : String) : Option String :=
  match integer? s with
  | some n => some (toString n)
  | none => if isNull s then none else some s

def tagged? (tag s : String) : Option Setting :=
  match tag with
  | "!!bool" => some (if s = "true" then .bool true else if s = "false" then .bool false else .null)
  | "!!int" =>
    some (match Setting.integer? s with
      | some n => .integer n
      | none => .null)
  | "!!float" =>
    if isSpecial s then none
    else some (match real? s with
      | some x => .real x
      | none => .null)
  | "!!null" => some .null
  | _ => some (.text s)

/-! ### Plain words -/

def startsPlain (flow : Bool) : List Char → Bool
  | [] => false
  | c :: cs =>
    if c = '-' || c = '?' || c = ':' then
      !endsWord cs && !(flow && cs.head?.any isFlowMark)
    else !(isSpace c || c = '\n' || isFlowMark c ||
      "#&*!|>'\"%@\x60".toList.contains c)

/-- What a plain word takes of a line: up to a comment, a colon that ends a key or, between
brackets, a mark. -/
def plainLine (flow afterSpace : Bool) : List Char → List Char × List Char
  | [] => ([], [])
  | c :: cs =>
    let stops := c = '\n' || (c = '#' && afterSpace) || (flow && isFlowMark c) ||
      (c = ':' && (endsWord cs || (flow && cs.head?.any isFlowMark)))
    if stops then ([], c :: cs)
    else
      let (line, rest) := plainLine flow (isSpace c) cs
      (c :: line, rest)

def trimEnd (cs : List Char) : List Char := (cs.reverse.dropWhile isSpace).reverse

/-- One line end is a space; of several, all but the first stay. -/
def fold (lineEnds : Nat) : List Char :=
  if lineEnds = 1 then [' '] else List.replicate (lineEnds - 1) '\n'

def lineEnds : Nat → List Char → Nat × List Char
  | 0, cs => (0, cs)
  | fuel + 1, cs =>
    match cs.dropWhile isSpace with
    | '\n' :: rest =>
      let (n, rest) := lineEnds fuel rest
      (n + 1, rest)
    | _ => (0, cs)

/-- A plain word, which goes on in lines that are indented by `indent` at least. -/
def readPlain (flow : Bool) (indent : Nat) : Nat → Reading (List Char)
  | 0 => fail
  | fuel + 1 => do
    let cs ← rest
    let line := trimEnd (plainLine flow true cs).1
    let cs := cs.drop line.length
    moveTo cs
    let here ← get
    let (n, next) := lineEnds (cs.length + 1) cs
    let there := (here.moveTo next).moveTo (next.dropWhile isSpace)
    let goesOn := n != 0 && !there.atEnd && (flow || indent ≤ there.column) &&
      there.rest.head? != some '#' && !(flow && there.rest.head?.any isFlowMark) &&
      !(there.rest.head? = some ':' && endsWord (there.rest.drop 1))
    if goesOn then
      set there
      pure (line ++ fold n ++ (← readPlain flow indent fuel))
    else pure line

/-! ### Quoted texts -/

def namedEscape? (c : Char) : Option Char :=
  match c with
  | '0' => some '\x00'
  | 'a' => some '\x07'
  | 'b' => some '\x08'
  | 't' => some '\t'
  | '\t' => some '\t'
  | 'n' => some '\n'
  | 'v' => some '\x0b'
  | 'f' => some '\x0c'
  | 'r' => some '\r'
  | 'e' => some '\x1b'
  | ' ' => some ' '
  | '"' => some '"'
  | '/' => some '/'
  | '\\' => some '\\'
  | 'N' => some '\u0085'
  | '_' => some '\u00a0'
  | 'L' => some '\u2028'
  | 'P' => some '\u2029'
  | _ => none

def codePoint? (cs : List Char) : Option Char :=
  (digitsInBase? 16 cs).bind fun n => if n.isValidChar then some (Char.ofNat n) else none

def readEscape (cs : List Char) : Option (Char × List Char) :=
  let coded (width : Nat) (cs : List Char) : Option (Char × List Char) :=
    if cs.length < width then none else (codePoint? (cs.take width)).map (·, cs.drop width)
  match cs with
  | 'x' :: cs => coded 2 cs
  | 'u' :: cs => coded 4 cs
  | 'U' :: cs => coded 8 cs
  | c :: cs => (namedEscape? c).map (·, cs)
  | [] => none

/-- A text between double quotes, from behind the first. Space around a line end is dropped, and a
backslash before it drops the line end, too. -/
def readDouble : Nat → List Char → Option (List Char × List Char)
  | 0, _ => none
  | _, [] => none
  | _, '"' :: rest => some ([], rest)
  | fuel + 1, '\\' :: cs =>
    match lineEnds (cs.length + 1) cs with
    | (0, _) => do
      let (c, cs) ← readEscape cs
      let (text, rest) ← readDouble fuel cs
      pure (c :: text, rest)
    | (n + 1, cs) => do
      let (text, rest) ← readDouble fuel (cs.dropWhile isSpace)
      pure (List.replicate n '\n' ++ text, rest)
  | fuel + 1, c :: cs =>
    match lineEnds (cs.length + 2) (c :: cs) with
    | (0, _) => do
      let (text, rest) ← readDouble fuel cs
      pure (c :: text, rest)
    | (n, cs) => do
      let (text, rest) ← readDouble fuel (cs.dropWhile isSpace)
      pure (fold n ++ text, rest)

def readSingle : Nat → List Char → Option (List Char × List Char)
  | 0, _ => none
  | _, [] => none
  | fuel + 1, '\'' :: '\'' :: cs => do
    let (text, rest) ← readSingle fuel cs
    pure ('\'' :: text, rest)
  | _, '\'' :: rest => some ([], rest)
  | fuel + 1, c :: cs =>
    match lineEnds (cs.length + 2) (c :: cs) with
    | (0, _) => do
      let (text, rest) ← readSingle fuel cs
      pure (c :: text, rest)
    | (n, cs) => do
      let (text, rest) ← readSingle fuel (cs.dropWhile isSpace)
      pure (fold n ++ text, rest)

def quoted? (cs : List Char) : Option (List Char × List Char) :=
  match cs with
  | '"' :: cs => readDouble (cs.length + 1) cs
  | '\'' :: cs => readSingle (cs.length + 1) cs
  | _ => none

/-! ### Texts in indented lines -/

inductive Chomp where
  | clip
  | strip
  | keep
  deriving DecidableEq

/-- How far the lines are indented beyond what is around them, if it is given, and what becomes of
the last line ends. -/
def readHeader : List Char → Option (Option Nat × Chomp × List Char) := fun cs =>
  let chomp (cs : List Char) : Chomp × List Char :=
    match cs with
    | '-' :: cs => (.strip, cs)
    | '+' :: cs => (.keep, cs)
    | cs => (.clip, cs)
  let depth (cs : List Char) : Option (Option Nat) × List Char :=
    match cs with
    | c :: rest =>
      if c = '0' then (none, rest)
      else if c.isDigit then (some (some (Numeral.digitsValue [c])), rest)
      else (some none, c :: rest)
    | [] => (some none, [])
  match chomp cs with
  | (.clip, cs) =>
    match depth cs with
    | (some d, cs) =>
      let (k, cs) := chomp cs
      some (d, k, cs)
    | (none, _) => none
  | (k, cs) =>
    match depth cs with
    | (some d, cs) => some (d, k, cs)
    | (none, _) => none

/-- Lines of a block without their indentation, and the rest. Blank lines need not be indented. -/
def blockLines (indent : Nat) : Nat → List Char → List (List Char) × List Char
  | 0, cs => ([], cs)
  | fuel + 1, cs =>
    let line := cs.takeWhile (· != '\n')
    let rest := cs.dropWhile (· != '\n')
    let spaces := line.takeWhile (· = ' ')
    let belongs := indent ≤ spaces.length || spaces.length = line.length
    if cs.isEmpty || !belongs then ([], cs)
    else
      let (lines, rest) := blockLines indent fuel (rest.drop 1)
      (line.drop indent :: lines, rest)

def detect : Nat → List Char → Nat
  | 0, _ => 0
  | fuel + 1, cs =>
    let spaces := cs.takeWhile (· = ' ')
    match cs.drop spaces.length with
    | '\n' :: rest => max (detect fuel rest) 0
    | [] => 0
    | _ => spaces.length

def literal : List (List Char) → List Char
  | [] => []
  | [l] => l
  | l :: ls => l ++ '\n' :: literal ls

def isIndented (line : List Char) : Bool := line.head?.any isSpace

/-- Lines of one paragraph become one; blank lines and lines that are indented further stay
apart. -/
def folded : Nat → List (List Char) → List Char
  | 0, _ => []
  | _, [] => []
  | fuel + 1, l :: ls =>
    let blanks := (ls.takeWhile List.isEmpty).length
    match ls.dropWhile List.isEmpty with
    | [] => l
    | next :: more =>
      let apart := l.isEmpty || isIndented l || isIndented next
      let gap := if apart then List.replicate (blanks + 1) '\n' else fold (blanks + 1)
      l ++ gap ++ folded fuel (next :: more)

def blockText (isFolded : Bool) (chomp : Chomp) (lines : List (List Char)) : List Char :=
  let body := (lines.reverse.dropWhile List.isEmpty).reverse
  let ends := lines.length - body.length
  let text := if isFolded then folded body.length body else literal body
  match chomp with
  | .strip => text
  | .clip => if body.isEmpty then [] else text ++ ['\n']
  | .keep => text ++ List.replicate (if body.isEmpty then ends else ends + 1) '\n'

/-- A text in lines that are indented by `indent` at least, from its mark on. -/
def readBlock (indent : Nat) : Reading String := do
  match ← rest with
  | mark :: cs =>
    match readHeader cs with
    | none => fail
    | some (depth, chomp, cs) =>
      moveTo cs
      let here ← get
      let space := cs.takeWhile isSpace
      match Cursor.skipComment (!space.isEmpty) (cs.dropWhile isSpace) with
      | [] => do
        moveTo []
        pure ""
      | '\n' :: cs =>
        let indent := match depth with
          | some k => indent + k - 1
          | none => max indent (detect (cs.length + 1) cs)
        let (lines, cs) := blockLines indent (cs.length + 1) cs
        set { here with rest := cs, column := 0 }
        pure (String.ofList (blockText (mark = '>') chomp lines))
      | _ => fail
  | [] => fail

end Rulebook.Yaml
