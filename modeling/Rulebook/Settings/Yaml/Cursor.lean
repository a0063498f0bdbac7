import Rulebook.Settings.Setting
/-!
A place in a YAML text: what is left of the text, how far it stands from the start of its line, and
the settings that were given names so far. Columns decide what belongs together.
-/

set_option autoImplicit false

namespace Rulebook.Yaml

structure Cursor where
  rest : List Char
  column : Nat
  anchors : List (String × Setting)

abbrev Reading := StateT Cursor Option

def fail {α : Type} : Reading α := fun _ => none

def isSpace (c : Char) : Bool := c = ' ' || c = '\t'

def endsWord : List Char → Bool
  | [] => true
  | c :: _ => isSpace c || c = '\n'

def isFlowMark (c : Char) : Bool := c = ',' || c = '[' || c = ']' || c = '{' || c = '}'

namespace Cursor

def start (s : String) : Cursor := ⟨s.toList, 0, []⟩

def skip (c : Cursor) (passed rest : List Char) : Cursor :=
  let inLine := passed.reverse.takeWhile (· != '\n')
  { c with
    rest
    column := if inLine.length = passed.length then c.column + passed.length else inLine.length }

/-- Moves on to where `rest` starts, which is an end of what is left. -/
def moveTo (c : Cursor) (rest : List Char) : Cursor :=
  c.skip (c.rest.take (c.rest.length - rest.length)) rest

def atMarker (c : Cursor) : Bool :=
  match c.rest with
  | a :: b :: d :: rest =>
    c.column = 0 && a = b && b = d && (a = '-' || a = '.') && endsWord rest
  | _ => false

def atEnd (c : Cursor) : Bool := c.rest.isEmpty || c.atMarker

def skipComment (free : Bool) : List Char → List Char
  | '#' :: cs => if free then cs.dropWhile (· != '\n') else '#' :: cs
  | cs => cs

/-- Moves on to the next content and tells whether a line ends before it. No tab may stand between
the start of a line and its content. -/
def toContent : Nat → Cursor → Option (Bool × Cursor)
  | 0, _ => none
  | fuel + 1, c =>
    let space := c.rest.takeWhile isSpace
    let rest := skipComment (c.column = 0 || !space.isEmpty) (c.rest.dropWhile isSpace)
    match rest with
    | '\n' :: rest => do
      let (_, c) ← toContent fuel { c with rest, column := 0 }
      pure (true, c)
    | rest =>
      if c.column = 0 && space.contains '\t' && !rest.isEmpty then none
      else some (false, c.moveTo rest)

def toFlowContent : Nat → Cursor → Cursor
  | 0, c => c
  | fuel + 1, c =>
    let space := c.rest.takeWhile isSpace
    match skipComment (c.column = 0 || !space.isEmpty) (c.rest.dropWhile isSpace) with
    | '\n' :: rest => toFlowContent fuel { c with rest, column := 0 }
    | rest => c.moveTo rest

end Cursor

def cursor : Reading Cursor := get

def rest : Reading (List Char) := do pure (← get).rest

def moveTo (rest : List Char) : Reading Unit := modify (·.moveTo rest)

def expect (mark : Char) : Reading Unit := do
  match ← rest with
  | c :: cs => if c = mark then moveTo cs else fail
  | [] => fail

def toContent : Reading Bool := fun c => c.toContent (c.rest.length + 1)

def toFlowContent : Reading Unit := modify fun c => c.toFlowContent (c.rest.length + 1)

def endLine : Reading Unit := do
  let crossed ← toContent
  if !crossed && !(← get).rest.isEmpty then fail

end Rulebook.Yaml
