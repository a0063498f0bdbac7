import Rulebook.Settings.Setting
import Rulebook.Json.Reader
import Rulebook.Text.Blank
/-!
Reading settings from INI text: sections in brackets, and names and values with `=` or `:` between
them. All values are texts.
-/

set_option autoImplicit false

namespace Rulebook.Ini

abbrev Entries := List (String × Setting)

def namedEscape (c : Char) : Char :=
  match c with
  | '0' => '\x00'
  | 'a' => '\x07'
  | 'b' => '\x08'
  | 't' => '\t'
  | 'r' => '\r'
  | 'n' => '\n'
  | c => c

/-- Text up to a character that stops it. The end of the text stops it only if `endStops` holds. A
backslash before a line end joins two lines. -/
def readUntil (stops : Char → Bool) (endStops : Bool) : List Char → Option (List Char × List Char)
  | [] => if endStops then some ([], []) else none
  | '\\' :: 'x' :: a :: b :: c :: d :: rest => do
    let n ← Json.hexUnit? a b c d
    let (cs, rest) ← readUntil stops endStops rest
    if n.isValidChar then some (Char.ofNat n :: cs, rest) else none
  | '\\' :: '\n' :: rest => readUntil stops endStops rest
  | '\\' :: c :: rest => do
    let (cs, rest) ← readUntil stops endStops rest
    if c = 'x' then none else some (namedEscape c :: cs, rest)
  | c :: rest =>
    if c = '\\' then none
    else if stops c then some ([], c :: rest)
    else do
      let (cs, rest) ← readUntil stops endStops rest
      pure (c :: cs, rest)

def isLineEnd (c : Char) : Bool := c = '\n' || c = '\r'

def readParts : Nat → Bool → List Char → Option (List Char × List Char)
  | 0, _, _ => none
  | _, _, [] => some ([], [])
  | fuel + 1, isFirst, c :: cs =>
    if c = '"' ∨ c = '\'' then do
      let (part, cs) ← readUntil (· = c) false cs
      let (parts, rest) ← readParts fuel false (cs.drop 1)
      pure (part ++ parts, rest)
    else do
      let (part, rest) ← readUntil isLineEnd true (c :: cs)
      pure (Text.trimEnd (if isFirst then Text.trimStart part else part), rest)

def readValue (cs : List Char) : Option (String × List Char) :=
  let cs := cs.dropWhile fun c => Text.isBlank c && !isLineEnd c
  (readParts (cs.length + 1) true cs).map fun (cs, rest) => (String.ofList cs, rest)

def readName (stops : Char → Bool) (cs : List Char) : Option (String × List Char) :=
  (readUntil stops false cs).map fun (cs, rest) => (Text.trim (String.ofList cs), rest)

structure Sections where
  finished : Entries
  name : Option String
  entries : Entries

namespace Sections

/-- A section takes the place of an earlier one of its name. -/
def close (s : Sections) : Entries :=
  match s.name with
  | none => s.entries
  | some name => Rulebook.Entries.insert name (.table s.entries) s.finished

def start (s : Sections) (name : String) : Sections := ⟨s.close, some name, []⟩

def add (s : Sections) (name value : String) : Sections :=
  { s with entries := Rulebook.Entries.insert name (.text value) s.entries }

end Sections

def skipBlank (fresh : Bool) : List Char → Bool × List Char
  | [] => (fresh, [])
  | c :: cs => if Text.isBlank c then skipBlank (c = '\n') cs else (fresh, c :: cs)

/-- Comments start at the start of a line, and nowhere else where a name could start. -/
def readLines : Nat → Bool → Sections → List Char → Option Sections
  | 0, _, _, _ => none
  | fuel + 1, fresh, s, cs =>
    match skipBlank fresh cs with
    | (_, []) => some s
    | (fresh, c :: cs) =>
      if c = ';' ∨ c = '#' then
        if fresh then readLines fuel true s ((cs.dropWhile (· != '\n')).drop 1) else none
      else if c = '[' then do
        let (name, cs) ← readName (· = ']') cs
        readLines fuel false (s.start name) (cs.drop 1)
      else do
        let (name, cs) ← readName (fun c => c = '=' || c = ':') (c :: cs)
        let (value, cs) ← readValue (cs.drop 1)
        if name.isEmpty then none else readLines fuel false (s.add name value) cs

def read? (s : String) : Option Entries :=
  (readLines (s.length + 2) true ⟨[], none, []⟩ s.toList).map Sections.close

end Rulebook.Ini
