import Rulebook.Settings.Pattern
import Rulebook.Settings.Setting
import Rulebook.Text.Blank
/-!
Filters for log lines: a level for everything, and levels for single targets, for spans and for
fields. Of two directives about the same the later counts, and those that say more come first.
-/

set_option autoImplicit false

namespace Rulebook

inductive LogLevel where
  | off
  | error
  | warn
  | info
  | debug
  | trace
  deriving DecidableEq, Repr

namespace LogLevel

def all : List LogLevel := [.off, .error, .warn, .info, .debug, .trace]

def name : LogLevel → String
  | .off => "off"
  | .error => "error"
  | .warn => "warn"
  | .info => "info"
  | .debug => "debug"
  | .trace => "trace"

def ofText? (s : String) : Option LogLevel :=
  (all.zipIdx.find? fun (level, k) =>
    level.name = Setting.lower s || Setting.natural? s = some k).map (·.1)

end LogLevel

/-- What a field must be. A text that is no single value is a regular expression. -/
inductive FieldValue where
  | bool (b : Bool)
  | real (x : Float)
  | notANumber
  | natural (n : Nat)
  | integer (n : Int)
  | pattern (s : String)

namespace FieldValue

def ofNumber (x : Float) : FieldValue := if x.isNaN then .notANumber else .real x

def ofText? (s : String) : Option FieldValue :=
  if s = "true" then some (.bool true)
  else if s = "false" then some (.bool false)
  else match (Setting.natural? s).filter (· < 0x10000000000000000), Setting.integer? s with
    | some n, _ => some (.natural n)
    | none, some n => some (.integer n)
    | none, none =>
      match Binary64.ofText? s with
      | some x => some (ofNumber x)
      | none => if Pattern.isPattern s then some (.pattern s) else none

def text : FieldValue → String
  | .bool b => if b then "true" else "false"
  | .real x => plainNumber x
  | .notANumber => "NaN"
  | .natural n => toString n
  | .integer n => toString n
  | .pattern s => s

def rank : FieldValue → Nat
  | .bool _ => 0
  | .real _ => 1
  | .notANumber => 2
  | .natural _ => 3
  | .integer _ => 4
  | .pattern _ => 5

def order (a b : FieldValue) : Ordering :=
  match a, b with
  | .bool a, .bool b => compare a.toNat b.toNat
  | .real a, .real b => if a < b then .lt else if b < a then .gt else .eq
  | .natural a, .natural b => compare a b
  | .integer a, .integer b => compare a b
  | .pattern a, .pattern b => compare a b
  | a, b => compare a.rank b.rank

end FieldValue

def optionOrder {α : Type} (order : α → α → Ordering) : Option α → Option α → Ordering
  | none, none => .eq
  | none, some _ => .lt
  | some _, none => .gt
  | some a, some b => order a b

structure LogField where
  name : String
  value : Option FieldValue

namespace LogField

def ofText? (s : String) : Option LogField :=
  match s.splitOn "=" with
  | name :: value :: _ => (FieldValue.ofText? value).map fun v => ⟨name, some v⟩
  | _ => some ⟨s, none⟩

def text (f : LogField) : String := f.name ++ (f.value.map ("=" ++ ·.text)).getD ""

def order (a b : LogField) : Ordering :=
  (compare a.value.isSome.toNat b.value.isSome.toNat).then
    ((compare a.name b.name).then (optionOrder FieldValue.order a.value b.value))

end LogField

structure LogDirective where
  target : Option String
  span : Option String
  field : Option LogField
  level : LogLevel

namespace LogDirective

structure Extent where
  start : Nat
  stop : Nat

/-- How a directive is laid out: one word, or parts in their order. A level is the last part and
goes on to the end. -/
inductive Layout where
  | word
  | parts (target span field : Option Extent) (level : Option Nat)

def size (cs : List Char) : Nat := cs.foldl (fun n c => n + c.utf8Size) 0

/-- Where the level starts behind an equals sign, if there is one. Nothing else may follow. -/
def levelStart? (start : Nat) : List Char → Option (Option Nat)
  | [] => some none
  | '=' :: _ => some (some (start + 1))
  | _ => none

def bracketLayout? (target : Option Extent) (start : Nat) (cs : List Char) : Option Layout :=
  let isSpan (c : Char) : Bool := c != ']' && c != '{'
  let stop := start + size (cs.takeWhile isSpan)
  let span : Extent := ⟨start, stop⟩
  match cs.dropWhile isSpan with
  | ']' :: cs => (levelStart? (stop + 1) cs).map (.parts target (some span) none ·)
  | '{' :: cs =>
    let isField (c : Char) : Bool := c != '}'
    let field : Extent := ⟨stop + 1, stop + 1 + size (cs.takeWhile isField)⟩
    let span := if start < stop then some span else none
    match cs.takeWhile isField, cs.dropWhile isField with
    | _ :: _, '}' :: ']' :: cs =>
      (levelStart? (field.stop + 2) cs).map (.parts target span (some field) ·)
    | _, _ => none
  | _ => none

def startsTarget (c : Char) : Bool := c = '-' || c = ':' || c = '_' || Text.isAlphanumeric c

def layout? (cs : List Char) : Option Layout :=
  match cs with
  | [] => none
  | '[' :: cs => bracketLayout? none 1 cs
  | c :: _ =>
    if !startsTarget c then none
    else
      let isTarget (c : Char) : Bool := c != '=' && c != '['
      let stop := size (cs.takeWhile isTarget)
      match cs.dropWhile isTarget with
      | [] => some .word
      | '=' :: _ => some (.parts (some ⟨0, stop⟩) none none (some (stop + 1)))
      | _ :: rest => bracketLayout? (some ⟨0, stop⟩) (stop + 1) rest

def splitAt? : Nat → List Char → Option (List Char × List Char)
  | 0, cs => some ([], cs)
  | _, [] => none
  | n, c :: cs =>
    if n < c.utf8Size then none
    else (splitAt? (n - c.utf8Size) cs).map fun (taken, rest) => (c :: taken, rest)

def cut? (cs : List Char) (e : Extent) : Option String := do
  let (_, cs) ← splitAt? e.start cs
  let (part, _) ← splitAt? (e.stop - e.start) cs
  pure (String.ofList part)

def part? {α : Type} (cs : List Char) (read? : String → Option α) :
    Option Extent → Option (Option α)
  | none => some none
  | some e => do pure (some (← read? (← cut? cs e)))

/-- A directive without a level lets everything through. -/
def levelOf? (s : String) : Option LogLevel :=
  if s.isEmpty then some .trace else LogLevel.ofText? s

/-- A level or a target by itself, or a target, a span, a field and a level. The text is laid out as
it is without space around it, but its parts are cut from the text with that space. -/
def ofText? (s : String) : Option LogDirective := do
  let cs := s.toList
  match ← layout? (Text.trim s).toList with
  | .word =>
    match LogLevel.ofText? s with
    | some level => some ⟨none, none, none, level⟩
    | none => some ⟨some s, none, none, .trace⟩
  | .parts target span field level =>
    let level ← part? cs levelOf? (level.map (⟨·, s.utf8ByteSize⟩))
    pure ⟨← part? cs some target, ← part? cs some span, ← part? cs LogField.ofText? field,
      level.getD .trace⟩

def isDynamic (d : LogDirective) : Bool := d.span.isSome || d.field.isSome

def isStatic (d : LogDirective) : Bool :=
  d.span.isNone && d.field.all fun f => f.value.isNone

def text (d : LogDirective) : String :=
  let field := (d.field.map fun f => "\x7b" ++ f.text ++ "\x7d").getD ""
  let brackets := if d.isDynamic then "[" ++ d.span.getD "" ++ field ++ "]" else ""
  let about := d.target.getD "" ++ brackets
  about ++ (if d.target.isSome || d.isDynamic then "=" else "") ++ d.level.name

/-- How much they say: longer targets say more, then a span, then a field. What they say alike is
told apart by its text. -/
def order (a b : LogDirective) : Ordering :=
  let sizes := optionOrder compare (a.target.map String.utf8ByteSize)
    (b.target.map String.utf8ByteSize)
  sizes.then <| (compare a.span.isSome.toNat b.span.isSome.toNat).then <|
    (compare a.field.isSome.toNat b.field.isSome.toNat).then <|
    (optionOrder compare a.target b.target).then <|
    (optionOrder compare a.span b.span).then (optionOrder LogField.order a.field b.field)

end LogDirective

/-- Directives in the order in which they are asked. Those that names alone decide are asked
first. -/
structure LogFilter where
  statics : List LogDirective
  dynamics : List LogDirective

namespace LogFilter

def insert (d : LogDirective) : List LogDirective → List LogDirective
  | [] => [d]
  | e :: es =>
    match d.order e with
    | .gt => d :: e :: es
    | .eq => d :: es
    | .lt => e :: insert d es

def ofList (ds : List LogDirective) : LogFilter where
  statics := (ds.filter (·.isStatic)).foldl (fun es d => insert d es) []
  dynamics := (ds.filter (·.isDynamic)).foldl (fun es d => insert d es) []

def ofText? (s : String) : Option LogFilter :=
  (((s.splitOn ",").filter (· != "")).mapM LogDirective.ofText?).map ofList

def text (f : LogFilter) : String :=
  ",".intercalate ((f.statics ++ f.dynamics).map LogDirective.text)

def firstOf (texts : List String) : LogFilter :=
  (texts.findSome? ofText?).getD (ofList [⟨none, none, none, .info⟩])

end LogFilter

end Rulebook
