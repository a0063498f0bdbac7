import Rulebook.Condition
/-!
Conditions written as text: `credit_score >= 700`, `input['credit score'] >= 700`. A field, an
operator symbol and a literal, blanks between them; nothing in a literal is ever evaluated.
-/

set_option autoImplicit false

namespace Rulebook

structure Expression where
  field : String
  operator : Operator
  literal : Value
  deriving BEq

namespace Expression

open Text (isBlank trimStart trimEnd)

def isNameStart (c : Char) : Bool := c.isAlpha || c = '_'

def isNameRest (c : Char) : Bool := c.isAlphanum || c = '_' || c = '.'

def isQuote (c : Char) : Bool := c = '\'' || c = '"'

def readKey (cs : List Char) : Option (List Char × List Char) :=
  match trimStart cs with
  | q :: cs =>
    if isQuote q then
      match cs.takeWhile (!isQuote ·), cs.dropWhile (!isQuote ·) with
      | [], _ => none
      | key, _ :: cs =>
        match trimStart cs with
        | ']' :: rest => some (key, rest)
        | _ => none
      | _, [] => none
    else none
  | [] => none

def readName : List Char → Option (List Char × List Char)
  | c :: cs =>
    if isNameStart c then some (c :: cs.takeWhile isNameRest, cs.dropWhile isNameRest) else none
  | [] => none

def readField (cs : List Char) : Option (List Char × List Char) :=
  match cs with
  | 'i' :: 'n' :: 'p' :: 'u' :: 't' :: '[' :: rest => readKey rest
  | cs => readName cs

/-- The operators whose symbol stands at the front, the longer symbol first. -/
def readOperators : List Char → List (Operator × List Char)
  | '=' :: '=' :: rest => [(.eq, rest)]
  | '!' :: '=' :: rest => [(.ne, rest)]
  | '>' :: '=' :: rest => [(.ge, rest), (.gt, '=' :: rest)]
  | '<' :: '=' :: rest => [(.le, rest), (.lt, '=' :: rest)]
  | '>' :: rest => [(.gt, rest)]
  | '<' :: rest => [(.lt, rest)]
  | _ => []

/-- The text of the literal: what is left without the blanks around it, on one line. Where nothing
but blanks is left, a blank that is no line end stands for it. -/
def literalText? (cs : List Char) : Option (List Char) :=
  match trimEnd (trimStart cs) with
  | [] => if cs.any (· != '\n') then some [] else none
  | text => if text.contains '\n' then none else some text

def unquote? (quote : Char) (cs : List Char) : Option (List Char) :=
  if 2 ≤ cs.length ∧ cs.head? = some quote ∧ cs.getLast? = some quote then
    some (cs.drop 1).dropLast
  else none

def wordLiteral (cs : List Char) : Except ConditionError Value :=
  let word := String.ofList cs
  if word = "true" ∨ word = "True" then .ok (.boolean true)
  else if word = "false" ∨ word = "False" then .ok (.boolean false)
  else match Binary64.finiteOfText? word with
    | some x => .ok (.number x)
    | none => if cs.any isBlank then .error (.unparsable word) else .ok (.text word)

/-- Text between quotes is never looked into; a quote anywhere else at an end is an error. -/
def literalOfText (cs : List Char) : Except ConditionError Value :=
  let unparsable : Except ConditionError Value := .error (.unparsable (String.ofList cs))
  if cs.isEmpty then unparsable
  else match unquote? '\'' cs with
    | some inner => if inner.contains '\'' then unparsable else .ok (.text (String.ofList inner))
    | none =>
      match unquote? '"' cs with
      | some inner => if inner.contains '"' then unparsable else .ok (.text (String.ofList inner))
      | none =>
        if cs.head?.any isQuote || cs.getLast?.any isQuote then unparsable else wordLiteral cs

/-- The parts of an expression, literal not yet read. A symbol that leaves no text for a literal
gives way to a shorter one. -/
def split? (cs : List Char) : Option (List Char × Operator × List Char) :=
  match readField (trimStart cs) with
  | none => none
  | some (field, rest) =>
    (readOperators (trimStart rest)).findSome? fun (operator, rest) =>
      (literalText? rest).map fun literal => (field, operator, literal)

def read (s : String) : Except ConditionError Expression :=
  match split? s.toList with
  | none => .error (.unparsable s)
  | some (field, operator, literal) =>
    (literalOfText literal).map fun v =>
      ⟨String.ofList (trimEnd (trimStart field)), operator, v⟩

def toCondition (e : Expression) : Except ConditionError Condition :=
  Condition.build e.field e.operator.symbol e.literal

end Expression

end Rulebook
