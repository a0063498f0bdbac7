import Rulebook.Engine.Basic
/-!
A stream of requests, one a line: a rule set to evaluate and a record. Each line that is not blank
is answered by one line, a receipt or an error.
-/

set_option autoImplicit false

namespace Rulebook

structure Request where
  ruleSetId : String
  record : Record

namespace Request

def ofJson? (j : Json) : Option Request := do
  match ← j.structure? ["ruleset_id", "record"] with
  | [id, record] =>
    pure ⟨← Json.required? Json.text? id, ← Json.withDefault? .empty Record.ofObject? record⟩
  | _ => none

def read? (s : String) : Option Request := (Json.read? s).bind ofJson?

end Request

inductive Answer where
  | receipt (r : Receipt)
  | failure (e : EngineError)
  | unreadable (reason : String)

namespace Answer

def error (code message : String) : Json :=
  .fields [("code", .text code), ("message", .text message)]

def toJson : Answer → Json
  | .receipt r => r.toJson
  | .failure e => error e.code e.message
  | .unreadable reason => error "INVALID_REQUEST" reason

def text (a : Answer) : String := a.toJson.compact

end Answer

namespace Engine

/-- The evaluation that a line asks for, or the answer if there is none. Of a line that is no
request the reader of JSON says `reason line`. -/
def consider (e : Engine) (reason : String → String) (stamp : Stamp) (line : String) :
    Except Answer Evaluation :=
  match Request.read? line with
  | none => .error (.unreadable (reason line))
  | some q => (e.decide stamp q.ruleSetId q.record).mapError .failure

def answer (e : Engine) (disk : Disk) (reason : String → String) (stamp : Stamp)
    (fault : Option WriteFault) (line : String) : Answer × Engine × Disk :=
  match e.consider reason stamp line with
  | .error a => (a, e, disk)
  | .ok v =>
    let (receipt, e, disk) := e.record disk fault v
    (.receipt receipt, e, disk)

/-- Blank lines are passed over. The line at position `k` gets `stamp k` and meets `fault k`. -/
def answerFrom (k : Nat) (e : Engine) (disk : Disk) (reason : String → String)
    (stamp : Nat → Stamp) (fault : Nat → Option WriteFault) :
    List String → List Answer × Engine × Disk
  | [] => ([], e, disk)
  | line :: lines =>
    if Text.allBlank line then answerFrom (k + 1) e disk reason stamp fault lines
    else
      let (a, e, disk) := e.answer disk reason (stamp k) (fault k) line
      let (as, e, disk) := answerFrom (k + 1) e disk reason stamp fault lines
      (a :: as, e, disk)

def answerAll (e : Engine) (disk : Disk) (reason : String → String) (stamp : Nat → Stamp)
    (fault : Nat → Option WriteFault) (lines : List String) : List Answer × Engine × Disk :=
  answerFrom 0 e disk reason stamp fault lines

end Engine

end Rulebook
