import Rulebook.DecisionLog
/-!
Writers: what takes bytes in pieces, with faults. A line is appended as a whole; what was taken of a
line that breaks off is cut off again.
-/

set_option autoImplicit false

namespace Rulebook

/-- How a write ends. One that is interrupted has taken nothing and is made again. -/
inductive WriteReply where
  | took (count : Nat)
  | interrupted
  | failed (e : LogError)

/-- What a writer in some state answers, and the state in which it is then. -/
structure Writer (σ : Type) where
  write : Bytes → σ → WriteReply × σ
  flush : σ → Except LogError Unit × σ
  size : σ → Except LogError Nat
  truncate : Nat → σ → Except LogError Unit × σ
  /-- How often writes can still be interrupted on end. -/
  patience : σ → Nat
  patience_lt : ∀ bytes s s', write bytes s = (.interrupted, s') → patience s' < patience s

namespace Writer

variable {σ : Type}

def takesNothing : LogError := .unavailable "failed to write whole buffer"

def writeAll (w : Writer σ) (bytes : Bytes) (s : σ) : Except LogError Unit × σ :=
  match bytes with
  | [] => (.ok (), s)
  | b :: bs =>
    match _ : w.write (b :: bs) s with
    | (.failed e, s) => (.error e, s)
    | (.interrupted, s) => w.writeAll (b :: bs) s
    | (.took 0, s) => (.error takesNothing, s)
    | (.took (n + 1), s) => w.writeAll (bs.drop n) s
termination_by (bytes.length, w.patience s)
decreasing_by
  · exact .right _ (w.patience_lt _ _ _ ‹_›)
  · exact .left _ _ (by rw [List.length_drop, List.length_cons]; omega)

def writeLine (w : Writer σ) (line : Bytes) (s : σ) : Except LogError Unit × σ :=
  match w.writeAll line s with
  | (.ok (), s) => w.flush s
  | (.error e, s) => (.error e, s)

/-- Appends a line, or cuts the writer off where it ended before. Whether that succeeds is not looked
at: the call has failed in any case. -/
def append (w : Writer σ) (line : Bytes) (s : σ) : Except LogError Unit × σ :=
  match w.size s with
  | .error e => (.error e, s)
  | .ok size =>
    match w.writeLine line s with
    | (.ok (), s) => (.ok (), s)
    | (.error e, s) => (.error e, (w.truncate size s).2)

def appendAll (w : Writer σ) (s : σ) : List Bytes → List (Except LogError Unit) × σ
  | [] => ([], s)
  | line :: lines =>
    let (result, s) := w.append line s
    let (results, s) := w.appendAll s lines
    (result :: results, s)

end Writer

end Rulebook
