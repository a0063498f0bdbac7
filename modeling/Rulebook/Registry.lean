import Rulebook.RuleSet.Compile
/-!
The rule sets that are defined, by identifier. An identifier is given once, and a rule set is never
changed.
-/

set_option autoImplicit false

namespace Rulebook

structure Registry where
  table : Table RuleSet

namespace Registry

def empty : Registry := ⟨.empty⟩

def size (g : Registry) : Nat := g.table.size

def isEmpty (g : Registry) : Bool := g.table.isEmpty

def get? (g : Registry) (id : String) : Option RuleSet := g.table.get? id

def contains (g : Registry) (id : String) : Bool := g.table.contains id

/-- Compiles a definition under an identifier that is still free. Nothing is registered. -/
def prepare (g : Registry) (now : Instant) (d : Definition) : Except DefinitionError RuleSet :=
  if g.contains d.id then .error (.duplicateId d.id) else d.compile now

def insert (g : Registry) (s : RuleSet) : Except DefinitionError Registry :=
  if g.contains s.id then .error (.duplicateId s.id) else .ok ⟨g.table.insert s.id s⟩

def define (g : Registry) (now : Instant) (d : Definition) :
    Except DefinitionError (RuleSet × Registry) := do
  let s ← g.prepare now d
  let g ← g.insert s
  .ok (s, g)

def earlier (s t : RuleSet) : Bool :=
  match compare s.definedAt t.definedAt with
  | .lt => true
  | .gt => false
  | .eq => decide (s.id ≤ t.id)

def list (g : Registry) : List RuleSet := g.table.values.mergeSort earlier

/-- Defines what can be defined, the rest is passed over; the identifiers of what was defined.
The definition at position `k` is compiled at time `clock k`. -/
def loadFrom (clock : Nat → Instant) (k : Nat) (g : Registry) :
    List Definition → Registry × List String
  | [] => (g, [])
  | d :: ds =>
    match g.define (clock k) d with
    | .ok (_, g) =>
      let (g, ids) := loadFrom clock (k + 1) g ds
      (g, d.id :: ids)
    | .error _ => loadFrom clock (k + 1) g ds

def loadBatch (g : Registry) (clock : Nat → Instant) (ds : List Definition) :
    Registry × List String :=
  loadFrom clock 0 g ds

structure Statistics where
  ruleSets : Nat
  rules : Nat
  averageFields : Float

def statistics (g : Registry) : Statistics where
  ruleSets := g.size
  rules := (g.table.values.flatMap (·.rules)).length
  averageFields :=
    if g.isEmpty then 0
    else Binary64.ofInt (g.table.values.flatMap (·.requiredFields)).length / Binary64.ofInt g.size

end Registry

end Rulebook
