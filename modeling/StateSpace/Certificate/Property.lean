import StateSpace.Domain.Cell
import StateSpace.Domain.Composite
import StateSpace.Number.Integer

/-!
# StateSpace.Certificate.Property

Properties that every state of a certificate must satisfy.

* `Property.noTarget` — the state is no target;
* `Property.firstAtMost` — the first cell of a composite stays below a bound;
* `ProgramState` — a named state, perhaps at a labelled program location, with known bounds for
  some variables;
* `IntervalRule` — at one label, a variable must stay within an interval.
-/

namespace StateSpace
namespace Certificate

abbrev Property (σ : Type) := σ → Bool

/-- Exactly the states that are not targets. -/
def Property.noTarget {σ : Type} [Target σ] : Property σ := fun s => !isTarget s

/-- The composite has a first cell, whose upper bound is at most `bound`. -/
def Property.firstAtMost (bound : Int) : Property (Composite Cell) :=
  fun s => (s.get? 0).any (·.high ≤ bound)

structure ProgramState where
  name : String
  label? : Option String := none
  target : Bool := false
  /-- The least and the greatest value of each variable that has known bounds. -/
  bounds : List (String × Int × Int) := []
deriving DecidableEq, Repr

instance : Target ProgramState := ⟨ProgramState.target⟩

def Property.rejecting (names : List String) : Property ProgramState :=
  fun s => s.name ∉ names

/-- At states of this label, the variable lies between two values. -/
structure IntervalRule where
  variableName : String
  label : String
  least : Int
  greatest : Int
deriving DecidableEq, Repr

inductive IntervalEnd where
  | lower
  | upper
deriving DecidableEq, Repr

namespace IntervalRule

/-- The rule with one given end. The other end is the last 64-bit number on its side. -/
def ofEnd (variableName label : String) (givenEnd : IntervalEnd) (value : Int) : IntervalRule :=
  match givenEnd with
  | .lower => { variableName, label, least := value, greatest := IntegerType.signed64.greatest }
  | .upper => { variableName, label, least := IntegerType.signed64.least, greatest := value }

/-- A state of another label satisfies the rule; one of this label needs known bounds inside. -/
def holds (r : IntervalRule) : Property ProgramState := fun s =>
  if s.label? ≠ some r.label then true
  else
    match s.bounds.lookup r.variableName with
    | some (low, high) => r.least ≤ low && high ≤ r.greatest
    | none => false

end IntervalRule

end Certificate
end StateSpace
