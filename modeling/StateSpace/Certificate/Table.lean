import StateSpace.Certificate.Oracle
import StateSpace.Certificate.Property

/-!
# StateSpace.Certificate.Table

An oracle that is written down as a table, keyed by the names of states. What the table does not
mention is confirmed.
-/

namespace StateSpace
namespace Certificate

structure Table where
  /-- The names of the successors of a state, in any order. -/
  successors : List (String × List String) := []
  successorsFail : List (String × Analysis.Error) := []
  /-- Pairs of a state and one that does not cover it. -/
  uncovered : List (String × String) := []
  coveredFails : List (String × Analysis.Error) := []
deriving DecidableEq, Repr

namespace Table

def confirmsSuccessors (t : Table) (state : String) (claimed : List String) : Bool :=
  match t.successors.lookup state with
  | some names => claimed.isPerm names
  | none => true

/-- The oracle of the table. It asks no questions. -/
def oracle {κ : Type} (t : Table) : Oracle κ ProgramState where
  successors state claimed :=
    .known <| match t.successorsFail.lookup state.name with
      | some e => .error (.error e)
      | none => .ok (t.confirmsSuccessors state.name (claimed.map (·.name)))
  covered a b :=
    .known <| match t.coveredFails.lookup a.name with
      | some e => .error (.error e)
      | none => .ok ((a.name, b.name) ∉ t.uncovered)

end Table

end Certificate
end StateSpace
