import Std.Data.ExtTreeMap
import Std.Data.ExtTreeSet
import StateSpace.Certificate.Environment
import StateSpace.Certificate.Violation
import StateSpace.Reached

/-!
# StateSpace.Certificate.Progress

The bookkeeping of a check, and a measure of the work that is left.

`Progress.remaining` counts four for every node that was not reached, one for every place in the
waitlist, two more for a place whose state may have to be postponed, and two for every postponed
state. A state that is admitted gives up four and takes at most three; a state that is postponed
gives up three and takes two; a postponed state that waits again gives up two and takes one.
-/

namespace StateSpace
namespace Certificate

open Std

abbrev StateIds := ExtTreeSet StateId

structure Progress (κ π : Type) where
  reached : Reached StateId π
  /-- Admitted states that were not looked at yet. -/
  fresh : StateIds := ∅
  /-- Claimed successors that could not be admitted, since some of their predecessors were not
  looked at yet. -/
  blocked : StateIds := ∅
  /-- Covered states whose covering state was not reached when they were looked at. -/
  postponed : StateIds := ∅
  /-- The claimed predecessors of every admitted state. -/
  admittedParents : ExtTreeMap StateId (List StateId) := ∅
  /-- States taken from the waitlist and looked at. -/
  iterations : Nat := 0
  /-- How often the waitlist was worked off. -/
  passes : Nat := 0
  history : History κ := []

namespace Progress

variable {κ π σ : Type}

/-- The first pass, of which the root is all that is admitted. -/
def start (reached : Reached StateId π) (root : StateId) : Progress κ π where
  reached
  fresh := {root}
  admittedParents := {(root, [])}
  passes := 1

def record (p : Progress κ π) (e : Event κ) : Progress κ π :=
  { p with history := e :: p.history }

def statistics (p : Progress κ π) : List String :=
  [s!"Number of iterations:       {p.iterations}", s!"Number of passes:           {p.passes}"]

end Progress

def unreached {σ π : Type} (g : Graph σ) (r : Reached StateId π) : List StateId :=
  g.ids.filter (· ∉ r)

/-- The work that a place in the waitlist stands for. -/
def weight {σ π : Type} (g : Graph σ) (r : Reached StateId π) (id : StateId) : Nat :=
  match g.coveredBy? id with
  | some c => if c ∈ r then 1 else 3
  | none => 1

/-- The work that the waitlist stands for. -/
def queued {σ π : Type} (g : Graph σ) (r : Reached StateId π) : List StateId → Nat
  | [] => 0
  | id :: rest => weight g r id + queued g r rest

/-- The work that is left. -/
def Progress.remaining {κ π σ : Type} (g : Graph σ) (p : Progress κ π) : Nat :=
  4 * (unreached g p.reached).length + queued g p.reached p.reached.waitlist +
    2 * p.postponed.size

end Certificate
end StateSpace
