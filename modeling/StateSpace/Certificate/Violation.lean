import StateSpace.Analysis
import StateSpace.Graph.Basic

/-!
# StateSpace.Certificate.Violation

What comes of checking a certificate.

* `Violation` — the reasons a certificate is rejected for;
* `Verdict` — the certificate is valid, or it is rejected;
* `Certificate.Error` — why there is no verdict.
-/

namespace StateSpace
namespace Certificate

inductive Violation where
  | propertyViolated (state : StateId)
  /-- The state has other successors than it claims. -/
  | successorsDiffer (state : StateId)
  /-- Following the covering links from the state never ends. -/
  | coveringCycle (state : StateId)
  | notCovered (state covering : StateId)
  /-- The state that is claimed to cover this one was never reached. -/
  | coveringMissing (state covering : StateId)
  /-- The state does not claim the predecessors it was found from. -/
  | parentsConflict (state : StateId)
  /-- Claimed successors that could not be admitted, for want of some of their predecessors. -/
  | parentsUnexplored (states : List StateId)
deriving DecidableEq, Repr

/-- How names of states are listed. -/
def namesText (states : List StateId) : String :=
  "[" ++ ", ".intercalate (states.map fun s => s!"StateId({s})") ++ "]"

def Violation.message : Violation → String
  | .propertyViolated s => s!"state {s.text} violates the property"
  | .successorsDiffer s => s!"state {s.text} has other successors than claimed"
  | .coveringCycle s => s!"covering relation has a cycle through state {s.text}"
  | .notCovered s c => s!"state {s.text} is not covered by {c.text}"
  | .coveringMissing s c =>
    s!"covering state {c.text} of {s.text} was not found in the reached set"
  | .parentsConflict s => s!"state {s.text} has other parents than claimed"
  | .parentsUnexplored states =>
    s!"states {namesText states} are claimed successors but some of their parents were never explored"

inductive Verdict where
  | valid
  | invalid (v : Violation)
deriving DecidableEq, Repr

inductive Error where
  | interrupted (i : Interruption)
  | oracle (e : Analysis.Error)
  | emptyReached
  | rootMismatch (expected found : StateId)
deriving DecidableEq, Repr

def Error.message : Error → String
  | .interrupted i => i.message
  | .oracle e => s!"proof checking oracle failed: {e.message}"
  | .emptyReached => "reached set must initially contain the root of the certificate"
  | .rootMismatch expected found =>
    s!"reached set starts at {found.text}, but the certificate root is {expected.text}"

/-- The failure of an oracle as a failure of the check. An interrupted oracle interrupts it. -/
def Error.ofAnalysis : Analysis.Error → Error
  | .interrupted i => .interrupted i
  | .configuration e => .oracle (.configuration e)
  | .domain e => .oracle (.domain e)
  | .construction text => .oracle (.construction text)
  | .failed text => .oracle (.failed text)

end Certificate
end StateSpace
