import StateSpace.Configuration.Error
import StateSpace.Domain.Error
import StateSpace.Scope
import StateSpace.Status

/-!
# StateSpace.Analysis

How an analysis ends.

* `Analysis.Error` — the failures of a single analysis;
* `Analysis.Ending` — all ways in which the run of an analysis can end.
-/

namespace StateSpace
namespace Analysis

/-- Failures of a single analysis. -/
inductive Error where
  | interrupted (i : Interruption)
  | configuration (e : Configuration.Error)
  | domain (e : Domain.Error)
  | construction (text : String)
  | failed (text : String)
deriving DecidableEq, Repr

def Error.message : Error → String
  | .interrupted i => i.message
  | .configuration e => s!"invalid configuration: {e.message}"
  | .domain e => e.message
  | .construction text => s!"could not create analysis components: {text}"
  | .failed text => text

/-- How the run of an analysis ended. -/
inductive Ending where
  | finished (status : Status)
  | failed (e : Error)
  /-- The analysis broke off without any result. -/
  | crashed
deriving DecidableEq, Repr

/-- The run settled the question. -/
def Ending.isConclusive : Ending → Bool
  | .finished status => status.isConclusive
  | _ => false

end Analysis

end StateSpace
