import StateSpace.Configuration.Seconds

/-!
# StateSpace.Portfolio.Options

The options of a portfolio: references to the configurations of its analyses, and how long to wait
between two looks at them.
-/

namespace StateSpace
namespace Portfolio

/-- The option that lists the references, separated by commas. -/
def referencesOption : String := "parallelAlgorithm.configFiles"

/-- The option for the time between two looks, in seconds. -/
def pollOption : String := "parallelAlgorithm.pollInterval"

/-- The option that makes an analysis a portfolio. -/
def parallelOption : String := "analysis.useParallelAnalyses"

/-- The option for what is to be shown. No analysis of a portfolio may change it. -/
def specificationOption : String := "specification"

structure Error where
  cause : Configuration.Error
deriving DecidableEq, Repr

def Error.message (e : Error) : String := s!"invalid portfolio configuration: {e.cause.message}"

structure Options where
  /-- Kept as they are written: a malformed one concerns its own analysis only. -/
  references : List String
  poll : Duration
deriving DecidableEq, Repr

namespace Options

/-- The time between two looks, if nothing else is wanted. -/
def defaultPoll : Duration := .ofParts 10 0

def ofConfiguration (c : Configuration) : Except (Failure Configuration.Error) Options :=
  match c.list referencesOption with
  | [] => .error (.error (.missingOption referencesOption))
  | references@(_ :: _) =>
    match c.readSeconds pollOption with
    | .error e => .error e
    | .ok none => .ok { references, poll := defaultPoll }
    | .ok (some poll) => .ok { references, poll }

end Options

end Portfolio
end StateSpace
