import StateSpace.Configuration.Value
import StateSpace.Duration
import StateSpace.Number.Shortest

/-!
# StateSpace.Configuration.Seconds

Options that hold a number of seconds: a floating-point literal above zero and below infinity. Its
duration is the nearest one in whole nanoseconds; where there is none, the number breaks a rule.
-/

namespace StateSpace
namespace Configuration

def secondsOf (key : String) : Binary64 → Except (Failure Error) Duration
  | .finite false (m + 1) e => (Duration.ofSeconds (m + 1) e).mapError .fault
  | x => .error (.error (.invalidValue key x.text "must be a positive number of seconds"))

def readSeconds (c : Configuration) (key : String) :
    Except (Failure Error) (Option Duration) :=
  match c.read key ValueReader.literal with
  | .error e => .error (.error e)
  | .ok none => .ok none
  | .ok (some x) =>
    match secondsOf key x with
    | .error e => .error e
    | .ok d => .ok (some d)

end Configuration
end StateSpace
