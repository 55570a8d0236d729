/-!
# StateSpace.Fault

Two ways in which an operation can give no result:

* an error of its own, which its callers expect and handle;
* `Fault` — a rule that callers have to keep was broken, so that no result makes sense.

`Failure ε` joins the two for operations that know both.
-/

namespace StateSpace

/-- A broken rule between an operation and its caller. -/
inductive Fault where
  /-- A place outside a table of the given length. -/
  | outOfBounds (length index : Nat)
  /-- An edge from a state that the graph does not hold. -/
  | unknownParent (id : Nat)
  /-- An edge to a state that the graph does not hold. -/
  | unknownChild (id : Nat)
  /-- A covering link at or to a state that the graph does not hold. -/
  | unknownState (id : Nat)
  /-- Two composite states of different arity were compared. -/
  | arityDiffers
  /-- Composite states of another arity than their domain were compared. -/
  | arityUnfit
  /-- A composite domain without components. -/
  | noComponents
  /-- A number of seconds beyond every duration. -/
  | durationOverflow
  /-- Seconds and nanoseconds that are together beyond every duration. -/
  | partsOverflow
deriving DecidableEq, Repr

def Fault.message : Fault → String
  | .outOfBounds length index =>
    s!"index out of bounds: the len is {length} but the index is {index}"
  | .unknownParent id => s!"Unknown parent @{id}"
  | .unknownChild id => s!"Unknown child @{id}"
  | .unknownState id => s!"Unknown state @{id}"
  | .arityDiffers => "Composite states of different arity cannot be compared"
  | .arityUnfit => "Composite state arity does not match the number of sub-domains"
  | .noComponents => "Composite domain needs at least one sub-domain"
  | .durationOverflow =>
    "cannot convert float seconds to Duration: value is either too big or NaN"
  | .partsOverflow => "overflow in Duration::new"

/-- Why an operation gave no result: an expected error, or a broken rule. -/
inductive Failure (ε : Type) where
  | error (e : ε)
  | fault (f : Fault)
deriving DecidableEq, Repr

/-- The same failure with its expected error carried into another type. -/
def Failure.mapError {ε δ : Type} (f : ε → δ) : Failure ε → Failure δ
  | .error e => .error (f e)
  | .fault x => .fault x

end StateSpace
