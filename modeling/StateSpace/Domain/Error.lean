/-!
# StateSpace.Domain.Error

What can go wrong with operations on abstract states.
-/

namespace StateSpace

inductive Domain.Error where
  /-- The domain has no least upper bounds to offer. -/
  | unsupportedJoin (domain : String)
deriving DecidableEq, Repr

def Domain.Error.message : Domain.Error → String
  | .unsupportedJoin domain => s!"join is not supported by {domain}"

end StateSpace
