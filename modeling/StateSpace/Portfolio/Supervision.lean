/-!
# StateSpace.Portfolio.Supervision

Waiting for the analyses of a portfolio.

The supervisor counts how many completions are outstanding. It waits for the next one, but only for
a while, and then it looks whether the portfolio was asked to stop. When such a wait is over and the
request had been seen before, the supervisor loses patience: it stops waiting and has all analyses
cancelled. So a request leaves the analyses the time of one full wait to stop by themselves.
-/

namespace StateSpace
namespace Portfolio

inductive Supervision where
  /-- Some completions are outstanding; `requestSeen` if a request to stop was seen. -/
  | waiting (outstanding : Nat) (requestSeen : Bool)
  | complete
  /-- The supervisor lost patience with this many completions outstanding. -/
  | forced (outstanding : Nat)
deriving DecidableEq, Repr

namespace Supervision

/-- Goes on waiting, if there is anything to wait for. -/
def await (outstanding : Nat) (requestSeen : Bool) : Supervision :=
  if outstanding = 0 then .complete else .waiting outstanding requestSeen

def receive : Supervision → Supervision
  | .waiting outstanding requestSeen => await (outstanding - 1) requestSeen
  | .complete => .complete
  | .forced outstanding => .forced outstanding

/-- A wait was over before a completion came in; `requested` if there is a request to stop. -/
def timeout (requested : Bool) : Supervision → Supervision
  | .waiting outstanding requestSeen =>
    if requestSeen then .forced outstanding else .waiting outstanding requested
  | .complete => .complete
  | .forced outstanding => .forced outstanding

def isWaiting : Supervision → Bool
  | .waiting _ _ => true
  | _ => false

/-- The number of completions that the supervisor gave up on. -/
def givenUp? : Supervision → Option Nat
  | .forced outstanding => some outstanding
  | _ => none

end Supervision

end Portfolio
end StateSpace
