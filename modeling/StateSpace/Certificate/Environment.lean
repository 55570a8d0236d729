import StateSpace.Certificate.Oracle
import StateSpace.Certificate.Property
import StateSpace.Graph.Basic

/-!
# StateSpace.Certificate.Environment

What a check sees of the world.

* `Event` — one thing that happened during a check; `History` — what happened so far;
* `Environment` — the property, the oracle and the requests to stop. Each may change its mind in
  the course of a check, so all of them are functions of the history;
* `Environment.steady` — a property and an oracle that never change, and no request to stop.
-/

namespace StateSpace
namespace Certificate

inductive Event (κ : Type) where
  | taken (state : StateId)
  | property (state : StateId) (holds : Bool)
  | successors (state : StateId) (claimed : List StateId) (reply : Reply κ)
  | covering (covered covering : StateId) (reply : Reply κ)

/-- What happened so far, the latest event first. -/
abbrev History (κ : Type) := List (Event κ)

structure Environment (κ σ : Type) where
  satisfies : History κ → Property σ
  oracle : History κ → Oracle κ σ
  /-- The reason to stop, if there is a request. -/
  stop? : History κ → Option String

def Environment.steady {κ σ : Type} (oracle : Oracle κ σ) (property : Property σ) :
    Environment κ σ where
  satisfies _ := property
  oracle _ := oracle
  stop? _ := none

end Certificate
end StateSpace
