import StateSpace.Analysis
import StateSpace.Domain.Basic

/-!
# StateSpace.Certificate.Oracle

Oracles: they confirm or deny single steps of a certificate.

* `Oracle` — confirms claimed successors and claimed coverings;
* `Oracle.ofDomain` — the oracle of a domain and a transfer function. Claimed successors are
  confirmed if every computed successor is the same as some claimed one, and the other way round;
  a covering is confirmed if it agrees with the order.
-/

namespace StateSpace
namespace Certificate

/-- What an oracle answers, with the questions of type `κ` it asked for it. -/
abbrev Reply (κ : Type) := Asked κ (Except (Failure Analysis.Error) Bool)

structure Oracle (κ σ : Type) where
  /-- The listed states are exactly the successors of the state. -/
  successors : σ → List σ → Reply κ
  /-- The first state is covered by the second one. -/
  covered : σ → σ → Reply κ

namespace Oracle

variable {κ σ : Type}

/-- Every state of the first list is the same as some state of the second one. -/
def eachMatches (d : Domain κ σ) (computed claimed : List σ) : Asked κ (Except Fault Bool) :=
  .all (fun c => .any (fun s => d.same c s) claimed) computed

/-- Every state of the second list is the same as some state of the first one. -/
def eachMatched (d : Domain κ σ) (computed claimed : List σ) : Asked κ (Except Fault Bool) :=
  .all (fun s => .any (fun c => d.same c s) computed) claimed

/-- Both directions; the second one is looked at in any case. -/
def sameStates (d : Domain κ σ) (computed claimed : List σ) : Asked κ (Except Fault Bool) :=
  (eachMatches d computed claimed).andThen fun a =>
    (eachMatched d computed claimed).andThen fun b => .known (.ok (a && b))

def ofDomain (d : Domain κ σ) (transfer : σ → Except Analysis.Error (List σ)) : Oracle κ σ where
  successors state claimed :=
    match transfer state with
    | .error e => .known (.error (.error e))
    | .ok computed => (sameStates d computed claimed).mapError .fault
  covered a b := (d.below a b).mapError .fault

end Oracle

end Certificate
end StateSpace
