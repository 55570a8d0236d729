import StateSpace.Certificate.Check

/-!
# StateSpace.Certificate.Session

Several checks in a row, under one rule of when to stop.

* `StopRule` — there is a request to stop from the beginning, or once the property of a certain
  state was asked for;
* `Session.checkRepeatedly` — checks a graph again and again; each check takes over the reached set
  of the one before, and a request to stop stays.
-/

namespace StateSpace
namespace Certificate

variable {κ π σ : Type}

inductive StopRule (σ : Type) where
  | never
  | always (reason : String)
  /-- From the moment when the property of such a state was asked for. -/
  | once (state : σ → Bool) (reason : String)

structure Session (κ σ : Type) where
  oracle : Oracle κ σ
  property : Property σ
  stop : StopRule σ := .never

namespace Session

def asked (g : Graph σ) (which : σ → Bool) (h : History κ) : Bool :=
  h.any fun
    | .property id _ => (g.state? id).any which
    | _ => false

/-- The session was asked to stop, in a check with this history or, as `before` tells, earlier. -/
def stopped (s : Session κ σ) (g : Graph σ) (before : Bool) (h : History κ) : Bool :=
  match s.stop with
  | .never => false
  | .always _ => true
  | .once state _ => before || asked g state h

def stopReason (s : Session κ σ) : String :=
  match s.stop with
  | .never => ""
  | .always reason => reason
  | .once _ reason => reason

def environment (s : Session κ σ) (g : Graph σ) (before : Bool) : Environment κ σ where
  satisfies _ := s.property
  oracle _ := s.oracle
  stop? h := if s.stopped g before h then some s.stopReason else none

def checkRepeatedly (s : Session κ σ) (g : Graph σ) :
    (count : Nat) → (before : Bool) → Reached StateId π → List (Report κ π)
  | 0, _, _ => []
  | count + 1, before, reached =>
    let report := check (s.environment g before) g reached
    report :: s.checkRepeatedly g count (s.stopped g before report.progress.history)
      report.progress.reached

def checkGraphRepeatedly (s : Session κ σ) (g : Graph σ) (precision : π) :
    (count : Nat) → (before : Bool) → List (Report κ π)
  | 0, _ => []
  | count + 1, before =>
    let report := checkGraph (s.environment g before) g precision
    report :: s.checkGraphRepeatedly g precision count
      (s.stopped g before report.progress.history)

end Session

end Certificate
end StateSpace
