import StateSpace.Certificate.Remaining

/-!
# StateSpace.Certificate.Check

Checking a certificate: a claimed graph is explored again from its root. Instead of computing
successors and coverings, the check has an oracle confirm the claimed ones.

* `run` — takes steps until one of them ends the check;
* `check` — checks a graph, starting from a reached set that holds the root;
* `checkGraph` — the same from a new reached set.
-/

namespace StateSpace
namespace Certificate

variable {κ π σ : Type}

structure Report (κ π : Type) where
  outcome : Outcome
  progress : Progress κ π

/-- Takes steps until one of them ends the check. Every step that leads on leaves less work. -/
def run (env : Environment κ σ) (g : Graph σ) (precision : π) (p : Progress κ π) :
    Report κ π :=
  match _h : step env g precision p with
  | .next p' => run env g precision p'
  | .halt p' outcome => ⟨outcome, p'⟩
termination_by p.remaining g
decreasing_by exact remaining_step_lt _h

/-- Checks a graph. New states take over the precision of the root. -/
def check (env : Environment κ σ) (g : Graph σ) (reached : Reached StateId π) : Report κ π :=
  match reached.entries with
  | [] => ⟨.error (.error .emptyReached), { reached }⟩
  | (first, precision) :: _ =>
    if first = g.root then run env g precision (.start reached g.root)
    else ⟨.error (.error (.rootMismatch g.root first)), { reached }⟩

def checkGraph (env : Environment κ σ) (g : Graph σ) (precision : π) : Report κ π :=
  check env g (Reached.empty.add g.root precision)

theorem run_of_next {env : Environment κ σ} {g : Graph σ} {precision : π}
    {p p' : Progress κ π} (h : step env g precision p = .next p') :
    run env g precision p = run env g precision p' := by
  rw [run]
  split
  · rename_i h'
    rw [h] at h'
    cases h'
    rfl
  · rename_i h'
    rw [h] at h'
    cases h'

theorem run_of_halt {env : Environment κ σ} {g : Graph σ} {precision : π}
    {p p' : Progress κ π} {outcome : Outcome}
    (h : step env g precision p = .halt p' outcome) :
    run env g precision p = ⟨outcome, p'⟩ := by
  rw [run]
  split
  · rename_i h'
    rw [h] at h'
    cases h'
  · rename_i h'
    rw [h] at h'
    cases h'
    rfl

end Certificate
end StateSpace
