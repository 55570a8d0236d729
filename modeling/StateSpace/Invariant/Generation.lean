import StateSpace.Invariant.Supplier

/-!
# StateSpace.Invariant.Generation

Analyses that run again and again, each run doing what the next entry of a script says, and publish
invariants after every run that did not fail. The last entry of a script is repeated.
-/

namespace StateSpace
namespace Invariant

/-- What a run finds, and how it ends. -/
structure ScriptedRun (α : Type) where
  found : List α := []
  result : Except Analysis.Error Status := .ok .soundAndPrecise

/-- What a run with this entry makes of the states that were reached before. -/
def ScriptedRun.algorithm {α : Type} (entry : ScriptedRun α) : Algorithm (List α) :=
  fun reached => (reached ++ entry.found, entry.result)

structure Generation (κ α φ : Type) where
  publisher : Publisher κ (List α) φ
  script : List (ScriptedRun α)
  reached : List α := []

namespace Generation

variable {κ α φ : Type}

def next : List (ScriptedRun α) → ScriptedRun α × List (ScriptedRun α)
  | [] => ({}, [])
  | [last] => (last, [last])
  | entry :: rest => (entry, rest)

def run (g : Generation κ α φ) (n : Network κ φ) :
    Network κ φ × Generation κ α φ × Except Analysis.Error Status :=
  let (entry, rest) := next g.script
  let (network, reached, result) := g.publisher.run entry.algorithm n g.reached
  (network, { g with script := rest, reached }, result)

end Generation

end Invariant
end StateSpace
