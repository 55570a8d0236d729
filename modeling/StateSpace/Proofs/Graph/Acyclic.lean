import Mathlib.Order.Bounds.Basic
import Mathlib.Order.WellFoundedSet
import StateSpace.Proofs.Graph.Basic

/-!
# StateSpace.Proofs.Graph.Acyclic

Graphs that can be explored from the root.

* `Graph.Acyclic`: the root leads to no cycle of edges.
* `Graph.Offers`, `Graph.Offered`: a covered node keeps its claimed successors to itself. The other
  nodes offer theirs, and an exploration follows the offers.
* `Graph.IsClosed`: what holds the root and all that its nodes offer. The offered nodes are the
  least such set (`isLeast_offered`).
* `Graph.AcyclicOffers` comes with induction along the offers: a graph has finitely many nodes, so
  going back comes to an end.
-/

namespace StateSpace
namespace Graph

open Relation

variable {σ : Type} {g : Graph σ} {a b : StateId}

/-- The root leads to no cycle of edges. -/
def Acyclic (g : Graph σ) : Prop := ∀ a, g.Explorable a → ¬ TransGen g.Edge a a

/-- The second node is a claimed successor of the first one, which is not covered. -/
def Offers (g : Graph σ) (a b : StateId) : Prop := g.coveredBy? a = none ∧ g.Edge a b

/-- The root leads to the node along offers. -/
def Offered (g : Graph σ) (a : StateId) : Prop := ReflTransGen g.Offers g.root a

/-- The root is in the set, with the claimed successors of every node in it that is not covered. -/
structure IsClosed (g : Graph σ) (X : Set StateId) : Prop where
  root : g.root ∈ X
  children : ∀ s ∈ X, g.coveredBy? s = none → ∀ e ∈ g.children s, e ∈ X

/-- No node that the root leads to is claimed by a covered node and by an uncovered one, both of
which the root leads to. -/
def Unmixed (g : Graph σ) : Prop :=
  ∀ a b e, g.Offered a → g.Offered b → g.Edge a e → g.Edge b e → g.coveredBy? a = none →
    g.coveredBy? b = none

/-- The root leads to no cycle of offers. -/
def AcyclicOffers (g : Graph σ) : Prop := ∀ a, g.Offered a → ¬ TransGen g.Offers a a

theorem Offered.holds (hr : g.InRange) (h : g.Offered a) : g.Holds a := by
  rcases h.cases_tail with rfl | ⟨q, _, hq⟩
  · exact g.holds_root
  · exact hr.children q a hq.2

theorem isLeast_offered (g : Graph σ) : IsLeast {X | g.IsClosed X} {s | g.Offered s} := by
  constructor
  · refine ⟨.refl, fun s hs hnone e he => ?_⟩
    exact ReflTransGen.tail hs ⟨hnone, he⟩
  · intro X hX s hs
    induction hs with
    | refl => exact hX.root
    | tail _ hoffer ih => exact hX.children _ ih hoffer.1 _ hoffer.2

namespace AcyclicOffers

theorem ne_root (h : g.AcyclicOffers) (ha : g.Offered a) (he : g.Offers a b) : b ≠ g.root := by
  rintro rfl
  exact h g.root .refl (TransGen.tail' ha he)

/-- What passes from all who offer a node to that node holds of everything the root leads to. -/
theorem induction {P : StateId → Prop} (h : g.AcyclicOffers) (hr : g.InRange)
    (hstep : ∀ a, g.Offered a → (∀ q, g.Offered q → g.Offers q a → P q) → P a) :
    ∀ a, g.Offered a → P a := by
  let Before (a b : StateId) : Prop := g.Offered a ∧ TransGen g.Offers a b
  have : IsStrictOrder StateId Before :=
    { irrefl := fun a ha => h a ha.1 ha.2
      trans := fun a b c hab hbc => ⟨hab.1, hab.2.trans hbc.2⟩ }
  have hwf : {a | a < g.size}.WellFoundedOn Before := (Set.finite_lt_nat g.size).wellFoundedOn
  intro a ha
  refine hwf.induction (P := fun a => g.Offered a → P a) (ha.holds hr) ?_ ha
  intro a _ ih ha
  exact hstep a ha fun q hq he => ih q (hq.holds hr) ⟨hq, .single he⟩ hq

end AcyclicOffers

end Graph

end StateSpace
