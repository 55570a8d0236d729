import Mathlib.Data.List.Perm.Subperm
import Mathlib.Logic.Relation
import StateSpace.Graph.Basic

/-!
# StateSpace.Proofs.Graph.Basic

Edges and ranges of a graph.

* `Graph.Edge`, `Graph.Explorable`: a claimed successor, and what the root leads to along claimed
  successors.
* `Graph.InRange`: claimed successors and covering links stay inside the graph. Claimed
  predecessors may still lie outside it.
-/

namespace StateSpace
namespace Graph

variable {σ : Type} {g : Graph σ} {a b : StateId}

/-- The second node is a claimed successor of the first one. -/
def Edge (g : Graph σ) (a b : StateId) : Prop := b ∈ g.children a

/-- The root leads to the node along claimed successors. -/
def Explorable (g : Graph σ) (a : StateId) : Prop := Relation.ReflTransGen g.Edge g.root a

/-- Claimed successors and covering links name nodes of the graph. -/
structure InRange (g : Graph σ) : Prop where
  children : ∀ a, ∀ b ∈ g.children a, g.Holds b
  covering : ∀ a b, g.coveredBy? a = some b → g.Holds b

theorem holds_root (g : Graph σ) : g.Holds g.root := g.nonempty

/-- There are no more different nodes than the graph has. -/
theorem length_le_size {l : List StateId} (hl : l.Nodup) (h : ∀ a ∈ l, g.Holds a) :
    l.length ≤ g.size := by
  have hsub : l ⊆ List.range g.size := fun a ha => List.mem_range.2 (h a ha)
  have hle := (hl.subperm hsub).length_le
  rwa [List.length_range] at hle

theorem node?_eq_none_iff : g.node? a = none ↔ ¬ g.Holds a := by
  simp [node?, Holds, size]

theorem holds_of_node? {n : Node σ} (h : g.node? a = some n) : g.Holds a := by
  refine Decidable.byContradiction fun hn => ?_
  rw [← node?_eq_none_iff, h] at hn
  cases hn

theorem exists_node? (h : g.Holds a) : ∃ n, g.node? a = some n := by
  cases hn : g.node? a with
  | none => exact absurd h (node?_eq_none_iff.1 hn)
  | some n => exact ⟨n, rfl⟩

theorem node_of_node? {n : Node σ} (h : g.node? a = some n) : g.node a = .ok n := by
  simp [node, h]

theorem node_of_node?_none (h : g.node? a = none) :
    g.node a = .error (.outOfBounds g.size a) := by
  simp [node, h]

theorem state?_of_node? {n : Node σ} (h : g.node? a = some n) : g.state? a = some n.state := by
  simp [state?, h]

theorem children_of_node? {n : Node σ} (h : g.node? a = some n) : g.children a = n.children := by
  simp [children, h]

theorem coveredBy?_of_node? {n : Node σ} (h : g.node? a = some n) :
    g.coveredBy? a = n.coveredBy? := by
  simp [coveredBy?, h]

theorem holds_of_mem_parents (h : b ∈ g.parents a) : g.Holds a := by
  cases hn : g.node? a with
  | none => simp [parents, hn] at h
  | some n => exact holds_of_node? hn

theorem holds_of_mem_children (h : b ∈ g.children a) : g.Holds a := by
  cases hn : g.node? a with
  | none => simp [children, hn] at h
  | some n => exact holds_of_node? hn

theorem holds_of_coveredBy? (h : g.coveredBy? a = some b) : g.Holds a := by
  cases hn : g.node? a with
  | none => simp [coveredBy?, hn] at h
  | some n => exact holds_of_node? hn

theorem exists_states {l : List StateId} (h : ∀ a ∈ l, g.Holds a) : ∃ s, g.states l = .ok s := by
  induction l with
  | nil => exact ⟨[], rfl⟩
  | cons a rest ih =>
    obtain ⟨n, hn⟩ := exists_node? (h a List.mem_cons_self)
    obtain ⟨s, hs⟩ := ih fun b hb => h b (List.mem_cons_of_mem a hb)
    exact ⟨n.state :: s, by simp [states, node_of_node? hn, hs]⟩

/-- Each state of a list of states is that of some node. -/
theorem exists_of_mem_states {l : List StateId} {s : List σ} (h : g.states l = .ok s) :
    ∀ x ∈ s, ∃ a ∈ l, g.state? a = some x := by
  induction l generalizing s with
  | nil =>
    cases h
    intro x hx
    cases hx
  | cons a rest ih =>
    cases hn : g.node? a with
    | none => simp [states, node_of_node?_none hn] at h
    | some n =>
      simp only [states, node_of_node? hn] at h
      split at h
      · cases h
      · rename_i t ht
        cases h
        intro x hx
        rcases List.mem_cons.1 hx with rfl | hx
        · exact ⟨a, List.mem_cons_self, state?_of_node? hn⟩
        · obtain ⟨b, hb, hx⟩ := ih ht x hx
          exact ⟨b, List.mem_cons_of_mem a hb, hx⟩

theorem InRange.of_forall_lt (hchildren : ∀ a < g.size, ∀ b ∈ g.children a, b < g.size)
    (hcovering : ∀ a < g.size, ∀ b ∈ g.coveredBy? a, b < g.size) : g.InRange where
  children a b hb := hchildren a (holds_of_mem_children hb) b hb
  covering a b hb := hcovering a (holds_of_coveredBy? hb) b hb

end Graph

end StateSpace
