import Mathlib.Data.Set.Function
import StateSpace.Proofs.Graph.Covering

/-!
# StateSpace.Proofs.Graph.Renaming

Graphs whose nodes have other names, and that may differ in nodes nothing leads to.

* `Graph.Connected`: the root leads to the node along claimed successors and covering links.
  `Graph.Named` are these nodes and their claimed predecessors, which may lie anywhere.
* `Graph.Renames`: a map of names under which the connected nodes of two graphs correspond, with
  everything they claim. Everything that is connected in the second graph then comes from the first
  one (`Renames.connected_iff`), so that the map can be turned around (`Renames.symm`).
-/

namespace StateSpace

variable {σ : Type}

def Node.rename (f : StateId → StateId) (n : Node σ) : Node σ where
  state := n.state
  parents := n.parents.map f
  children := n.children.map f
  coveredBy? := n.coveredBy?.map f

namespace Graph

open Relation

variable {g g' : Graph σ} {f : StateId → StateId} {a b s : StateId}

/-- The second node is a claimed successor of the first one, or it is claimed to cover it. -/
def Links (g : Graph σ) (a b : StateId) : Prop := g.Edge a b ∨ g.CoveredBy a b

def Connected (g : Graph σ) (s : StateId) : Prop := ReflTransGen g.Links g.root s

/-- The node is connected, or it is a claimed predecessor of a connected one. -/
def Named (g : Graph σ) (a : StateId) : Prop :=
  g.Connected a ∨ ∃ s, g.Connected s ∧ a ∈ g.parents s

/-- The connected nodes of the first graph are, by other names, those of the second one. -/
structure Renames (g : Graph σ) (f : StateId → StateId) (g' : Graph σ) : Prop where
  root : f g.root = g'.root
  injective : Set.InjOn f {a | g.Named a}
  node? : ∀ s, g.Connected s → g'.node? (f s) = (g.node? s).map (·.rename f)

/-! ## Connected nodes -/

theorem Connected.root : g.Connected g.root := .refl

theorem Connected.child (h : g.Connected a) (hb : b ∈ g.children a) : g.Connected b :=
  h.tail (.inl hb)

theorem Connected.covering (h : g.Connected a) (hb : g.CoveredBy a b) : g.Connected b :=
  h.tail (.inr hb)

theorem Connected.holds (hg : g.InRange) (h : g.Connected a) : g.Holds a := by
  rcases h.cases_tail with rfl | ⟨b, -, hb | hb⟩
  · exact g.holds_root
  · exact hg.children b a hb
  · exact hg.covering b a hb

theorem Connected.named (h : g.Connected a) : g.Named a := .inl h

theorem Connected.named_parent (h : g.Connected s) (ha : a ∈ g.parents s) : g.Named a :=
  .inr ⟨s, h, ha⟩

namespace Renames

theorem of_forall_lt (hg : g.InRange) (hroot : f g.root = g'.root)
    (hparents : ∀ s < g.size, ∀ a ∈ g.parents s, a < g.size)
    (hf : ∀ a < g.size, ∀ b < g.size, f a = f b → a = b)
    (hnode : ∀ s < g.size, g'.node? (f s) = (g.node? s).map (·.rename f)) : g.Renames f g' := by
  have hnamed : ∀ a, g.Named a → a < g.size := by
    rintro a (ha | ⟨s, hs, ha⟩)
    · exact ha.holds hg
    · exact hparents s (hs.holds hg) a ha
  exact ⟨hroot, fun a ha b hb => hf a (hnamed a ha) b (hnamed b hb),
    fun s hs => hnode s (hs.holds hg)⟩

/-! ## What renamed nodes claim -/

theorem eq_iff (h : g.Renames f g') (ha : g.Named a) (hb : g.Named b) : f a = f b ↔ a = b :=
  h.injective.eq_iff ha hb

theorem parents (h : g.Renames f g') (hs : g.Connected s) :
    g'.parents (f s) = (g.parents s).map f := by
  rw [Graph.parents, h.node? s hs, Graph.parents]
  cases g.node? s <;> rfl

theorem children (h : g.Renames f g') (hs : g.Connected s) :
    g'.children (f s) = (g.children s).map f := by
  rw [Graph.children, h.node? s hs, Graph.children]
  cases g.node? s <;> rfl

theorem coveredBy? (h : g.Renames f g') (hs : g.Connected s) :
    g'.coveredBy? (f s) = (g.coveredBy? s).map f := by
  rw [Graph.coveredBy?, h.node? s hs, Graph.coveredBy?]
  cases g.node? s <;> rfl

theorem states (h : g.Renames f g') {l : List StateId} {claimed : List σ}
    (hl : ∀ a ∈ l, g.Connected a) (hs : g.states l = .ok claimed) :
    g'.states (l.map f) = .ok claimed := by
  induction l generalizing claimed with
  | nil => exact hs
  | cons a rest ih =>
    cases hn : g.node? a with
    | none => simp [Graph.states, node_of_node?_none hn] at hs
    | some n =>
      have hn' : g'.node? (f a) = some (n.rename f) := by
        rw [h.node? a (hl a List.mem_cons_self), hn]
        rfl
      simp only [Graph.states, node_of_node? hn] at hs
      split at hs
      · cases hs
      · rename_i others hothers
        cases hs
        have hrest := ih (fun b hb => hl b (List.mem_cons_of_mem a hb)) hothers
        simp only [List.map_cons, Graph.states, node_of_node? hn', hrest]
        rfl

theorem coveredBy (h : g.Renames f g') (ha : g.Connected a) (hb : g.CoveredBy a b) :
    g'.CoveredBy (f a) (f b) := by
  rw [CoveredBy, h.coveredBy? ha, show g.coveredBy? a = some b from hb]
  rfl

theorem leadsTo (h : g.Renames f g') (ha : g.Connected a) (hl : g.LeadsTo a b) :
    g'.LeadsTo (f a) (f b) := by
  obtain ⟨hab, hend⟩ := hl
  induction hab using ReflTransGen.head_induction_on with
  | refl =>
    refine .here ?_
    rw [h.coveredBy? ha, hend]
    rfl
  | head hlink _ ih => exact (ih (ha.covering hlink)).link (h.coveredBy ha hlink)

/-! ## Connected nodes of both graphs -/

theorem connected (h : g.Renames f g') (hs : g.Connected s) : g'.Connected (f s) := by
  induction hs with
  | refl =>
    rw [h.root]
    exact .root
  | @tail a b ha hlink ih =>
    rcases hlink with hb | hb
    · refine ih.child ?_
      rw [h.children ha]
      exact List.mem_map_of_mem hb
    · exact ih.covering (h.coveredBy ha hb)

theorem connected_iff (h : g.Renames f g') : g'.Connected b ↔ ∃ s, g.Connected s ∧ f s = b := by
  constructor
  · intro hb
    induction hb with
    | refl => exact ⟨g.root, .root, h.root⟩
    | @tail _ b _ hlink ih =>
      obtain ⟨s, hs, rfl⟩ := ih
      rcases hlink with hb | hb
      · rw [Edge, h.children hs] at hb
        obtain ⟨c, hc, rfl⟩ := List.mem_map.1 hb
        exact ⟨c, hs.child hc, rfl⟩
      · rw [CoveredBy, h.coveredBy? hs] at hb
        obtain ⟨c, hc, rfl⟩ := Option.map_eq_some_iff.1 hb
        exact ⟨c, hs.covering hc, rfl⟩
  · rintro ⟨s, hs, rfl⟩
    exact h.connected hs

theorem coveringEnds (h : g.Renames f g') (hg' : g'.InRange) (hs : g.Connected s)
    (hends : g.coveringEnds s = .ok true) : g'.coveringEnds (f s) = .ok true := by
  obtain ⟨t, ht⟩ := (exists_leadsTo_of_coveringEnds hends).1 rfl
  exact (coveringEnds_eq_true_iff hg' ((h.connected hs).holds hg')).2 ⟨f t, h.leadsTo hs ht⟩

/-! ## The other direction -/

theorem named_iff (h : g.Renames f g') : g'.Named b ↔ ∃ a, g.Named a ∧ f a = b := by
  constructor
  · rintro (hb | ⟨t, ht, hb⟩)
    · obtain ⟨s, hs, rfl⟩ := h.connected_iff.1 hb
      exact ⟨s, hs.named, rfl⟩
    · obtain ⟨s, hs, rfl⟩ := h.connected_iff.1 ht
      rw [h.parents hs] at hb
      obtain ⟨a, ha, rfl⟩ := List.mem_map.1 hb
      exact ⟨a, hs.named_parent ha, rfl⟩
  · rintro ⟨a, ha | ⟨s, hs, ha⟩, rfl⟩
    · exact (h.connected ha).named
    · refine (h.connected hs).named_parent ?_
      rw [h.parents hs]
      exact List.mem_map_of_mem ha

/-- Names that are turned around and back stay as they are. -/
theorem rename_eq_self {n : Node σ} (hn : g.node? s = some n) (hs : g.Connected s)
    {k : StateId → StateId} (hk : ∀ a, g.Named a → k (f a) = a) :
    (n.rename f).rename k = n := by
  have hmap : ∀ {l : List StateId}, (∀ a ∈ l, g.Named a) → (l.map f).map k = l := by
    intro l hl
    rw [List.map_map]
    exact (List.map_congr_left fun a ha => hk a (hl a ha)).trans (List.map_id l)
  have hparents : ∀ a ∈ n.parents, g.Named a := by
    intro a ha
    refine hs.named_parent ?_
    rwa [Graph.parents, hn]
  have hchildren : ∀ a ∈ n.children, g.Named a := by
    intro a ha
    rw [← children_of_node? hn] at ha
    exact (hs.child ha).named
  have hcovered : (n.coveredBy?.map f).map k = n.coveredBy? := by
    cases hc : n.coveredBy? with
    | none => rfl
    | some c =>
      have hlink : g.CoveredBy s c := (coveredBy?_of_node? hn).trans hc
      exact congrArg some (hk c (hs.covering hlink).named)
  simp only [Node.rename, hmap hparents, hmap hchildren, hcovered]

/-- The names of the first graph for those of the second one. -/
noncomputable def inverse (g : Graph σ) (f : StateId → StateId) : StateId → StateId :=
  Function.invFunOn f {a | g.Named a}

theorem inverse_apply (h : g.Renames f g') (ha : g.Named a) : inverse g f (f a) = a :=
  h.injective.leftInvOn_invFunOn ha

theorem symm (h : g.Renames f g') : g'.Renames (inverse g f) g := by
  constructor
  case root =>
    rw [← h.root]
    exact h.inverse_apply Connected.root.named
  case injective =>
    intro x hx y hy heq
    obtain ⟨a, ha, rfl⟩ := h.named_iff.1 hx
    obtain ⟨b, hb, rfl⟩ := h.named_iff.1 hy
    rw [h.inverse_apply ha, h.inverse_apply hb] at heq
    rw [heq]
  case node? =>
    intro t ht
    obtain ⟨s, hs, rfl⟩ := h.connected_iff.1 ht
    rw [h.inverse_apply hs.named, h.node? s hs]
    cases hn : g.node? s with
    | none => rfl
    | some n =>
      exact congrArg some (rename_eq_self hn hs fun a ha => h.inverse_apply ha).symm

end Renames

end Graph

end StateSpace
