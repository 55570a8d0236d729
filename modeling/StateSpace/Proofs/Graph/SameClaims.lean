import StateSpace.Proofs.Graph.Acyclic
import StateSpace.Proofs.Graph.Build
import StateSpace.Proofs.Graph.Covering

/-!
# StateSpace.Proofs.Graph.SameClaims

Graphs that list the same claims in different orders.

* `Graph.SameClaims`: the same states, edges and covering links. What the root leads to, along
  offers or along covering links, is the same in both graphs.
* `Graph.Unrepeated`: no node claims a successor twice. The lists of claimed successors then are
  permutations of each other (`SameClaims.perm_children`), and so are the states that they name.
-/

namespace StateSpace
namespace Graph

open Relation

variable {σ : Type} {g g' : Graph σ} {a b id : StateId}

structure SameClaims (g g' : Graph σ) : Prop where
  state? : ∀ a, g.state? a = g'.state? a
  children : ∀ a b, b ∈ g.children a ↔ b ∈ g'.children a
  coveredBy? : ∀ a, g.coveredBy? a = g'.coveredBy? a

def Unrepeated (g : Graph σ) : Prop := ∀ a, (g.children a).Nodup

/-! ## Graphs that are built -/

theorem nodup_insertLast {l : List StateId} (h : l.Nodup) : (insertLast l id).Nodup := by
  unfold insertLast
  split
  · exact h
  · rename_i hnew
    refine List.nodup_append.2 ⟨h, List.nodup_singleton id, ?_⟩
    rintro x hx y hy rfl
    rw [List.mem_singleton.1 hy] at hx
    exact hnew hx

namespace Unrepeated

theorem update (h : g.Unrepeated) {change : Node σ → Node σ}
    (hchange : ∀ n, n.children.Nodup → (change n).children.Nodup) :
    (g.update id change).Unrepeated := by
  intro a
  have ha := h a
  cases hn : g.node? a with
  | none => by_cases heq : id = a <;> simp [Graph.children, node?_update, heq, hn]
  | some n =>
    rw [children_of_node? hn] at ha
    by_cases heq : id = a
    · simpa [Graph.children, node?_update, heq, hn] using hchange n ha
    · simpa [Graph.children, node?_update, heq, hn] using ha

theorem start (root : σ) : (start root).Unrepeated := by
  intro a
  cases a <;> exact List.nodup_nil

theorem addState (h : g.Unrepeated) (state : σ) : (g.addState state).Unrepeated := by
  intro a
  have ha := h a
  by_cases heq : a = g.size
  · simp [Graph.children, node?_addState, heq]
  · simpa [Graph.children, node?_addState, heq] using ha

theorem addEdge {parent child : StateId} (h : g.Unrepeated)
    (he : g.addEdge parent child = .ok g') : g'.Unrepeated := by
  unfold Graph.addEdge at he
  split at he
  · cases he
  · split at he
    · cases he
    · cases he
      exact (h.update fun _ => nodup_insertLast).update fun _ hn => hn

theorem cover {covered covering : StateId} (h : g.Unrepeated)
    (hc : g.cover covered covering = .ok g') : g'.Unrepeated := by
  unfold Graph.cover at hc
  split at hc
  · cases hc
  · split at hc
    · cases hc
    · cases hc
      exact h.update fun _ hn => hn

theorem extend {step : BuildStep σ} (h : g.Unrepeated) (hstep : step.isPaired)
    (he : g.extend step = .ok g') : g'.Unrepeated := by
  cases step with
  | state state =>
    cases he
    exact h.addState state
  | child parent state => exact (h.addState state).addEdge he
  | edge parent child => exact h.addEdge he
  | childOnly parent child => cases hstep
  | parentOnly child parent => cases hstep
  | cover covered covering => exact h.cover he

end Unrepeated

theorem unrepeated_of_build {root : σ} {steps : List (BuildStep σ)}
    (hsteps : ∀ step ∈ steps, step.isPaired) (hb : build root steps = .ok g) : g.Unrepeated :=
  extendAll_induction (fun hstep h he => h.extend hstep he) hsteps (.start root) hb

/-! ## The same claims -/

namespace SameClaims

theorem of_forall_lt (hsize : g'.size = g.size) (hstate : ∀ a < g.size, g.state? a = g'.state? a)
    (hchildren : ∀ a < g.size, (g.children a).Perm (g'.children a))
    (hcovered : ∀ a < g.size, g.coveredBy? a = g'.coveredBy? a) : g.SameClaims g' := by
  have hout : ∀ a, ¬ a < g.size → g.node? a = none ∧ g'.node? a = none := by
    intro a ha
    refine ⟨node?_eq_none_iff.2 ha, node?_eq_none_iff.2 ?_⟩
    rwa [Holds, hsize]
  refine ⟨fun a => ?_, fun a b => ?_, fun a => ?_⟩ <;> by_cases ha : a < g.size
  · exact hstate a ha
  · simp [Graph.state?, hout a ha]
  · exact (hchildren a ha).mem_iff
  · simp [Graph.children, hout a ha]
  · exact hcovered a ha
  · simp [Graph.coveredBy?, hout a ha]

theorem symm (h : g.SameClaims g') : g'.SameClaims g where
  state? a := (h.state? a).symm
  children a b := (h.children a b).symm
  coveredBy? a := (h.coveredBy? a).symm

theorem offers_eq (h : g.SameClaims g') : g.Offers = g'.Offers := by
  funext a b
  rw [Offers, Offers, h.coveredBy?, Edge, Edge, h.children]

theorem offered_eq (h : g.SameClaims g') : g.Offered = g'.Offered := by
  unfold Offered
  rw [h.offers_eq]
  rfl

theorem coveredBy_eq (h : g.SameClaims g') : g.CoveredBy = g'.CoveredBy := by
  funext a b
  rw [CoveredBy, CoveredBy, h.coveredBy?]

theorem leadsTo_eq (h : g.SameClaims g') : g.LeadsTo = g'.LeadsTo := by
  funext a b
  rw [LeadsTo, LeadsTo, h.coveredBy_eq, h.coveredBy?]

theorem acyclicOffers (h : g.SameClaims g') (ha : g.AcyclicOffers) : g'.AcyclicOffers := by
  unfold AcyclicOffers at ha ⊢
  rwa [← h.offers_eq, ← h.offered_eq]

theorem unmixed (h : g.SameClaims g') (hu : g.Unmixed) : g'.Unmixed := by
  intro a b e ha hb hea heb hnone
  rw [← h.offered_eq] at ha hb
  rw [← h.coveredBy?] at hnone ⊢
  exact hu a b e ha hb ((h.children a e).2 hea) ((h.children b e).2 heb) hnone

theorem perm_children (h : g.SameClaims g') (hu : g.Unrepeated) (hu' : g'.Unrepeated) :
    (g.children a).Perm (g'.children a) :=
  (List.perm_ext_iff_of_nodup (hu a) (hu' a)).2 (h.children a)

end SameClaims

theorem filterMap_of_states {l : List StateId} {s : List σ} (h : g.states l = .ok s) :
    l.filterMap g.state? = s := by
  induction l generalizing s with
  | nil =>
    cases h
    rfl
  | cons a rest ih =>
    cases hn : g.node? a with
    | none => simp [states, node_of_node?_none hn] at h
    | some n =>
      simp only [states, node_of_node? hn] at h
      split at h
      · cases h
      · rename_i t ht
        cases h
        rw [List.filterMap_cons, state?_of_node? hn, ih ht]

/-- The same claimed successors name the same states, in the order in which they are listed. -/
theorem SameClaims.exists_states (h : g.SameClaims g') (hu : g.Unrepeated)
    (hu' : g'.Unrepeated) (hr' : g'.InRange) {claimed : List σ}
    (hclaimed : g.states (g.children a) = .ok claimed) :
    ∃ claimed', g'.states (g'.children a) = .ok claimed' ∧ claimed.Perm claimed' := by
  obtain ⟨claimed', hclaimed'⟩ := Graph.exists_states (hr'.children a)
  refine ⟨claimed', hclaimed', ?_⟩
  have hstates : g.state? = g'.state? := funext h.state?
  rw [← filterMap_of_states hclaimed, ← filterMap_of_states hclaimed', hstates]
  exact (h.perm_children hu hu').filterMap g'.state?

end Graph

end StateSpace
