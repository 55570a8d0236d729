import StateSpace.Graph.Build
import StateSpace.Proofs.Graph.Basic

/-!
# StateSpace.Proofs.Graph.Build

What building a graph step by step ensures.

* `Graph.Paired`: the graph stays inside itself, and both ends of every edge agree.
* `paired_of_build`: steps that record both ends of an edge at once build only such graphs.
-/

namespace StateSpace

/-- The step records no edge at one end only. -/
def BuildStep.isPaired {σ : Type} : BuildStep σ → Bool
  | .childOnly _ _ => false
  | .parentOnly _ _ => false
  | _ => true

namespace Graph

variable {σ : Type} {g g' : Graph σ} {a b id : StateId}

structure Paired (g : Graph σ) : Prop where
  inRange : g.InRange
  symm : ∀ a b, a ∈ g.parents b ↔ b ∈ g.children a

/-! ## Changes of one node -/

section Update

variable {change : Node σ → Node σ}

theorem node?_update : (g.update id change).node? a =
    if id = a then (g.node? a).map change else g.node? a := by
  simp [node?, update, Array.getElem?_modify]

theorem holds_update : (g.update id change).Holds a ↔ g.Holds a := by
  simp [Holds, size, update]

theorem children_update (h : ∀ n, (change n).children = n.children) :
    (g.update id change).children a = g.children a := by
  by_cases ha : id = a <;> cases hn : g.node? a <;> simp [children, node?_update, ha, hn, h]

theorem parents_update (h : ∀ n, (change n).parents = n.parents) :
    (g.update id change).parents a = g.parents a := by
  by_cases ha : id = a <;> cases hn : g.node? a <;> simp [parents, node?_update, ha, hn, h]

theorem coveredBy?_update (h : ∀ n, (change n).coveredBy? = n.coveredBy?) :
    (g.update id change).coveredBy? a = g.coveredBy? a := by
  by_cases ha : id = a <;> cases hn : g.node? a <;> simp [coveredBy?, node?_update, ha, hn, h]

theorem mem_insertLast {l : List StateId} : a ∈ insertLast l id ↔ a ∈ l ∨ a = id := by
  unfold insertLast
  split
  · rename_i h
    constructor
    · exact .inl
    · rintro (h' | rfl)
      · exact h'
      · exact h
  · simp

theorem mem_children_insertLast {parent child : StateId} (hparent : g.Holds parent) :
    b ∈ (g.update parent fun n => { n with children := insertLast n.children child }).children a ↔
      b ∈ g.children a ∨ a = parent ∧ b = child := by
  obtain ⟨n, hn⟩ := exists_node? hparent
  by_cases ha : a = parent
  · subst ha
    simp [children, node?_update, hn, mem_insertLast]
  · simp [children, node?_update, ha, Ne.symm ha]

theorem mem_parents_insertLast {parent child : StateId} (hchild : g.Holds child) :
    a ∈ (g.update child fun n => { n with parents := insertLast n.parents parent }).parents b ↔
      a ∈ g.parents b ∨ a = parent ∧ b = child := by
  obtain ⟨n, hn⟩ := exists_node? hchild
  by_cases hb : b = child
  · subst hb
    simp [parents, node?_update, hn, mem_insertLast]
  · simp [parents, node?_update, hb, Ne.symm hb]

end Update

/-! ## Single steps -/

theorem node?_addState {state : σ} : (g.addState state).node? a =
    if a = g.size then some { state } else g.node? a :=
  Array.getElem?_push

theorem node?_size (g : Graph σ) : g.node? g.size = none :=
  node?_eq_none_iff.2 (Nat.lt_irrefl _)

namespace Paired

/-- What adds no edge and no covering link out of the graph. -/
theorem congr (h : g.Paired) (hholds : ∀ a, g.Holds a → g'.Holds a)
    (hchildren : ∀ a, g'.children a = g.children a) (hparents : ∀ a, g'.parents a = g.parents a)
    (hcovered : ∀ a b, g'.coveredBy? a = some b → g.coveredBy? a = some b ∨ g.Holds b) :
    g'.Paired := by
  refine ⟨⟨fun a b hb => ?_, fun a b hb => ?_⟩, fun a b => ?_⟩
  · rw [hchildren] at hb
    exact hholds b (h.inRange.children a b hb)
  · rcases hcovered a b hb with hb | hb
    · exact hholds b (h.inRange.covering a b hb)
    · exact hholds b hb
  · rw [hchildren, hparents]
    exact h.symm a b

theorem start (root : σ) : (start root).Paired := by
  have hchildren : ∀ a, (Graph.start root).children a = [] := by
    intro a
    cases a <;> rfl
  have hparents : ∀ a, (Graph.start root).parents a = [] := by
    intro a
    cases a <;> rfl
  have hcovered : ∀ a, (Graph.start root).coveredBy? a = none := by
    intro a
    cases a <;> rfl
  refine ⟨⟨fun a b hb => ?_, fun a b hb => ?_⟩, fun a b => ?_⟩
  · rw [hchildren] at hb
    exact absurd hb List.not_mem_nil
  · rw [hcovered] at hb
    cases hb
  · rw [hchildren, hparents]
    simp

theorem addState (h : g.Paired) (state : σ) : (g.addState state).Paired := by
  have hold : ∀ a, g.Holds a → (g.addState state).Holds a := by
    intro a ha
    rw [Holds, size, Graph.addState, Array.size_push]
    exact Nat.lt_succ_of_lt ha
  have hchildren : ∀ a, (g.addState state).children a = g.children a := by
    intro a
    by_cases ha : a = g.size <;> simp [children, node?_addState, ha, node?_size]
  have hparents : ∀ a, (g.addState state).parents a = g.parents a := by
    intro a
    by_cases ha : a = g.size <;> simp [parents, node?_addState, ha, node?_size]
  have hcovered : ∀ a, (g.addState state).coveredBy? a = g.coveredBy? a := by
    intro a
    by_cases ha : a = g.size <;> simp [coveredBy?, node?_addState, ha, node?_size]
  exact h.congr hold hchildren hparents fun a b hb => .inl (hcovered a ▸ hb)

theorem addEdge {parent child : StateId} (h : g.Paired)
    (he : g.addEdge parent child = .ok g') : g'.Paired := by
  unfold Graph.addEdge at he
  split at he
  · cases he
  · rename_i hparent
    split at he
    · cases he
    · rename_i hchild
      rw [Decidable.not_not] at hparent hchild
      cases he
      refine ⟨⟨fun a b hb => ?_, fun a b hb => ?_⟩, fun a b => ?_⟩
      · simp only [children_update, implies_true, mem_children_insertLast hparent] at hb
        rw [holds_update, holds_update]
        rcases hb with hb | ⟨_, rfl⟩
        · exact h.inRange.children a b hb
        · exact hchild
      · simp only [coveredBy?_update, implies_true] at hb
        rw [holds_update, holds_update]
        exact h.inRange.covering a b hb
      · simp only [mem_parents_insertLast (holds_update.2 hchild), parents_update,
          children_update, implies_true, mem_children_insertLast hparent, h.symm]

theorem cover {covered covering : StateId} (h : g.Paired)
    (hc : g.cover covered covering = .ok g') : g'.Paired := by
  unfold Graph.cover at hc
  split at hc
  · cases hc
  · split at hc
    · cases hc
    · rename_i hcovering
      rw [Decidable.not_not] at hcovering
      cases hc
      refine h.congr (fun _ => holds_update.2) (fun a => children_update fun _ => rfl)
        (fun a => parents_update fun _ => rfl) fun a b hb => ?_
      by_cases ha : covered = a
      · subst ha
        cases hn : g.node? covered with
        | none => simp [coveredBy?, node?_update, hn] at hb
        | some n =>
          simp only [coveredBy?, node?_update, hn, if_true, Option.map_some, Option.bind_some,
            Option.some.injEq] at hb
          exact .inr (hb ▸ hcovering)
      · simp only [coveredBy?, node?_update, ha, if_false] at hb
        exact .inl hb

theorem extend {step : BuildStep σ} (h : g.Paired) (hstep : step.isPaired)
    (he : g.extend step = .ok g') : g'.Paired := by
  cases step with
  | state state =>
    cases he
    exact h.addState state
  | child parent state => exact (h.addState state).addEdge he
  | edge parent child => exact h.addEdge he
  | childOnly parent child => cases hstep
  | parentOnly child parent => cases hstep
  | cover covered covering => exact h.cover he

end Paired

/-- What every step that records both ends of an edge keeps is kept by a list of such steps. -/
theorem extendAll_induction {P : Graph σ → Prop}
    (hextend : ∀ {g g' step}, step.isPaired → P g → g.extend step = .ok g' → P g')
    {steps : List (BuildStep σ)} (hsteps : ∀ step ∈ steps, step.isPaired) (h : P g)
    (he : g.extendAll steps = .ok g') : P g' := by
  induction steps generalizing g with
  | nil =>
    cases he
    exact h
  | cons step rest ih =>
    rw [Graph.extendAll] at he
    split at he
    · cases he
    · rename_i next hnext
      have hkept : P next := hextend (hsteps step List.mem_cons_self) h hnext
      exact ih (fun s hs => hsteps s (List.mem_cons_of_mem step hs)) hkept he

theorem paired_of_build {root : σ} {steps : List (BuildStep σ)}
    (hsteps : ∀ step ∈ steps, step.isPaired) (hb : build root steps = .ok g) : g.Paired :=
  extendAll_induction (fun hstep h he => h.extend hstep he) hsteps (.start root) hb

end Graph

end StateSpace
