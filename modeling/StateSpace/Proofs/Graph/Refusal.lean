import StateSpace.Proofs.Graph.Transcript

/-!
# StateSpace.Proofs.Graph.Refusal

Which building steps a graph refuses.

* `BuildStep.mentions`: the names that are handed to a step.
* `extend_error_iff`: a step that records both ends of an edge is refused just if it mentions a name
  that is neither in the graph nor about to be handed out by this very step. A new node may
  therefore be mentioned as its own predecessor, and is then one (`mem_parents_of_addChild`).
* `refused_iff`: the two together, with the names in the graph told from the steps that built it.
-/

namespace StateSpace

/-- The names that are handed to a step. -/
def BuildStep.mentions {σ : Type} : BuildStep σ → List StateId
  | .state _ => []
  | .child a _ => [a]
  | .edge a b => [a, b]
  | .childOnly a b => [a, b]
  | .parentOnly a b => [a, b]
  | .cover a b => [a, b]

namespace Graph

variable {σ : Type} {g g' : Graph σ} {a b id : StateId} {state : σ} {step : BuildStep σ}

theorem mem_ids : a ∈ g.ids ↔ g.Holds a := List.mem_range

theorem holds_addState : (g.addState state).Holds a ↔ g.Holds a ∨ a = g.size := by
  rw [← mem_ids, ids_addState, List.mem_append, List.mem_singleton, mem_ids]

/-- What looks at two names before it does anything. -/
theorem guarded_error_iff {p q : Prop} [Decidable p] [Decidable q] {f₁ f₂ : Fault} :
    (∃ f, (if ¬ p then .error f₁ else if ¬ q then .error f₂ else .ok g) = Except.error f) ↔
      ¬ p ∨ ¬ q := by
  by_cases hp : p
  · by_cases hq : q <;> simp [hp, hq]
  · simp [hp]

theorem addEdge_error_iff : (∃ f, g.addEdge a b = .error f) ↔ ¬ g.Holds a ∨ ¬ g.Holds b :=
  guarded_error_iff

theorem cover_error_iff : (∃ f, g.cover a b = .error f) ↔ ¬ g.Holds a ∨ ¬ g.Holds b :=
  guarded_error_iff

/-- The node is there before the edge is drawn to it, and its name is known by then. -/
theorem addChild_error_iff :
    (∃ f, g.addChild a state = .error f) ↔ ¬ g.Holds a ∧ g.size ≠ a := by
  rw [addChild, addEdge_error_iff, holds_addState, holds_addState, not_or]
  constructor
  · rintro (h | h)
    · exact ⟨h.1, Ne.symm h.2⟩
    · exact absurd (.inr rfl) h
  · exact fun h => .inl ⟨h.1, Ne.symm h.2⟩

theorem extend_error_iff (hstep : step.isPaired) :
    (∃ f, g.extend step = .error f) ↔
      ∃ id ∈ step.mentions, id ∉ g.ids ∧ g.issued? step ≠ some id := by
  cases step with
  | state state => simp [extend, BuildStep.mentions]
  | child parent state =>
    rw [extend, addChild_error_iff]
    simp [BuildStep.mentions, issued?, BuildStep.addsNode, mem_ids]
  | edge parent child =>
    rw [extend, addEdge_error_iff]
    simp [BuildStep.mentions, issued?, BuildStep.addsNode, mem_ids]
  | childOnly parent child => cases hstep
  | parentOnly child parent => cases hstep
  | cover covered covering =>
    rw [extend, cover_error_iff]
    simp [BuildStep.mentions, issued?, BuildStep.addsNode, mem_ids]

theorem parents_size (g : Graph σ) : g.parents g.size = [] := by
  simp [parents, node?_size]

theorem mem_parents_of_addChild (he : g.addChild a state = .ok g') :
    g.size ∈ g'.parents g.size ↔ g.size = a := by
  rw [(drawn_of_addEdge he).parents, if_pos rfl, parents_addState, parents_size, mem_insertLast]
  simp

/-- A new node is its own predecessor just if the step that adds it mentions the new name. -/
theorem mem_parents_of_extend (he : g.extend step = .ok g') (hid : g.issued? step = some id) :
    id ∈ g'.parents id ↔ id ∈ step.mentions := by
  cases step with
  | state state =>
    cases he
    cases hid
    simp [BuildStep.mentions, parents_addState, parents_size]
  | child parent state =>
    cases hid
    rw [mem_parents_of_addChild he, BuildStep.mentions, List.mem_singleton]
  | edge parent child => cases hid
  | childOnly parent child => cases hid
  | parentOnly child parent => cases hid
  | cover covered covering => cases hid

/-- Which steps a graph refuses, and which new nodes are their own predecessors. In a graph that was
built by steps that record both ends of an edge, the names are those that these steps handed out. -/
theorem refused_iff (g : Graph σ) (hstep : step.isPaired) :
    ((∃ f, g.extend step = .error f) ↔
      ∃ id ∈ step.mentions, id ∉ g.ids ∧ g.issued? step ≠ some id) ∧
    (∀ g' id, g.extend step = .ok g' → g.issued? step = some id →
      (id ∈ g'.parents id ↔ id ∈ step.mentions)) ∧
    (∀ root steps, (∀ s ∈ steps, s.isPaired) → build root steps = .ok g →
      g.ids = (added root ((start root).transcript steps)).map Prod.fst) :=
  ⟨extend_error_iff hstep, fun _ _ => mem_parents_of_extend,
    fun _ _ hsteps hb => (tracks_of_build hsteps hb).ids⟩

theorem refused_iff_knotted :
    (BuildStep.cover 3 7 : BuildStep String).isPaired ∧
      (∃ f, knotted.extend (.cover 3 7) = .error f) ∧
      knotted.ids = (added "root" ((start "root").transcript knotting)).map Prod.fst := by
  have hpaired : (BuildStep.cover 3 7 : BuildStep String).isPaired := rfl
  obtain ⟨hrefused, -, hids⟩ := refused_iff knotted hpaired
  have hunknown : 7 ∉ knotted.ids ∧ knotted.issued? (.cover 3 7) ≠ some 7 := by decide
  exact ⟨hpaired, hrefused.2 ⟨7, by decide, hunknown⟩, hids "root" knotting (by decide) rfl⟩

/-- The name that a step is about to hand out is unknown before, and may be mentioned all the
same. -/
theorem extend_child_of_itself :
    build "root" [] = .ok (start "root") ∧
      ¬ ((∃ f, (start "root").extend (.child 1 "own") = .error f) ↔
        ∃ id ∈ (BuildStep.child 1 "own").mentions, id ∉ (start "root").ids) ∧
      ∃ g, (start "root").extend (.child 1 "own") = .ok g ∧ 1 ∈ g.parents 1 := by
  refine ⟨rfl, fun h => ?_, ⟨_, rfl, by decide⟩⟩
  obtain ⟨f, hf⟩ := h.2 ⟨1, by decide, by decide⟩
  cases hf

end Graph
end StateSpace
