import StateSpace.Certificate.Check
import StateSpace.Proofs.Graph.Basic
import StateSpace.Proofs.Reached

/-!
# StateSpace.Proofs.Certificate.Step

Everything that one step of a check can do, and what follows for whole checks.

* `Stepped`: the moves of a step, one case for each way through it. `step_cases` says that there
  are no others, so that later proofs need not open the step again.
* `admitChild_next`, `admitChild_halt`, `admitAll_cases`: the same for the successors of a state.
  The invariant of `admitAll_cases` knows which successors are still to come. `admitAll_next` is
  for those that need not know.
* `requeueAll_next`, `requeueAll_halt`: the same for the start of another pass.
* `Looks.step_postpone`, `AsksCovering.step_eq`, `AsksSuccessors.step_eq`: what the step is when a
  state that was taken leads on.
* `Steps`: finitely many steps that lead on. A check consists of such steps and a last one that
  ends it (`steps_run`).
-/

namespace StateSpace
namespace Certificate

open Std

variable {κ π σ : Type}

def Progress.took (p : Progress κ π) (id : StateId) (rest : Reached StateId π) : Progress κ π :=
  { p with reached := rest, history := .taken id :: p.history }

/-- The progress after a state was taken and counted, and its property was asked for. -/
def Progress.looked (p : Progress κ π) (id : StateId) (rest : Reached StateId π)
    (holds : Bool) : Progress κ π where
  reached := rest
  fresh := p.fresh.erase id
  blocked := p.blocked
  postponed := p.postponed
  admittedParents := p.admittedParents
  iterations := p.iterations + 1
  passes := p.passes
  history := .property id holds :: .taken id :: p.history

/-- The progress after a state was admitted. -/
def Progress.admitted (p : Progress κ π) (child : StateId) (precision : π)
    (parents : List StateId) : Progress κ π :=
  { p with
    blocked := p.blocked.erase child
    reached := p.reached.add child precision
    fresh := p.fresh.insert child
    admittedParents := p.admittedParents.insert child parents }

/-! ## Claimed successors -/

section Admission

variable {g : Graph σ} {precision : π} {id child : StateId} {p p' : Progress κ π}

/-- A successor that leads on waits for a predecessor, was admitted before, or is admitted. -/
theorem admitChild_next (h : admitChild g precision id child p = .next p') :
    id ∈ g.parents child ∧
      ((p.lacksParent (g.parents child) = true ∧
          p' = { p with blocked := p.blocked.insert child }) ∨
        (p.lacksParent (g.parents child) = false ∧ child ∈ p.reached ∧
          p.admittedParents[child]? = some (g.parents child) ∧ p' = p) ∨
        (p.lacksParent (g.parents child) = false ∧ child ∉ p.reached ∧
          p' = p.admitted child precision (g.parents child))) := by
  unfold admitChild at h
  split at h
  · cases h
  · rename_i hid
    refine ⟨Decidable.not_not.1 hid, ?_⟩
    split at h
    · rename_i hlacks
      cases h
      exact .inl ⟨hlacks, rfl⟩
    · rename_i hlacks
      have hready := Bool.eq_false_iff.2 hlacks
      split at h
      · rename_i hmem
        split at h
        · rename_i hsame
          cases h
          exact .inr (.inl ⟨hready, hmem, hsame, rfl⟩)
        · cases h
      · rename_i hmem
        cases h
        exact .inr (.inr ⟨hready, hmem, rfl⟩)

/-- A successor that ends the check does not claim the predecessors it has. -/
theorem admitChild_halt {outcome : Outcome}
    (h : admitChild g precision id child p = .halt p' outcome) :
    p' = p ∧ outcome = .ok (.invalid (.parentsConflict child)) ∧
      (id ∉ g.parents child ∨
        p.lacksParent (g.parents child) = false ∧ child ∈ p.reached ∧
          p.admittedParents[child]? ≠ some (g.parents child)) := by
  unfold admitChild at h
  split at h
  · rename_i hid
    cases h
    exact ⟨rfl, rfl, .inl hid⟩
  · split at h
    · cases h
    · rename_i hlacks
      split at h
      · rename_i hmem
        split at h
        · cases h
        · rename_i hother
          cases h
          exact ⟨rfl, rfl, .inr ⟨Bool.eq_false_iff.2 hlacks, hmem, hother⟩⟩
      · cases h

/-- What every successor preserves holds when all are looked at, and it holds of the progress that
the first conflict is found in. -/
theorem admitAll_cases {P : List StateId → Progress κ π → Prop}
    (hstep : ∀ child rest q q', P (child :: rest) q →
      admitChild g precision id child q = .next q' → P rest q')
    {children : List StateId} (h : P children p) :
    (∃ q, admitAll g precision id children p = .next q ∧ P [] q) ∨
      ∃ child rest q, P (child :: rest) q ∧
        ∃ outcome, admitChild g precision id child q = .halt q outcome ∧
          admitAll g precision id children p = .halt q outcome := by
  induction children generalizing p with
  | nil => exact .inl ⟨p, rfl, h⟩
  | cons child rest ih =>
    rw [admitAll]
    cases hm : admitChild g precision id child p with
    | next q => exact ih (hstep child rest p q h hm)
    | halt q outcome =>
      obtain rfl := (admitChild_halt hm).1
      exact .inr ⟨child, rest, q, h, outcome, hm, rfl⟩

/-- What every successor preserves holds when all are looked at. -/
theorem admitAll_next {P : Progress κ π → Prop} {children : List StateId}
    (hstep : ∀ child ∈ children, ∀ q q', P q →
      admitChild g precision id child q = .next q' → P q')
    (h : P p) (hm : admitAll g precision id children p = .next p') : P p' := by
  induction children generalizing p with
  | nil =>
    cases hm
    exact h
  | cons child rest ih =>
    obtain ⟨hchild, hrest⟩ := List.forall_mem_cons.1 hstep
    rw [admitAll] at hm
    split at hm
    · rename_i q hq
      exact ih hrest (hchild p q h hq) hm
    · cases hm

theorem admitAll_halt {children : List StateId} {outcome : Outcome}
    (h : admitAll g precision id children p = .halt p' outcome) :
    ∃ child, outcome = .ok (.invalid (.parentsConflict child)) := by
  rcases admitAll_cases (P := fun _ _ => True) (fun _ _ _ _ _ _ => trivial) trivial with
    ⟨_, hnext, _⟩ | ⟨child, _, _, _, o, ho, hhalt⟩
  · cases h.symm.trans hnext
  · cases h.symm.trans hhalt
    exact ⟨child, (admitChild_halt ho).2.1⟩

end Admission

/-! ## Another pass -/

section Requeue

variable {g : Graph σ} {l : List StateId} {p p' : Progress κ π}

/-- Covered states that wait again are put behind the waitlist in their order. -/
theorem requeueAll_next
    (hl : ∀ s ∈ l, s ∈ p.reached ∧ ∃ c, g.coveredBy? s = some c)
    (h : requeueAll g l p = .next p') :
    p' = { p with reached := { p.reached with waitlist := p.reached.waitlist ++ l } } ∧
      ∀ s ∈ l, ∀ c, g.coveredBy? s = some c → c ∈ p.reached := by
  induction l generalizing p with
  | nil =>
    cases h
    refine ⟨by rw [List.append_nil], fun s hs => absurd hs List.not_mem_nil⟩
  | cons id rest ih =>
    obtain ⟨hid, c, hc⟩ := hl id List.mem_cons_self
    rw [requeueAll, hc] at h
    simp only at h
    split at h
    · rename_i hmem
      have hrest : ∀ s ∈ rest, s ∈ p.reached.requeue id ∧ ∃ c, g.coveredBy? s = some c :=
        fun s hs => ⟨Reached.mem_requeue.2 (hl s (List.mem_cons_of_mem id hs)).1,
          (hl s (List.mem_cons_of_mem id hs)).2⟩
      obtain ⟨hp', hcs⟩ := ih hrest h
      constructor
      · rw [hp']
        simp [Reached.requeue, hid]
      · intro s hs d hd
        rcases List.mem_cons.1 hs with rfl | hs
        · rw [hc] at hd
          cases hd
          exact hmem
        · exact Reached.mem_requeue.1 (hcs s hs d hd)
    · cases h

theorem requeueAll_halt {outcome : Outcome} (h : requeueAll g l p = .halt p' outcome) :
    p'.reached.entries = p.reached.entries ∧
      ∃ s ∈ l, ∃ c, g.coveredBy? s = some c ∧ c ∉ p.reached ∧
        outcome = .ok (.invalid (.coveringMissing s c)) := by
  induction l generalizing p with
  | nil => cases h
  | cons id rest ih =>
    rw [requeueAll] at h
    split at h
    · obtain ⟨he, s, hs, hmissing⟩ := ih h
      exact ⟨he, s, List.mem_cons_of_mem id hs, hmissing⟩
    · rename_i c hc
      split at h
      · obtain ⟨he, s, hs, d, hd, hmem, ho⟩ := ih h
        refine ⟨he.trans ?_, s, List.mem_cons_of_mem id hs, d, hd, ?_, ho⟩
        · simp only [Reached.requeue]
          split <;> rfl
        · rwa [Reached.mem_requeue] at hmem
      · rename_i hmem
        cases h
        exact ⟨rfl, id, List.mem_cons_self, c, hc, hmem, rfl⟩

theorem startPass_next (hl : ∀ s ∈ p.postponed, s ∈ p.reached ∧ ∃ c, g.coveredBy? s = some c)
    (h : startPass g p = .next p') :
    p' = { p with
      reached := { p.reached with waitlist := p.reached.waitlist ++ p.postponed.toList }
      passes := p.passes + 1
      postponed := ∅ } ∧
      ∀ s ∈ p.postponed, ∀ c, g.coveredBy? s = some c → c ∈ p.reached := by
  unfold startPass at h
  have hlist : ∀ s ∈ p.postponed.toList, s ∈ p.reached ∧ ∃ c, g.coveredBy? s = some c :=
    fun s hs => hl s (ExtTreeSet.mem_toList.1 hs)
  obtain ⟨rfl, hcs⟩ :=
    requeueAll_next (p := { p with passes := p.passes + 1, postponed := ∅ }) hlist h
  exact ⟨rfl, fun s hs => hcs s (ExtTreeSet.mem_toList.2 hs)⟩

theorem startPass_halt {outcome : Outcome} (h : startPass g p = .halt p' outcome) :
    p'.reached.entries = p.reached.entries ∧
      ∃ s ∈ p.postponed, ∃ c, g.coveredBy? s = some c ∧ c ∉ p.reached ∧
        outcome = .ok (.invalid (.coveringMissing s c)) := by
  unfold startPass at h
  obtain ⟨he, s, hs, hmissing⟩ := requeueAll_halt h
  exact ⟨he, s, ExtTreeSet.mem_toList.1 hs, hmissing⟩

end Requeue

/-! ## Whole steps -/

/-- A state is taken, nobody asks to stop, and the state has its property. -/
structure Looks (env : Environment κ σ) (g : Graph σ) (p : Progress κ π) (id : StateId)
    (rest : Reached StateId π) (node : Node σ) : Prop where
  pop : p.reached.pop? = some (id, rest)
  going : env.stop? (.taken id :: p.history) = none
  known : g.node? id = some node
  holds : env.satisfies (.taken id :: p.history) node.state = true

structure AsksCovering (env : Environment κ σ) (g : Graph σ) (p : Progress κ π) (id : StateId)
    (rest : Reached StateId π) (node : Node σ) (c : StateId) (reply : Reply κ) : Prop where
  looks : Looks env g p id rest node
  link : node.coveredBy? = some c
  reached : c ∈ rest
  ends : g.coveringEnds id = .ok true
  replies : ∃ other, g.node? c = some other ∧
    reply = (env.oracle (p.looked id rest true).history).covered node.state other.state

structure AsksSuccessors (env : Environment κ σ) (g : Graph σ) (p : Progress κ π) (id : StateId)
    (rest : Reached StateId π) (node : Node σ) (reply : Reply κ) : Prop where
  looks : Looks env g p id rest node
  uncovered : node.coveredBy? = none
  replies : ∃ claimed, g.states node.children = .ok claimed ∧
    reply = (env.oracle (p.looked id rest true).history).successors node.state claimed

section Links

variable {env : Environment κ σ} {g : Graph σ} {p : Progress κ π} {id c : StateId}
  {rest : Reached StateId π} {node : Node σ} {reply : Reply κ}

theorem Looks.coveredBy?_eq (h : Looks env g p id rest node) :
    g.coveredBy? id = node.coveredBy? := Graph.coveredBy?_of_node? h.known

theorem AsksCovering.coveredBy?_eq (h : AsksCovering env g p id rest node c reply) :
    g.coveredBy? id = some c := h.looks.coveredBy?_eq.trans h.link

theorem AsksSuccessors.coveredBy?_eq (h : AsksSuccessors env g p id rest node reply) :
    g.coveredBy? id = none := h.looks.coveredBy?_eq.trans h.uncovered

end Links

/-- The moves that a step can be. -/
inductive Stepped (env : Environment κ σ) (g : Graph σ) (precision : π) (p : Progress κ π) :
    Move κ π → Prop where
  | finish : p.reached.pop? = none → p.postponed.isEmpty = true →
      Stepped env g precision p (.halt p (.ok p.verdict))
  | again {m} : p.reached.pop? = none → p.postponed.isEmpty = false → startPass g p = m →
      Stepped env g precision p m
  | interrupted {id rest reason} : p.reached.pop? = some (id, rest) →
      env.stop? (.taken id :: p.history) = some reason →
      Stepped env g precision p
        (.halt (p.took id rest) (.error (.error (.interrupted ⟨reason⟩))))
  /-- The state that was taken is none of the graph. -/
  | unknown {id rest f q} : p.reached.pop? = some (id, rest) → g.node? id = none →
      Stepped env g precision p (.halt q (.error (.fault f)))
  | violated {id rest node} : p.reached.pop? = some (id, rest) →
      env.stop? (.taken id :: p.history) = none → g.node? id = some node →
      env.satisfies (.taken id :: p.history) node.state = false →
      Stepped env g precision p
        (.halt (p.looked id rest false) (.ok (.invalid (.propertyViolated id))))
  | postponed {id rest node c} : Looks env g p id rest node → node.coveredBy? = some c →
      c ∉ rest →
      Stepped env g precision p
        (.next { p.looked id rest true with postponed := p.postponed.insert id })
  /-- The covering links come back to a node. -/
  | endless {id rest node c} : Looks env g p id rest node → node.coveredBy? = some c →
      c ∈ rest → g.coveringEnds id = .ok false →
      Stepped env g precision p
        (.halt (p.looked id rest true) (.ok (.invalid (.coveringCycle id))))
  /-- The covering links leave the graph. -/
  | astray {id rest node c f} : Looks env g p id rest node → node.coveredBy? = some c →
      c ∈ rest → g.coveringEnds id = .error f ∨ g.node c = .error f →
      Stepped env g precision p (.halt (p.looked id rest true) (.error (.fault f)))
  | covered {id rest node c reply} : AsksCovering env g p id rest node c reply →
      reply.answer = .ok true →
      Stepped env g precision p (.next ((p.looked id rest true).record (.covering id c reply)))
  | notCovered {id rest node c reply} : AsksCovering env g p id rest node c reply →
      reply.answer = .ok false →
      Stepped env g precision p (.halt ((p.looked id rest true).record (.covering id c reply))
        (.ok (.invalid (.notCovered id c))))
  | coveringFails {id rest node c reply e} : AsksCovering env g p id rest node c reply →
      reply.answer = .error e →
      Stepped env g precision p (.halt ((p.looked id rest true).record (.covering id c reply))
        (.error (e.mapError Error.ofAnalysis)))
  /-- Some claimed successor is none of the graph. -/
  | stray {id rest node f} : Looks env g p id rest node → node.coveredBy? = none →
      g.states node.children = .error f →
      Stepped env g precision p (.halt (p.looked id rest true) (.error (.fault f)))
  | expand {id rest node reply m} : AsksSuccessors env g p id rest node reply →
      reply.answer = .ok true →
      admitAll g precision id node.children
        ((p.looked id rest true).record (.successors id node.children reply)) = m →
      Stepped env g precision p m
  | differ {id rest node reply} : AsksSuccessors env g p id rest node reply →
      reply.answer = .ok false →
      Stepped env g precision p
        (.halt ((p.looked id rest true).record (.successors id node.children reply))
          (.ok (.invalid (.successorsDiffer id))))
  | successorsFail {id rest node reply e} : AsksSuccessors env g p id rest node reply →
      reply.answer = .error e →
      Stepped env g precision p
        (.halt ((p.looked id rest true).record (.successors id node.children reply))
          (.error (e.mapError Error.ofAnalysis)))

section Cases

variable {env : Environment κ σ} {g : Graph σ} {precision : π} {p : Progress κ π}
  {id : StateId} {rest : Reached StateId π} {node : Node σ}

theorem visitCovered_cases {c : StateId} (h : Looks env g p id rest node)
    (hc : node.coveredBy? = some c) :
    Stepped env g precision p (visitCovered env g id c node.state (p.looked id rest true)) := by
  unfold visitCovered
  split
  · rename_i hmem
    exact .postponed h hc hmem
  · rename_i hmem
    have hreached : c ∈ rest := Decidable.not_not.1 hmem
    split
    · rename_i f hf
      exact .astray h hc hreached (.inl hf)
    · rename_i hends
      exact .endless h hc hreached hends
    · rename_i hends
      cases hn : g.node? c with
      | none =>
        rw [Graph.node_of_node?_none hn]
        exact .astray h hc hreached (.inr (Graph.node_of_node?_none hn))
      | some other =>
        rw [Graph.node_of_node? hn]
        have hasks : AsksCovering env g p id rest node c _ :=
          ⟨h, hc, hreached, hends, other, hn, rfl⟩
        simp only [Move.ofReply]
        split
        · rename_i e he
          exact .coveringFails hasks he
        · rename_i answer ha
          cases answer with
          | true => exact .covered hasks ha
          | false => exact .notCovered hasks ha

theorem visitUncovered_cases (h : Looks env g p id rest node) (hc : node.coveredBy? = none) :
    Stepped env g precision p
      (visitUncovered env g precision id node (p.looked id rest true)) := by
  unfold visitUncovered
  split
  · rename_i f hf
    exact .stray h hc hf
  · rename_i claimed hclaimed
    have hasks : AsksSuccessors env g p id rest node _ := ⟨h, hc, claimed, hclaimed, rfl⟩
    simp only [Move.ofReply]
    split
    · rename_i e he
      exact .successorsFail hasks he
    · rename_i answer ha
      cases answer with
      | true => exact .expand hasks ha rfl
      | false => exact .differ hasks ha

theorem step_cases (env : Environment κ σ) (g : Graph σ) (precision : π) (p : Progress κ π) :
    Stepped env g precision p (step env g precision p) := by
  unfold step
  split
  · rename_i id rest hpop
    unfold visit
    split
    · rename_i reason hreason
      exact .interrupted hpop hreason
    · rename_i hgoing
      cases hn : g.node? id with
      | none =>
        rw [Graph.node_of_node?_none hn]
        exact .unknown hpop hn
      | some node =>
        rw [Graph.node_of_node? hn]
        cases hholds : env.satisfies (.taken id :: p.history) node.state with
        | false =>
          simp only [Progress.record, hholds]
          exact .violated hpop hgoing hn hholds
        | true =>
          have hlooks : Looks env g p id rest node := ⟨hpop, hgoing, hn, hholds⟩
          simp only [Progress.record, hholds, Bool.not_true, Bool.false_eq_true, if_false]
          split
          · rename_i c hc
            exact visitCovered_cases hlooks hc
          · rename_i hc
            exact visitUncovered_cases hlooks hc
  · rename_i hpop
    split
    · rename_i hempty
      exact .finish hpop hempty
    · rename_i hempty
      exact .again hpop (Bool.eq_false_iff.2 hempty) rfl

end Cases

/-! ## Visits that lead on -/

section Forward

variable {env : Environment κ σ} {g : Graph σ} {precision : π} {p : Progress κ π} {id c : StateId}
  {rest : Reached StateId π} {node : Node σ} {reply : Reply κ}

theorem Looks.step_eq (h : Looks env g p id rest node) :
    step env g precision p =
      match node.coveredBy? with
      | some c => visitCovered env g id c node.state (p.looked id rest true)
      | none => visitUncovered env g precision id node (p.looked id rest true) := by
  have hholds := h.holds
  simp only [step, h.pop, visit, Progress.record, h.going, Graph.node_of_node? h.known, hholds,
    Bool.not_true, Bool.false_eq_true, if_false]
  rfl

theorem Looks.step_postpone (h : Looks env g p id rest node) (hc : node.coveredBy? = some c)
    (hmissing : c ∉ rest) : step env g precision p =
      .next { p.looked id rest true with postponed := p.postponed.insert id } := by
  rw [h.step_eq, hc]
  exact if_pos hmissing

theorem AsksCovering.step_eq (h : AsksCovering env g p id rest node c reply)
    (hr : reply.answer = .ok true) : step env g precision p =
      .next ((p.looked id rest true).record (.covering id c reply)) := by
  obtain ⟨other, hother, rfl⟩ := h.replies
  rw [h.looks.step_eq, h.link]
  have hreached : ¬ c ∉ (p.looked id rest true).reached := not_not_intro h.reached
  simp only [visitCovered, if_neg hreached, h.ends, Graph.node_of_node? hother, Move.ofReply, hr,
    if_true]

theorem AsksSuccessors.step_eq (h : AsksSuccessors env g p id rest node reply)
    (hr : reply.answer = .ok true) : step env g precision p =
      admitAll g precision id node.children
        ((p.looked id rest true).record (.successors id node.children reply)) := by
  obtain ⟨claimed, hclaimed, rfl⟩ := h.replies
  rw [h.looks.step_eq, h.uncovered]
  simp only [visitUncovered, hclaimed, Move.ofReply, hr, if_true]

end Forward

/-! ## Whole checks -/

inductive Steps (env : Environment κ σ) (g : Graph σ) (precision : π) :
    Progress κ π → Progress κ π → Prop where
  | refl {p} : Steps env g precision p p
  | cons {p p' q} : step env g precision p = .next p' → Steps env g precision p' q →
      Steps env g precision p q

section Runs

variable {env : Environment κ σ} {g : Graph σ} {precision : π} {p q : Progress κ π}

theorem Steps.preserve {P : Progress κ π → Prop}
    (hstep : ∀ p p', P p → step env g precision p = .next p' → P p')
    (hs : Steps env g precision p q) (h : P p) : P q := by
  induction hs with
  | refl => exact h
  | cons hnext _ ih => exact ih (hstep _ _ h hnext)

/-- Every check comes to a step that ends it. -/
theorem steps_run (env : Environment κ σ) (g : Graph σ) (precision : π) (p : Progress κ π) :
    ∃ q, Steps env g precision p q ∧
      step env g precision q =
        .halt (run env g precision p).progress (run env g precision p).outcome := by
  induction p using run.induct env g precision with
  | case1 p p' h ih =>
    obtain ⟨q, hs, hq⟩ := ih
    rw [run_of_next h]
    exact ⟨q, .cons h hs, hq⟩
  | case2 p p' outcome h =>
    rw [run_of_halt h]
    exact ⟨p, .refl, h⟩

/-- The step that ends a check is taken where what every step preserves holds. -/
theorem run_of_preserved {P : Progress κ π → Prop}
    (hstep : ∀ p p', P p → step env g precision p = .next p' → P p') (h : P p) :
    ∃ q, P q ∧ step env g precision q =
      .halt (run env g precision p).progress (run env g precision p).outcome := by
  obtain ⟨q, hs, hq⟩ := steps_run env g precision p
  exact ⟨q, hs.preserve hstep h, hq⟩

theorem check_eq_run (env : Environment κ σ) {reached : Reached StateId π}
    (h : reached.entries = [(g.root, precision)]) :
    check env g reached = run env g precision (.start reached g.root) := by
  simp only [check, h, if_true]

/-- A check that starts at the root alone takes steps from there. -/
theorem exists_check_eq_run (env : Environment κ σ) {reached : Reached StateId π}
    (hr : reached.IsFresh g.root) :
    ∃ precision, check env g reached = run env g precision (.start reached g.root) := by
  obtain ⟨precision, hentries⟩ := hr.exists_entries
  exact ⟨precision, check_eq_run env hentries⟩

end Runs

end Certificate
end StateSpace
