import StateSpace.Proofs.Certificate.Bookkeeping
import StateSpace.Proofs.Graph.Covering

/-!
# StateSpace.Proofs.Certificate.Records

What the records of a check tell of its steps.

* `timesTaken`: how often a state was taken from the waitlist. `records_of_step` says which steps
  take one, and `work_of_step` that every other step which leads on starts a pass.
* `fault_of_step`, `finish_of_valid`: the steps that end a check with a fault, or find its
  certificate valid.
-/

namespace StateSpace
namespace Certificate

open Std

variable {κ π σ : Type}

/-! ## Taking states -/

def Event.takes (s : StateId) : Event κ → Bool
  | .taken id => id = s
  | _ => false

/-- How often the state was taken from the waitlist. -/
def timesTaken (h : History κ) (s : StateId) : Nat := h.countP (·.takes s)

section Counting

variable {h : History κ} {s id : StateId}

theorem timesTaken_cons {e : Event κ} :
    timesTaken (e :: h) s = timesTaken h s + if e.takes s then 1 else 0 :=
  List.countP_cons ..

@[simp] theorem timesTaken_taken :
    timesTaken (.taken id :: h) s = timesTaken h s + if id = s then 1 else 0 := by
  simp [timesTaken_cons, Event.takes]

@[simp] theorem timesTaken_successors {claimed : List StateId} {reply : Reply κ} :
    timesTaken (.successors id claimed reply :: h) s = timesTaken h s :=
  timesTaken_cons

@[simp] theorem timesTaken_covering {c : StateId} {reply : Reply κ} :
    timesTaken (.covering id c reply :: h) s = timesTaken h s :=
  timesTaken_cons

theorem mem_history_of_timesTaken_pos (hs : 0 < timesTaken h s) : .taken s ∈ h := by
  obtain ⟨e, he, htakes⟩ := List.countP_pos_iff.1 hs
  cases e with
  | taken id =>
    have hid : id = s := by simpa [Event.takes] using htakes
    exact hid ▸ he
  | _ => cases htakes

end Counting

/-! ## What a step adds to the records -/

def Move.progress : Move κ π → Progress κ π
  | .next p => p
  | .halt p _ => p

section Records

variable {env : Environment κ σ} {g : Graph σ} {precision : π} {p q : Progress κ π}
  {id : StateId}

theorem progress_requeueAll (l : List StateId) : ∃ waitlist,
    (requeueAll g l p).progress = { p with reached := { p.reached with waitlist } } := by
  induction l generalizing p with
  | nil => exact ⟨_, rfl⟩
  | cons id rest ih =>
    rw [requeueAll]
    split
    · exact ih
    · split
      · obtain ⟨waitlist, h⟩ := ih (p := { p with reached := p.reached.requeue id })
        refine ⟨waitlist, h.trans ?_⟩
        simp only [Reached.requeue]
        split <;> rfl
      · exact ⟨_, rfl⟩

theorem progress_startPass (g : Graph σ) (p : Progress κ π) : ∃ waitlist,
    (startPass g p).progress = { p with
      reached := { p.reached with waitlist }
      passes := p.passes + 1
      postponed := ∅ } :=
  progress_requeueAll p.postponed.toList

/-- Admitting successors leaves the records of a check alone. -/
structure SameRecords (p q : Progress κ π) : Prop where
  history : q.history = p.history
  iterations : q.iterations = p.iterations
  passes : q.passes = p.passes

theorem sameRecords_admitAll (g : Graph σ) (precision : π) (id : StateId)
    (children : List StateId) (p : Progress κ π) :
    SameRecords p (admitAll g precision id children p).progress := by
  have hstep : ∀ child (rest : List StateId) q q', SameRecords p q →
      admitChild g precision id child q = .next q' → SameRecords p q' := by
    intro child _ q q' hq hm
    rcases (admitChild_next hm).2 with ⟨-, rfl⟩ | ⟨-, -, -, rfl⟩ | ⟨-, -, rfl⟩
    · exact ⟨hq.history, hq.iterations, hq.passes⟩
    · exact hq
    · exact ⟨hq.history, hq.iterations, hq.passes⟩
  rcases admitAll_cases (P := fun _ q => SameRecords p q) hstep ⟨rfl, rfl, rfl⟩ with
    ⟨q, hq, hrecords⟩ | ⟨_, _, q, hrecords, _, _, hq⟩
  all_goals
    rw [hq]
    exact hrecords

theorem timesTaken_looked {rest : Reached StateId π} {holds : Bool} (s : StateId) :
    timesTaken (p.looked id rest holds).history s =
      timesTaken p.history s + if id = s then 1 else 0 :=
  timesTaken_cons.trans timesTaken_taken

theorem timesTaken_record_covering {c : StateId} {reply : Reply κ} (s : StateId) :
    timesTaken (p.record (.covering id c reply)).history s = timesTaken p.history s :=
  timesTaken_covering

theorem timesTaken_record_successors {claimed : List StateId} {reply : Reply κ} (s : StateId) :
    timesTaken (p.record (.successors id claimed reply)).history s = timesTaken p.history s :=
  timesTaken_successors

/-- A step finds nothing left to do, or it starts a pass, or it takes a state. -/
theorem records_of_step (env : Environment κ σ) (precision : π) (h : Bookkeeping g p) :
    (p.reached.pop? = none ∧ p.postponed.isEmpty = true ∧
        (step env g precision p).progress = p) ∨
      (p.reached.pop? = none ∧ p.postponed.isEmpty = false ∧
        (step env g precision p).progress.history = p.history ∧
        (step env g precision p).progress.passes = p.passes + 1) ∨
      ∃ id rest, p.reached.pop? = some (id, rest) ∧
        (step env g precision p).progress.passes = p.passes ∧
        ∀ s, timesTaken (step env g precision p).progress.history s =
          timesTaken p.history s + if id = s then 1 else 0 := by
  have hcases := step_cases env g precision p
  generalize step env g precision p = m at hcases ⊢
  have hcovering : ∀ {id rest c reply} (s : StateId),
      timesTaken ((p.looked id rest true).record (.covering id c reply)).history s =
        timesTaken p.history s + if id = s then 1 else 0 :=
    fun s => (timesTaken_record_covering s).trans (timesTaken_looked s)
  have hsuccessors : ∀ {id rest claimed reply} (s : StateId),
      timesTaken ((p.looked id rest true).record (.successors id claimed reply)).history s =
        timesTaken p.history s + if id = s then 1 else 0 :=
    fun s => (timesTaken_record_successors s).trans (timesTaken_looked s)
  cases hcases with
  | finish hpop hpost => exact .inl ⟨hpop, hpost, rfl⟩
  | again hpop hpost hstart =>
    subst hstart
    obtain ⟨waitlist, hq⟩ := progress_startPass g p
    refine .inr (.inl ⟨hpop, hpost, ?_⟩)
    rw [hq]
    exact ⟨rfl, rfl⟩
  | unknown hpop hnode =>
    have hmem := h.mem_of_pop? hpop
    exact absurd (h.holds _ hmem) (Graph.node?_eq_none_iff.1 hnode)
  | interrupted hpop => exact .inr (.inr ⟨_, _, hpop, rfl, fun _ => timesTaken_taken⟩)
  | violated hpop => exact .inr (.inr ⟨_, _, hpop, rfl, timesTaken_looked⟩)
  | @postponed id rest _ _ hl =>
    have htaken : ∀ s, timesTaken (p.looked id rest true).history s =
        timesTaken p.history s + if id = s then 1 else 0 := timesTaken_looked
    exact .inr (.inr ⟨_, _, hl.pop, rfl, htaken⟩)
  | endless hl => exact .inr (.inr ⟨_, _, hl.pop, rfl, timesTaken_looked⟩)
  | astray hl => exact .inr (.inr ⟨_, _, hl.pop, rfl, timesTaken_looked⟩)
  | covered ha => exact .inr (.inr ⟨_, _, ha.looks.pop, rfl, hcovering⟩)
  | notCovered ha => exact .inr (.inr ⟨_, _, ha.looks.pop, rfl, hcovering⟩)
  | coveringFails ha => exact .inr (.inr ⟨_, _, ha.looks.pop, rfl, hcovering⟩)
  | stray hl => exact .inr (.inr ⟨_, _, hl.pop, rfl, timesTaken_looked⟩)
  | @expand id rest node reply _ ha _ hall =>
    subst hall
    have hrecords := sameRecords_admitAll g precision id node.children
      ((p.looked id rest true).record (.successors id node.children reply))
    refine .inr (.inr ⟨_, _, ha.looks.pop, hrecords.passes, fun s => ?_⟩)
    rw [hrecords.history]
    exact hsuccessors s
  | differ ha => exact .inr (.inr ⟨_, _, ha.looks.pop, rfl, hsuccessors⟩)
  | successorsFail ha => exact .inr (.inr ⟨_, _, ha.looks.pop, rfl, hsuccessors⟩)

/-- A step that leads on took a state, or it started a pass. -/
theorem work_of_step {p' : Progress κ π} (hm : step env g precision p = .next p') :
    p'.iterations + p'.passes = p.iterations + p.passes + 1 := by
  have hcases := step_cases env g precision p
  rw [hm] at hcases
  cases hcases with
  | again _ _ hstart =>
    obtain ⟨waitlist, hp'⟩ := progress_startPass g p
    rw [hstart] at hp'
    obtain rfl : p' = _ := hp'
    exact (Nat.add_assoc _ _ _).symm
  | postponed => exact Nat.add_right_comm _ _ _
  | covered => exact Nat.add_right_comm _ _ _
  | @expand id rest node reply _ _ _ hall =>
    have hrecords := sameRecords_admitAll g precision id node.children
      ((p.looked id rest true).record (.successors id node.children reply))
    rw [hall] at hrecords
    obtain ⟨-, hiterations, hpasses⟩ := hrecords
    simp only [Move.progress, Progress.record, Progress.looked] at hiterations hpasses
    omega

end Records

/-! ## The end of a check -/

def Event.reply? : Event κ → Option (Reply κ)
  | .successors _ _ reply => some reply
  | .covering _ _ reply => some reply
  | _ => none

section Ends

variable {env : Environment κ σ} {g : Graph σ} {precision : π} {p q : Progress κ π}
  {id : StateId} {rest : Reached StateId π} {node : Node σ}

theorem Looks.not_astray {c : StateId} {f : Fault} (hg : g.InRange)
    (hl : Looks env g p id rest node) (hc : node.coveredBy? = some c) :
    ¬ (g.coveringEnds id = .error f ∨ g.node c = .error f) := by
  rintro (hf | hf)
  · obtain ⟨_, hends⟩ := Graph.exists_coveringEnds hg (Graph.holds_of_node? hl.known)
    cases hends.symm.trans hf
  · have hholds : g.Holds c := hg.covering id c (hl.coveredBy?_eq.trans hc)
    obtain ⟨_, hnode⟩ := Graph.exists_node? hholds
    cases (Graph.node_of_node? hnode).symm.trans hf

theorem Looks.not_stray {f : Fault} (hg : g.InRange) (hl : Looks env g p id rest node) :
    g.states node.children ≠ .error f := by
  intro hf
  obtain ⟨_, hstates⟩ := Graph.exists_states (hg.children id)
  rw [Graph.children_of_node? hl.known] at hstates
  cases hstates.symm.trans hf

/-- In a graph that stays inside itself only the oracle can break a rule. -/
theorem fault_of_step {f : Fault} (hg : g.InRange) (hb : Bookkeeping g p)
    (hm : step env g precision p = .halt q (.error (.fault f))) :
    ∃ e ∈ q.history, ∃ reply, e.reply? = some reply ∧ reply.answer = .error (.fault f) := by
  have hcases := step_cases env g precision p
  rw [hm] at hcases
  generalize houtcome : (Except.error (.fault f) : Outcome) = outcome at hcases
  have hfault : ∀ {e : Failure Analysis.Error}, (Except.error (.fault f) : Outcome) =
      .error (e.mapError Error.ofAnalysis) → e = .fault f := by
    intro e he
    cases e with
    | error e => cases he
    | fault f' =>
      cases he
      rfl
  cases hcases with
  | again _ _ hstart =>
    obtain ⟨_, _, _, _, _, _, hother⟩ := startPass_halt hstart
    cases houtcome.trans hother
  | unknown hpop hnode =>
    exact absurd (hb.holds _ (hb.mem_of_pop? hpop)) (Graph.node?_eq_none_iff.1 hnode)
  | astray hl hc _ hf => exact absurd hf (hl.not_astray hg hc)
  | stray hl _ hf => exact absurd hf (hl.not_stray hg)
  | coveringFails _ hfails =>
    exact ⟨_, List.mem_cons_self, _, rfl, hfails.trans (congrArg _ (hfault houtcome))⟩
  | successorsFail _ hfails =>
    exact ⟨_, List.mem_cons_self, _, rfl, hfails.trans (congrArg _ (hfault houtcome))⟩
  | expand _ _ hall =>
    obtain ⟨_, hother⟩ := admitAll_halt hall
    cases houtcome.trans hother
  | _ => cases houtcome

/-- A step finds the certificate valid only when there is nothing left to do. -/
theorem finish_of_valid (hm : step env g precision p = .halt q (.ok .valid)) :
    q = p ∧ p.reached.pop? = none ∧ p.postponed.isEmpty = true ∧ p.blocked.isEmpty = true := by
  have hcases := step_cases env g precision p
  rw [hm] at hcases
  generalize houtcome : (Except.ok .valid : Outcome) = outcome at hcases
  cases hcases with
  | finish hpop hpost =>
    refine ⟨rfl, hpop, hpost, ?_⟩
    cases hblocked : p.blocked.isEmpty with
    | true => rfl
    | false => simp [Progress.verdict, hblocked] at houtcome
  | again _ _ hstart =>
    obtain ⟨_, _, _, _, _, _, hother⟩ := startPass_halt hstart
    cases houtcome.trans hother
  | expand _ _ hall =>
    obtain ⟨_, hother⟩ := admitAll_halt hall
    cases houtcome.trans hother
  | _ => cases houtcome

end Ends

end Certificate
end StateSpace
