import StateSpace.Proofs.Certificate.Rejection
import StateSpace.Proofs.Certificate.Work

/-!
# StateSpace.Proofs.Certificate.Interruption

What stops a check before it comes to a verdict: a request to stop that is seen when a state is
taken, or an oracle that gives no answer.

* `Event.failure?`, `firstFailure?`: what went wrong with an event, and what went wrong first.
* `Orderly`: a history in which everything was asked in its turn and is answered as it was then. An
  event that does not lead on is the last one, so an orderly history holds one failure at most, and
  nothing after it (`Orderly.firstFailure?_cons`, `Orderly.eq_of_failure`).
* `Going`: the history of a check between two steps. `Going.next`, `Going.halt`: a step keeps it, or
  ends the check as the last event says.
* `heeded_check`: a check fails exactly with its first failure, and else comes to a verdict.
-/

namespace StateSpace
namespace Certificate

variable {κ π σ : Type}

def failureOf? {ε α : Type} : Except ε α → Option ε
  | .error e => some e
  | .ok _ => none

/-- What went wrong with an event. To take a state while there is a request to stop goes wrong, and
so does a question that the oracle does not answer. -/
def Event.failure? (env : Environment κ σ) (earlier : History κ) :
    Event κ → Option (Failure Analysis.Error)
  | .taken id => (env.stop? (.taken id :: earlier)).map fun reason => .error (.interrupted ⟨reason⟩)
  | .property _ _ => none
  | .successors _ _ reply => failureOf? reply.answer
  | .covering _ _ reply => failureOf? reply.answer

def firstFailure? (env : Environment κ σ) : History κ → Option (Failure Analysis.Error)
  | [] => none
  | event :: earlier => (firstFailure? env earlier).or (event.failure? env earlier)

/-- Another state may be taken after this event. -/
def Event.LeadsOn : Event κ → Prop
  | .taken _ => False
  | .property _ holds => holds = true
  | .successors _ _ reply => reply.answer = .ok true
  | .covering _ _ reply => reply.answer = .ok true

/-- A history in which everything was asked in its turn: whoever took a state saw no request to stop
before asking for the property, and saw that hold before putting one question to the oracle. -/
inductive Orderly (env : Environment κ σ) (g : Graph σ) : History κ → Prop where
  | nil : Orderly env g []
  | taken {h} (id : StateId) : Orderly env g h → (∀ event ∈ h.head?, event.LeadsOn) →
      Orderly env g (.taken id :: h)
  | property {h id state} : Orderly env g (.taken id :: h) → env.stop? (.taken id :: h) = none →
      g.state? id = some state →
      Orderly env g (.property id (env.satisfies (.taken id :: h) state) :: .taken id :: h)
  | successors {h id state claimed} : Orderly env g (.property id true :: h) →
      g.coveredBy? id = none → g.state? id = some state →
      g.states (g.children id) = .ok claimed →
      Orderly env g (.successors id (g.children id)
        ((env.oracle (.property id true :: h)).successors state claimed) :: .property id true :: h)
  | covering {h id c state other} : Orderly env g (.property id true :: h) →
      g.coveredBy? id = some c → g.state? id = some state → g.state? c = some other →
      Orderly env g (.covering id c
        ((env.oracle (.property id true :: h)).covered state other) :: .property id true :: h)

/-- The history of a check that goes on. -/
structure Going (env : Environment κ σ) (g : Graph σ) (h : History κ) : Prop where
  orderly : Orderly env g h
  leads : ∀ event ∈ h.head?, event.LeadsOn

/-! ## Failures of an orderly history -/

section Histories

variable {env : Environment κ σ} {g : Graph σ} {h earlier : History κ} {event : Event κ}

theorem Event.LeadsOn.failure?_eq_none (hl : event.LeadsOn) : event.failure? env h = none := by
  cases event with
  | taken id => cases hl
  | property id holds => rfl
  | successors id claimed reply =>
    have hanswer : reply.answer = .ok true := hl
    simp only [failure?, hanswer, failureOf?]
  | covering id c reply =>
    have hanswer : reply.answer = .ok true := hl
    simp only [failure?, hanswer, failureOf?]

namespace Orderly

theorem firstFailure?_tail (hg : Orderly env g h) : firstFailure? env h.tail = none := by
  induction hg with
  | nil => rfl
  | @taken h id _ hleads ih =>
    cases h with
    | nil => rfl
    | cons event h =>
      have hlast : event.failure? env h = none := (hleads event rfl).failure?_eq_none
      rw [List.tail_cons] at ih ⊢
      rw [firstFailure?, ih, hlast, Option.or_none]
  | @property h id state _ hgoing _ ih =>
    rw [List.tail_cons] at ih ⊢
    rw [firstFailure?, ih, Event.failure?, hgoing, Option.map_none, Option.or_none]
  | successors _ _ _ _ ih =>
    rw [List.tail_cons] at ih ⊢
    rw [firstFailure?, ih, Event.failure?, Option.or_none]
  | covering _ _ _ _ ih =>
    rw [List.tail_cons] at ih ⊢
    rw [firstFailure?, ih, Event.failure?, Option.or_none]

/-- Only the last event can have gone wrong. -/
theorem firstFailure?_cons (hg : Orderly env g (event :: h)) :
    firstFailure? env (event :: h) = event.failure? env h := by
  have htail : firstFailure? env h = none := hg.firstFailure?_tail
  rw [firstFailure?, htail, Option.none_or]

theorem eq_of_failure (hg : Orderly env g h) (hs : event :: earlier <:+ h)
    (hf : event.failure? env earlier ≠ none) : event :: earlier = h := by
  obtain ⟨later, rfl⟩ := hs
  cases later with
  | nil => rfl
  | cons next later =>
    have hnone : firstFailure? env (later ++ event :: earlier) = none := hg.firstFailure?_tail
    have hlost : ∀ l : History κ, firstFailure? env (l ++ event :: earlier) = none →
        firstFailure? env (event :: earlier) = none := by
      intro l
      induction l with
      | nil => exact fun hn => hn
      | cons e l ih => exact fun hn => ih (Option.or_eq_none_iff.1 hn).1
    exact absurd (Option.or_eq_none_iff.1 (hlost later hnone)).2 hf

end Orderly

theorem Going.firstFailure?_eq_none (hg : Going env g h) : firstFailure? env h = none := by
  cases h with
  | nil => rfl
  | cons event h =>
    rw [hg.orderly.firstFailure?_cons]
    exact (hg.leads event rfl).failure?_eq_none

theorem Going.nil : Going env g ([] : History κ) := by
  refine ⟨.nil, fun event he => ?_⟩
  cases he

theorem Going.cons (hg : Orderly env g (event :: h)) (hl : event.LeadsOn) :
    Going env g (event :: h) := by
  refine ⟨hg, fun e he => ?_⟩
  cases he
  exact hl

end Histories

/-! ## One step -/

section Steps

variable {env : Environment κ σ} {g : Graph σ} {precision : π} {p p' q : Progress κ π}
  {id c : StateId} {rest : Reached StateId π} {node : Node σ} {reply : Reply κ}
  {outcome : Outcome}

theorem Going.taken (h : Going env g p.history) (id : StateId) :
    Orderly env g (.taken id :: p.history) := .taken id h.orderly h.leads

theorem Looks.orderly (hl : Looks env g p id rest node) (h : Going env g p.history) :
    Orderly env g (p.looked id rest true).history := by
  have hproperty := Orderly.property (h.taken id) hl.going (Graph.state?_of_node? hl.known)
  rwa [hl.holds] at hproperty

theorem Looks.keepsGoing (hl : Looks env g p id rest node) (h : Going env g p.history) :
    Going env g (p.looked id rest true).history := .cons (hl.orderly h) rfl

theorem AsksCovering.orderly (ha : AsksCovering env g p id rest node c reply)
    (h : Going env g p.history) :
    Orderly env g ((p.looked id rest true).record (.covering id c reply)).history := by
  obtain ⟨other, hother, rfl⟩ := ha.replies
  exact .covering (ha.looks.orderly h) ha.coveredBy?_eq (Graph.state?_of_node? ha.looks.known)
    (Graph.state?_of_node? hother)

theorem AsksSuccessors.orderly (ha : AsksSuccessors env g p id rest node reply)
    (h : Going env g p.history) :
    Orderly env g
      ((p.looked id rest true).record (.successors id node.children reply)).history := by
  obtain ⟨claimed, hclaimed, rfl⟩ := ha.replies
  rw [← Graph.children_of_node? ha.looks.known] at hclaimed ⊢
  exact .successors (ha.looks.orderly h) ha.coveredBy?_eq (Graph.state?_of_node? ha.looks.known)
    hclaimed

theorem history_startPass (g : Graph σ) (p : Progress κ π) :
    (startPass g p).progress.history = p.history := by
  obtain ⟨waitlist, hm⟩ := progress_startPass g p
  rw [hm]

/-- A check that goes on saw no failure, and its last answer was yes. -/
theorem Going.next (h : Going env g p.history) (hm : step env g precision p = .next p') :
    Going env g p'.history := by
  have hcases := step_cases env g precision p
  rw [hm] at hcases
  cases hcases with
  | again _ _ hstart =>
    have hsame := history_startPass g p
    rw [hstart] at hsame
    have hhistory : p'.history = p.history := hsame
    rwa [hhistory]
  | postponed hl => exact .cons (hl.orderly h) rfl
  | covered ha hr => exact .cons (ha.orderly h) hr
  | @expand id rest node reply _ ha hr hall =>
    have hsame := (sameRecords_admitAll g precision id node.children
      ((p.looked id rest true).record (.successors id node.children reply))).history
    rw [hall] at hsame
    have hhistory : p'.history = _ := hsame
    rw [hhistory]
    exact .cons (ha.orderly h) hr

/-- The outcome is what the failures of the history call for. -/
def Befits (env : Environment κ σ) (h : History κ) (outcome : Outcome) : Prop :=
  failureOf? outcome = (firstFailure? env h).map (·.mapError Error.ofAnalysis)

theorem Going.befits_ok (h : Going env g p.history) (v : Verdict) :
    Befits env p.history (.ok v) := by
  rw [Befits, h.firstFailure?_eq_none]
  rfl

theorem Orderly.befits {event : Event κ} {h : History κ} (hg : Orderly env g (event :: h))
    (ho : failureOf? outcome = (event.failure? env h).map (·.mapError Error.ofAnalysis)) :
    Befits env (event :: h) outcome := by
  rw [Befits, hg.firstFailure?_cons]
  exact ho

/-- The step that ends a check ends it as its last event says. -/
theorem Going.halt (h : Going env g p.history) (hg : g.InRange) (hb : Bookkeeping g p)
    (hm : step env g precision p = .halt q outcome) :
    Orderly env g q.history ∧ Befits env q.history outcome := by
  have hcases := step_cases env g precision p
  rw [hm] at hcases
  cases hcases with
  | finish => exact ⟨h.orderly, h.befits_ok _⟩
  | again _ _ hstart =>
    have hsame := history_startPass g p
    rw [hstart] at hsame
    have hhistory : q.history = p.history := hsame
    obtain ⟨_, _, _, _, _, _, rfl⟩ := startPass_halt hstart
    rw [hhistory]
    exact ⟨h.orderly, h.befits_ok _⟩
  | @interrupted id rest reason hpop hstop =>
    refine ⟨h.taken id, (h.taken id).befits ?_⟩
    rw [Event.failure?, hstop]
    rfl
  | unknown hpop hnode =>
    exact absurd (hb.holds _ (hb.mem_of_pop? hpop)) (Graph.node?_eq_none_iff.1 hnode)
  | violated hpop hgoing hnode hfalse =>
    have horderly := Orderly.property (h.taken _) hgoing (Graph.state?_of_node? hnode)
    rw [hfalse] at horderly
    exact ⟨horderly, horderly.befits rfl⟩
  | endless hl => exact ⟨hl.orderly h, (hl.keepsGoing h).befits_ok _⟩
  | astray hl hc _ hf => exact absurd hf (hl.not_astray hg hc)
  | notCovered ha hr =>
    refine ⟨ha.orderly h, (ha.orderly h).befits ?_⟩
    rw [Event.failure?, hr]
    rfl
  | coveringFails ha hr =>
    refine ⟨ha.orderly h, (ha.orderly h).befits ?_⟩
    rw [Event.failure?, hr]
    rfl
  | stray hl _ hf => exact absurd hf (hl.not_stray hg)
  | @expand id rest node reply _ ha hr hall =>
    have hsame := (sameRecords_admitAll g precision id node.children
      ((p.looked id rest true).record (.successors id node.children reply))).history
    rw [hall] at hsame
    have hhistory : q.history = _ := hsame
    obtain ⟨child, rfl⟩ := admitAll_halt hall
    have hgoing : Going env g q.history := by
      rw [hhistory]
      exact .cons (ha.orderly h) hr
    exact ⟨hgoing.orderly, hgoing.befits_ok _⟩
  | differ ha hr =>
    refine ⟨ha.orderly h, (ha.orderly h).befits ?_⟩
    rw [Event.failure?, hr]
    rfl
  | successorsFail ha hr =>
    refine ⟨ha.orderly h, (ha.orderly h).befits ?_⟩
    rw [Event.failure?, hr]
    rfl

end Steps

/-! ## Whole checks -/

theorem failureOf?_eq_some_iff {ε α : Type} {x : Except ε α} {e : ε} :
    failureOf? x = some e ↔ x = .error e := by
  cases x <;> simp [failureOf?]

theorem failureOf?_eq_none_iff {ε α : Type} {x : Except ε α} :
    failureOf? x = none ↔ ∃ a, x = .ok a := by
  cases x <;> simp [failureOf?]

theorem mapError_eq_interrupted_iff {e : Failure Analysis.Error} {i : Interruption} :
    e.mapError Error.ofAnalysis = .error (.interrupted i) ↔ e = .error (.interrupted i) := by
  cases e with
  | error e => cases e <;> simp [Failure.mapError, Error.ofAnalysis]
  | fault f => simp [Failure.mapError]

theorem mapError_eq_oracle_iff {e : Failure Analysis.Error} {cause : Analysis.Error} :
    e.mapError Error.ofAnalysis = .error (.oracle cause) ↔
      e = .error cause ∧ ∀ i, cause ≠ .interrupted i := by
  cases e with
  | error e =>
    cases e <;> cases cause <;> simp [Failure.mapError, Error.ofAnalysis]
  | fault f => simp [Failure.mapError]

theorem mapError_eq_fault_iff {e : Failure Analysis.Error} {f : Fault} :
    e.mapError Error.ofAnalysis = .fault f ↔ e = .fault f := by
  cases e <;> simp [Failure.mapError]

/-- The check fails exactly with its first failure, which is the last thing that happens in it. -/
structure Heeded (env : Environment κ σ) (g : Graph σ) (r : Report κ π) : Prop where
  orderly : Orderly env g r.progress.history
  interrupted : ∀ i, r.outcome = .error (.error (.interrupted i)) ↔
    firstFailure? env r.progress.history = some (.error (.interrupted i))
  failed : ∀ e, r.outcome = .error (.error (.oracle e)) ↔
    firstFailure? env r.progress.history = some (.error e) ∧ ∀ i, e ≠ .interrupted i
  faulted : ∀ f, r.outcome = .error (.fault f) ↔
    firstFailure? env r.progress.history = some (.fault f)
  decided : (∃ v, r.outcome = .ok v) ↔ firstFailure? env r.progress.history = none
  last : ∀ event earlier, event :: earlier <:+ r.progress.history →
    event.failure? env earlier ≠ none → event :: earlier = r.progress.history

section Checks

variable {env : Environment κ σ} {g : Graph σ} {reached : Reached StateId π} {r : Report κ π}
  {h : History κ} {outcome : Outcome}

theorem Befits.error_iff (hb : Befits env h outcome) {f : Failure Error} :
    outcome = .error f ↔
      ∃ e, firstFailure? env h = some e ∧ e.mapError Error.ofAnalysis = f := by
  rw [← failureOf?_eq_some_iff, hb, Option.map_eq_some_iff]

theorem Befits.ok_iff (hb : Befits env h outcome) :
    (∃ v, outcome = .ok v) ↔ firstFailure? env h = none := by
  rw [← failureOf?_eq_none_iff, hb, Option.map_eq_none_iff]

theorem heeded_of_befits (hg : Orderly env g r.progress.history)
    (hb : Befits env r.progress.history r.outcome) : Heeded env g r := by
  refine ⟨hg, fun i => ?_, fun e => ?_, fun f => ?_, hb.ok_iff, fun _ _ => hg.eq_of_failure⟩
  · rw [hb.error_iff]
    simp only [mapError_eq_interrupted_iff, exists_eq_right]
  · rw [hb.error_iff]
    simp only [mapError_eq_oracle_iff]
    constructor
    · rintro ⟨_, hfirst, rfl, hother⟩
      exact ⟨hfirst, hother⟩
    · rintro ⟨hfirst, hother⟩
      exact ⟨_, hfirst, rfl, hother⟩
  · rw [hb.error_iff]
    simp only [mapError_eq_fault_iff, exists_eq_right]

theorem step_of_stop {precision : π} {p : Progress κ π} {id : StateId} {rest : Reached StateId π}
    {reason : String} (hpop : p.reached.pop? = some (id, rest))
    (hstop : env.stop? (.taken id :: p.history) = some reason) :
    step env g precision p =
      .halt (p.took id rest) (.error (.error (.interrupted ⟨reason⟩))) := by
  simp only [step, hpop, visit, Progress.record, hstop, Progress.took]

/-- A check that is asked to stop before it starts takes the root and does nothing else. -/
theorem check_of_stop {reason : String} (hr : reached.IsFresh g.root)
    (hstop : env.stop? [.taken g.root] = some reason) :
    (check env g reached).outcome = .error (.error (.interrupted ⟨reason⟩)) ∧
      (check env g reached).progress.history = [.taken g.root] := by
  obtain ⟨precision, hcheck⟩ := exists_check_eq_run env hr
  have hpop := Reached.pop?_of_waitlist hr.2
  rw [hcheck, run_of_halt (step_of_stop (p := .start reached g.root) hpop hstop)]
  exact ⟨rfl, rfl⟩

/-- A check that is interrupted or left without an answer says so, asks nothing more, and never
passes it off as a verdict. -/
theorem heeded_check (hg : g.InRange) (hr : reached.IsFresh g.root) :
    Heeded env g (check env g reached) ∧
      ∀ reason, env.stop? [.taken g.root] = some reason →
        (check env g reached).outcome = .error (.error (.interrupted ⟨reason⟩)) ∧
          (check env g reached).progress.history = [.taken g.root] := by
  refine ⟨?_, fun reason => check_of_stop hr⟩
  obtain ⟨precision, hcheck⟩ := exists_check_eq_run env hr
  have hstep : ∀ p p' : Progress κ π, Settled env g p ∧ Going env g p.history →
      step env g precision p = .next p' → Settled env g p' ∧ Going env g p'.history :=
    fun _ _ h hm => ⟨h.1.step hm, h.2.next hm⟩
  obtain ⟨q, ⟨hsettled, hgoing⟩, hm⟩ := run_of_preserved hstep ⟨.start hr, .nil⟩
  obtain ⟨horderly, hbefits⟩ := hgoing.halt hg hsettled.books hm
  rw [hcheck]
  exact heeded_of_befits horderly hbefits

end Checks

/-- An oracle that fails when it is asked for the covering of `s`, in the second pass. -/
def forgetful : Environment Unit ProgramState :=
  .steady (Table.oracle { coveredFails := [("s", .failed "no memory")] }) (.rejecting [])

/-- An oracle that confirms everything, but there was a request to stop from the beginning. -/
def cancelled : Environment Unit ProgramState :=
  { Environment.steady approving (.rejecting []) with stop? := fun _ => some "enough" }

theorem heeded_check_postponing :
    postponing.InRange ∧ (Reached.empty.add postponing.root ()).IsFresh postponing.root ∧
      Heeded forgetful postponing
        (check forgetful postponing (Reached.empty.add postponing.root ())) ∧
      (check forgetful postponing (Reached.empty.add postponing.root ())).outcome =
        .error (.error (.oracle (.failed "no memory"))) ∧
      (check forgetful postponing (Reached.empty.add postponing.root ())).progress.passes = 2 ∧
      cancelled.stop? [.taken postponing.root] = some "enough" ∧
      (check cancelled postponing (Reached.empty.add postponing.root ())).outcome =
        .error (.error (.interrupted ⟨"enough"⟩)) ∧
      (check cancelled postponing (Reached.empty.add postponing.root ())).progress.history =
        [.taken postponing.root] := by
  have hr := Reached.isFresh_add_empty postponing.root ()
  obtain ⟨hforgetful, -⟩ := @heeded_check _ _ _ forgetful _ _ inRange_postponing hr
  obtain ⟨-, hcancelled⟩ := @heeded_check _ _ _ cancelled _ _ inRange_postponing hr
  exact ⟨inRange_postponing, hr, hforgetful, by decide +kernel, by decide +kernel, rfl,
    hcancelled "enough" rfl⟩

end Certificate
end StateSpace
