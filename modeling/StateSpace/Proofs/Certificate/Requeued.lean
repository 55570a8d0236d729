import StateSpace.Proofs.Certificate.Coherence

/-!
# StateSpace.Proofs.Certificate.Requeued

The second pass of a check, all at once.

* `Confirmable`: a covered state that a visit finds nothing wrong with, once the state that covers
  it was admitted.
* `run_of_confirmable`: a waitlist of such states is worked off, whatever their order.
* `run_of_idle`: when nothing waits any more, the rest of a check only works off the postponed
  states. `WorkedOff` says what such a run leaves alone, and how much work it is.
-/

namespace StateSpace
namespace Certificate

open Std

variable {κ π σ : Type}

/-- The state has its property, and it is covered as it claims. -/
structure Confirmable (oracle : Oracle κ σ) (property : Property σ) (g : Graph σ)
    (s c : StateId) (node other : Node σ) : Prop where
  known : g.node? s = some node
  link : node.coveredBy? = some c
  covering : g.node? c = some other
  holds : property node.state = true
  ends : g.coveringEnds s = .ok true
  answer : (oracle.covered node.state other.state).answer = .ok true

/-- The state is confirmable, with an admitted state that covers it. -/
def Progress.Confirms (oracle : Oracle κ σ) (property : Property σ) (g : Graph σ)
    (p : Progress κ π) (s : StateId) : Prop :=
  ∃ c ∈ p.reached, ∃ node other, Confirmable oracle property g s c node other

/-- A run that admitted nothing, but started some passes and looked at some states. -/
structure WorkedOff (p : Progress κ π) (passes looks : Nat) (r : Report κ π) : Prop where
  outcome : r.outcome = .ok p.verdict
  entries : r.progress.reached.entries = p.reached.entries
  passes : r.progress.passes = p.passes + passes
  iterations : r.progress.iterations = p.iterations + looks

section SecondPass

variable {oracle : Oracle κ σ} {property : Property σ} {g : Graph σ} {precision : π}
  {p q : Progress κ π} {s c : StateId}

theorem Confirmable.step_eq {node other : Node σ} {l : List StateId} (precision : π)
    (h : Confirmable oracle property g s c node other) (hw : p.reached.waitlist = s :: l)
    (hc : c ∈ p.reached) : ∃ reply,
    step (.steady oracle property) g precision p =
      .next ((p.looked s { p.reached with waitlist := l } true).record (.covering s c reply)) := by
  have hlooks : Looks (.steady oracle property) g p s { p.reached with waitlist := l } node :=
    ⟨Reached.pop?_of_waitlist hw, rfl, h.known, h.holds⟩
  have hasks : AsksCovering (.steady oracle property) g p s { p.reached with waitlist := l } node c
      (oracle.covered node.state other.state) :=
    ⟨hlooks, h.link, hc, h.ends, other, h.covering, rfl⟩
  exact ⟨_, hasks.step_eq h.answer⟩

/-- A waitlist of confirmable states is worked off, whatever their order. -/
theorem run_of_confirmable (precision : π) (hpost : p.postponed.isEmpty = true)
    (hw : ∀ s ∈ p.reached.waitlist, p.Confirms oracle property g s) :
    WorkedOff p 0 p.reached.waitlist.length (run (.steady oracle property) g precision p) := by
  induction hl : p.reached.waitlist generalizing p with
  | nil =>
    have hstep : step (.steady oracle property) g precision p = .halt p (.ok p.verdict) := by
      simp [step, Reached.pop?_of_idle hl, hpost]
    rw [run_of_halt hstep]
    exact ⟨rfl, rfl, rfl, rfl⟩
  | cons s l ih =>
    obtain ⟨c, hc, node, other, hs⟩ := hw s (by rw [hl]; exact List.mem_cons_self)
    obtain ⟨reply, hstep⟩ := hs.step_eq precision hl hc
    have hrest := ih (p := (p.looked s { p.reached with waitlist := l } true).record
      (.covering s c reply)) hpost (fun t ht => hw t (by rw [hl]; exact List.mem_cons_of_mem s ht))
      rfl
    rw [run_of_next hstep]
    refine ⟨hrest.outcome, hrest.entries, hrest.passes, hrest.iterations.trans ?_⟩
    rw [List.length_cons]
    exact Nat.add_right_comm _ _ _

theorem Coherent.confirmable (hg : Coherent oracle property g) (hr : g.InRange)
    (hs : g.Offered s) (hlink : g.CoveredBy s c) : ∃ node other,
      Confirmable oracle property g s c node other := by
  obtain ⟨-, hends, lower, upper, hlower, hupper, hanswer⟩ := hg.covered s hs c hlink
  obtain ⟨state, hstate, hholds⟩ := hg.held s hs
  obtain ⟨node, hnode, rfl⟩ := Option.map_eq_some_iff.1 hlower
  obtain ⟨other, hother, rfl⟩ := Option.map_eq_some_iff.1 hupper
  rw [Graph.state?_of_node? hnode, Option.some.injEq] at hstate
  refine ⟨node, other, hnode, (Graph.coveredBy?_of_node? hnode).symm.trans hlink, hother, ?_,
    (Graph.coveringEnds_eq_true_iff hr (Graph.holds_of_node? hnode)).2 hends, hanswer⟩
  rw [hstate]
  exact hholds

theorem verdict_eq_valid_iff : p.verdict = .valid ↔ p.blocked.isEmpty = true := by
  unfold Progress.verdict
  split <;> simp_all

theorem step_of_idle (env : Environment κ σ) (g : Graph σ) (precision : π)
    (hidle : p.reached.waitlist = []) (hpost : p.postponed.isEmpty = false) :
    step env g precision p = startPass g p := by
  simp [step, Reached.pop?_of_idle hidle, hpost]

/-- A certificate is not valid if some postponed state waits for a state that is never admitted. -/
theorem reached_of_valid {env : Environment κ σ} (hb : Bookkeeping g p)
    (hidle : p.reached.waitlist = []) (hv : (run env g precision p).outcome = .ok .valid)
    (hs : s ∈ p.postponed) (hlink : g.CoveredBy s c) : c ∈ p.reached := by
  have hpost : p.postponed.isEmpty = false := by
    rw [Bool.eq_false_iff, ne_eq, ExtTreeSet.isEmpty_iff]
    rintro heq
    rw [heq] at hs
    exact ExtTreeSet.not_mem_empty hs
  have hstep := step_of_idle env g precision hidle hpost
  cases hstart : startPass g p with
  | halt q outcome =>
    obtain ⟨_, _, _, _, _, _, houtcome⟩ := startPass_halt hstart
    rw [run_of_halt (hstep.trans hstart), houtcome] at hv
    cases hv
  | next q => exact (hb.startPass_next hstart).2 s hs c hlink

/-- What is left to do when nothing waits is to work off the postponed states. -/
theorem run_of_idle (precision : π) (hb : Bookkeeping g p) (hidle : p.reached.waitlist = [])
    (hs : ∀ s ∈ p.postponed, p.Confirms oracle property g s) :
    WorkedOff p (if p.postponed.isEmpty then 0 else 1) p.postponed.toList.length
      (run (.steady oracle property) g precision p) := by
  cases hpost : p.postponed.isEmpty with
  | true =>
    have hnone : ∀ s ∈ p.reached.waitlist, p.Confirms oracle property g s := by
      rw [hidle]
      exact fun s hs => absurd hs List.not_mem_nil
    have hdone := run_of_confirmable precision hpost hnone
    rw [ExtTreeSet.isEmpty_iff.1 hpost]
    rwa [hidle] at hdone
  | false =>
    have hstep := step_of_idle (.steady oracle property) g precision hidle hpost
    cases hstart : startPass g p with
    | halt q outcome =>
      obtain ⟨_, s, hmem, c, hlink, hmissing, _⟩ := startPass_halt hstart
      obtain ⟨d, hd, node, _, hconf⟩ := hs s hmem
      rw [Graph.coveredBy?_of_node? hconf.known, hconf.link, Option.some.injEq] at hlink
      exact absurd (hlink ▸ hd) hmissing
    | next q =>
      obtain ⟨rfl, -⟩ := hb.startPass_next hstart
      have hw : p.reached.waitlist ++ p.postponed.toList = p.postponed.toList := by
        rw [hidle, List.nil_append]
      rw [run_of_next (hstep.trans hstart), hw]
      have hdone := run_of_confirmable precision (p := { p with
        reached := { p.reached with waitlist := p.postponed.toList }
        passes := p.passes + 1
        postponed := ∅ }) rfl fun s hmem => hs s (ExtTreeSet.mem_toList.1 hmem)
      exact ⟨hdone.outcome, hdone.entries, hdone.passes, hdone.iterations⟩

end SecondPass

end Certificate
end StateSpace
