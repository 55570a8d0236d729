import StateSpace.Proofs.Certificate.Work

/-!
# StateSpace.Proofs.Certificate.Rejection

Why a certificate is rejected.

`Justified` says what each reason means for the states that were admitted. Most reasons are found at
the state that was taken last. The two that speak of missing states are found when nothing waits, so
that all admitted states were taken (`Paced.taken_of_idle`). `justified_of_check_invalid`: no
certificate is rejected for a reason that does not apply.
-/

namespace StateSpace
namespace Certificate

open Std

variable {κ π σ : Type}

/-- The reason applies to the certificate, as far as it was explored. -/
inductive Justified (env : Environment κ σ) (g : Graph σ) (p : Progress κ π) :
    Violation → Prop where
  | propertyViolated {s} : s ∈ p.reached → PropertyAnswered env g p.history s false →
      Justified env g p (.propertyViolated s)
  | successorsDiffer {s} : s ∈ p.reached → g.coveredBy? s = none →
      SuccessorsAnswered env g p.history s false → Justified env g p (.successorsDiffer s)
  | coveringCycle {s c} : s ∈ p.reached → c ∈ p.reached → g.CoveredBy s c →
      (∀ t, ¬ g.LeadsTo s t) → Justified env g p (.coveringCycle s)
  | notCovered {s c} : s ∈ p.reached → c ∈ p.reached → g.CoveredBy s c →
      (∃ t, g.LeadsTo s t) → CoveringAnswered env g p.history s c false →
      Justified env g p (.notCovered s c)
  | coveringMissing {s c} : s ∈ p.reached → g.CoveredBy s c → c ∉ p.reached →
      (∀ t ∈ p.reached, .taken t ∈ p.history) → Justified env g p (.coveringMissing s c)
  | parentsConflict {s e} : s ∈ p.reached → g.coveredBy? s = none → e ∈ g.children s →
      s ∉ g.parents e ∨ e = g.root → Justified env g p (.parentsConflict e)
  /-- The states are listed in their order, and there are some. -/
  | parentsUnexplored {states} : (∀ t ∈ p.reached, .taken t ∈ p.history) →
      states ≠ [] → states.Pairwise (· < ·) →
      (∀ e, e ∈ states ↔ (∃ s ∈ p.reached, g.coveredBy? s = none ∧ e ∈ g.children s) ∧
        (e ∉ p.reached ∨ e = g.root)) →
      Justified env g p (.parentsUnexplored states)

section Blocked

variable {env : Environment κ σ} {g : Graph σ} {precision : π} {p q : Progress κ π}
  {early : StateId → Prop} {id : StateId} {rest : Reached StateId π} {node : Node σ}
  {reply : Reply κ}

theorem Paced.taken (h : Paced g early p) {s : StateId} (hs : p.Seen s) :
    .taken s ∈ p.history := by
  refine mem_history_of_timesTaken_pos ?_
  rcases h with hfirst | hsecond
  · rw [hfirst.seen s hs]
    exact Nat.one_pos
  · exact hsecond.taken s hs.1

theorem Paced.taken_of_idle (h : Paced g early p) (hb : Bookkeeping g p)
    (hpop : p.reached.pop? = none) : ∀ t ∈ p.reached, .taken t ∈ p.history := fun _ ht =>
  h.taken (hb.seen_of_idle (Reached.waitlist_of_pop?_none hpop) ht)

/-- When nothing waits, the blocked states are those that some state claims for good, and that were
not admitted, or are the root. -/
theorem Settled.mem_blocked_iff (h : Settled env g p) (hpop : p.reached.pop? = none)
    {e : StateId} : e ∈ p.blocked ↔
      (∃ s ∈ p.reached, g.coveredBy? s = none ∧ e ∈ g.children s) ∧
        (e ∉ p.reached ∨ e = g.root) := by
  constructor
  · intro he
    obtain ⟨hroot, s, hs, hnone, hchild, _⟩ := h.books.blocked e he
    refine ⟨⟨s, hs.1, hnone, hchild⟩, ?_⟩
    by_cases hmem : e ∈ p.reached
    · exact .inr (hroot hmem)
    · exact .inl hmem
  · rintro ⟨⟨s, hs, hnone, hchild⟩, hout⟩
    have hseen : p.Seen s := h.books.seen_of_idle (Reached.waitlist_of_pop?_none hpop) hs
    obtain ⟨_, hblocked | ⟨hmem, hne⟩⟩ := ((h.examined s hseen).expanded hnone).2 e hchild
    · exact hblocked
    · rcases hout with hout | hroot
      · exact absurd hmem hout
      · exact absurd hroot hne

/-- The rejection that is left when nothing waits and nothing is postponed. -/
theorem Settled.justified_verdict {v : Violation} (h : Settled env g p) (hp : Paced g early p)
    (hpop : p.reached.pop? = none) (hv : p.verdict = .invalid v) : Justified env g p v := by
  unfold Progress.verdict at hv
  split at hv
  · cases hv
  · rename_i hblocked
    cases hv
    refine .parentsUnexplored (hp.taken_of_idle h.books hpop) (fun hnil => hblocked ?_)
      (StateIds.pairwise_toList p.blocked) fun e => ?_
    · rw [ExtTreeSet.isEmpty_eq_size_beq_zero, ← ExtTreeSet.length_toList, hnil]
      rfl
    · rw [ExtTreeSet.mem_toList, h.mem_blocked_iff hpop]

theorem Settled.justified_startPass {v : Violation} (h : Settled env g p)
    (hp : Paced g early p) (hpop : p.reached.pop? = none)
    (hm : startPass g p = .halt q (.ok (.invalid v))) : Justified env g q v := by
  obtain ⟨_, s, hs, c, hc, hmissing, houtcome⟩ := startPass_halt hm
  obtain ⟨waitlist, hq⟩ := progress_startPass g p
  rw [hm] at hq
  obtain rfl : q = _ := hq
  cases houtcome
  exact .coveringMissing (h.books.postponed s hs).1.1 hc hmissing (hp.taken_of_idle h.books hpop)

/-- Parents of an admitted state can only conflict at the root, which was admitted without any. -/
theorem Settled.justified_admitAll {v : Violation} (h : Settled env g p)
    (ha : AsksSuccessors env g p id rest node reply)
    (hm : admitAll g precision id node.children
      ((p.looked id rest true).record (.successors id node.children reply)) =
        .halt q (.ok (.invalid v))) : Justified env g q v := by
  rcases h.expand_cases ha rfl with ⟨_, hnext, _⟩ | ⟨child, left, r, hloop, o, hconflict, hhalt⟩
  · cases hm.symm.trans hnext
  · cases hm.symm.trans hhalt
    obtain ⟨_, houtcome, hcause⟩ := admitChild_halt hconflict
    cases houtcome
    have hid : id ∈ q.reached := hloop.grows.reached id (h.seen_self ha.looks.pop).1
    refine .parentsConflict hid ha.coveredBy?_eq (hloop.offered child List.mem_cons_self) ?_
    refine hcause.imp_right fun ⟨_, hmem, hother⟩ => Decidable.byContradiction fun hne => ?_
    rw [hloop.books.admitted child hmem, if_neg hne] at hother
    exact hother rfl

theorem justified_of_step {v : Violation} (h : Settled env g p) (hp : Paced g early p)
    (hm : step env g precision p = .halt q (.ok (.invalid v))) : Justified env g q v := by
  have hmem : ∀ {id rest}, p.reached.pop? = some (id, rest) → id ∈ rest :=
    fun hpop => (Reached.mem_of_pop? hpop).2 (h.books.mem_of_pop? hpop)
  have hcases := step_cases env g precision p
  rw [hm] at hcases
  generalize houtcome : (Except.ok (.invalid v) : Outcome) = outcome at hcases
  cases hcases with
  | finish hpop _ =>
    simp only [Except.ok.injEq] at houtcome
    exact h.justified_verdict hp hpop houtcome.symm
  | again hpop _ hstart =>
    subst houtcome
    exact h.justified_startPass hp hpop hstart
  | violated hpop _ hnode hfalse =>
    cases houtcome
    exact .propertyViolated (hmem hpop)
      ⟨_, _, List.suffix_refl _, Graph.state?_of_node? hnode, hfalse⟩
  | endless hl hc hreached hends =>
    cases houtcome
    refine .coveringCycle (hmem hl.pop) hreached (hl.coveredBy?_eq.trans hc) fun t ht => ?_
    cases (Graph.exists_leadsTo_of_coveringEnds hends).2 ⟨t, ht⟩
  | notCovered ha hfalse =>
    cases houtcome
    exact .notCovered (hmem ha.looks.pop) ha.reached ha.coveredBy?_eq
      ((Graph.exists_leadsTo_of_coveringEnds ha.ends).1 rfl) (ha.answered hfalse)
  | differ ha hfalse =>
    cases houtcome
    exact .successorsDiffer (hmem ha.looks.pop) ha.coveredBy?_eq (ha.answered hfalse)
  | expand ha _ hall =>
    subst houtcome
    exact h.justified_admitAll ha hall
  | _ => cases houtcome

end Blocked

section Checks

variable {env : Environment κ σ} {g : Graph σ} {reached : Reached StateId π} {v : Violation}

/-- No certificate is rejected for a reason that does not apply to it. -/
theorem justified_of_check_invalid (hr : reached.IsFresh g.root)
    (hv : (check env g reached).outcome = .ok (.invalid v)) :
    Justified env g (check env g reached).progress v := by
  obtain ⟨precision, hcheck⟩ := exists_check_eq_run env hr
  obtain ⟨stages, last, hthrough, hends⟩ :=
    exists_course env g precision (.start reached g.root)
  obtain ⟨hsettled, hpaced, _⟩ := hthrough.paced hr
  rw [← hcheck, hv] at hends
  exact justified_of_step hsettled hpaced hends

end Checks

/-- `m` has two predecessors. One of them, `r`, is covered by the other one and offers nothing. The
root lists both in some order. -/
def mixed (order : List StateId) : Graph ProgramState where
  nodes := #[
    { state := { name := "root" }, children := order },
    { state := { name := "l" }, parents := [0], children := [3] },
    { state := { name := "r" }, parents := [0], children := [3], coveredBy? := some 1 },
    { state := { name := "m" }, parents := [1, 2] }]
  nonempty := Nat.zero_lt_succ _

/-- An oracle that confirms everything. -/
def approving : Oracle Unit ProgramState where
  successors _ _ := .known (.ok true)
  covered _ _ := .known (.ok true)

theorem justified_of_check_invalid_mixed :
    (Reached.empty.add (mixed [1, 2]).root ()).IsFresh (mixed [1, 2]).root ∧
      (check (.steady approving (.rejecting [])) (mixed [1, 2])
        (Reached.empty.add (mixed [1, 2]).root ())).outcome =
          .ok (.invalid (.parentsUnexplored [3])) ∧
      Justified (.steady approving (.rejecting [])) (mixed [1, 2])
        (check (.steady approving (.rejecting [])) (mixed [1, 2])
          (Reached.empty.add (mixed [1, 2]).root ())).progress (.parentsUnexplored [3]) := by
  have hr := Reached.isFresh_add_empty (mixed [1, 2]).root ()
  have hv : (check (.steady approving (.rejecting [])) (mixed [1, 2])
      (Reached.empty.add (mixed [1, 2]).root ())).outcome =
        .ok (.invalid (.parentsUnexplored [3])) := by decide +kernel
  exact ⟨hr, hv, justified_of_check_invalid hr hv⟩

end Certificate
end StateSpace
