import StateSpace.Proofs.Certificate.Soundness
import StateSpace.Proofs.Graph.Acyclic
import StateSpace.Proofs.Graph.Build

/-!
# StateSpace.Proofs.Certificate.Coherence

Which certificates are valid, when all edges are recorded at both ends.

* `Coherent`: what the explored states of a certificate claim is true, and they can be explored
  from the root. This does not mention the check.
* A valid certificate is coherent: the admitted states are those that are offered, and a state is
  admitted after all of its predecessors (`Accepted.coherent`).
* The check of a coherent certificate ends with no conflict. When nothing waits any more, all that
  is offered was admitted: along offers without a cycle, the last predecessor of a state that is
  looked at admits it. This last one must not be covered, since a covered state admits nothing;
  an unmixed certificate has no such predecessors (`Settled.mem_of_offered`).

`checkGraph_valid_iff_coherent` puts both directions together.
-/

namespace StateSpace
namespace Certificate

open Relation Std

variable {κ π σ : Type}

structure Coherent (oracle : Oracle κ σ) (property : Property σ) (g : Graph σ) : Prop where
  acyclic : g.AcyclicOffers
  parents : ∀ s, g.Offered s → s ≠ g.root → ∀ q ∈ g.parents s, g.Offered q
  held : ∀ s, g.Offered s → ∃ state, g.state? s = some state ∧ property state = true
  expanded : ∀ s, g.Offered s → g.coveredBy? s = none →
    ∃ state claimed, g.state? s = some state ∧ g.states (g.children s) = .ok claimed ∧
      (oracle.successors state claimed).answer = .ok true
  covered : ∀ s, g.Offered s → ∀ c, g.CoveredBy s c →
    g.Offered c ∧ (∃ t, g.LeadsTo s t) ∧
      ∃ lower upper, g.state? s = some lower ∧ g.state? c = some upper ∧
        (oracle.covered lower upper).answer = .ok true

section Explored

variable {env : Environment κ σ} {oracle : Oracle κ σ} {property : Property σ} {g : Graph σ}
  {precision : π} {p q : Progress κ π} {s e : StateId}

/-- The root leads to every admitted state: it does to the predecessors, which come first. -/
theorem Bookkeeping.offered (h : Bookkeeping g p) : ∀ s ∈ p.reached, g.Offered s := by
  intro s hs
  induction hn : p.reached.states.idxOf s using Nat.strongRecOn generalizing s with
  | _ n ih =>
    by_cases hroot : s = g.root
    · rw [hroot]
      exact .refl
    · obtain ⟨q, _, hnone, hchild, hparent⟩ := h.found s hs hroot
      obtain ⟨hseen, hlt⟩ := h.explored s hs hroot q hparent
      exact (ih _ (hn ▸ hlt) q hseen.1 rfl).tail ⟨hnone, hchild⟩

/-! ## Valid certificates are coherent -/

namespace Accepted

theorem mem_iff_offered (h : Accepted env g p) : s ∈ p.reached ↔ g.Offered s := by
  constructor
  · exact h.settled.books.offered s
  · intro hs
    induction hs with
    | refl => exact h.settled.books.root_mem
    | tail _ he ih => exact (h.child ih he.1 he.2).1

/-- What a state offers was admitted later. -/
theorem idxOf_lt (h : Accepted env g p) (hs : s ∈ p.reached) (he : TransGen g.Offers s e) :
    e ∈ p.reached ∧ p.reached.states.idxOf s < p.reached.states.idxOf e := by
  have hoffer : ∀ a b, a ∈ p.reached → g.Offers a b →
      b ∈ p.reached ∧ p.reached.states.idxOf a < p.reached.states.idxOf b := by
    intro a b ha hab
    obtain ⟨hb, hroot, hparent⟩ := h.child ha hab.1 hab.2
    exact ⟨hb, (h.settled.books.explored b hb hroot a hparent).2⟩
  induction he with
  | single hab => exact hoffer s _ hs hab
  | tail _ hbc ih =>
    obtain ⟨hb, hlt⟩ := ih
    obtain ⟨he, hlt'⟩ := hoffer _ _ hb hbc
    exact ⟨he, hlt.trans hlt'⟩

theorem coherent (h : Accepted (.steady oracle property) g p) : Coherent oracle property g := by
  have hmem : ∀ s, s ∈ p.reached ↔ g.Offered s := fun _ => h.mem_iff_offered
  constructor
  case acyclic =>
    intro s hs hcycle
    exact Nat.lt_irrefl _ (h.idxOf_lt ((hmem s).2 hs) hcycle).2
  case parents =>
    intro s hs hroot q hq
    exact (hmem q).1 (h.settled.books.explored s ((hmem s).2 hs) hroot q hq).1.1
  case held =>
    intro s hs
    obtain ⟨_, state, _, hstate, hholds⟩ := (h.examined ((hmem s).2 hs)).held
    exact ⟨state, hstate, hholds⟩
  case expanded =>
    intro s hs hu
    obtain ⟨_, state, claimed, _, _, hstate, hclaimed, rfl, hanswer⟩ :=
      ((h.examined ((hmem s).2 hs)).expanded hu).1
    exact ⟨state, claimed, hstate, hclaimed, hanswer⟩
  case covered =>
    intro s hs c hlink
    obtain ⟨hreached, hends, hconfirmed⟩ := h.link ((hmem s).2 hs) hlink
    obtain ⟨_, lower, upper, _, _, hlower, hupper, rfl, hanswer⟩ := hconfirmed
    exact ⟨(hmem c).1 hreached, hends, lower, upper, hlower, hupper, hanswer⟩

end Accepted

/-! ## Coherent certificates are valid -/

theorem Settled.mem_of_offered (h : Settled env g p) (hidle : p.reached.waitlist = [])
    (hg : Coherent oracle property g) (hp : g.Paired) (hu : g.Unmixed) :
    ∀ s, g.Offered s → s ∈ p.reached := by
  have hseen : ∀ s ∈ p.reached, p.Seen s := fun _ => h.books.seen_of_idle hidle
  refine hg.acyclic.induction hp.inRange fun s hs ih => ?_
  rcases hs.cases_tail with rfl | ⟨q, hq, hoffer⟩
  · exact h.books.root_mem
  · have hqseen : p.Seen q := hseen q (ih q hq hoffer)
    rcases (((h.examined q hqseen).expanded hoffer.1).2 s hoffer.2).2 with hblocked | ⟨hmem, _⟩
    · -- A blocked state has an unseen predecessor, but all of them were admitted before.
      have hroot : s ≠ g.root := hg.acyclic.ne_root hq hoffer
      obtain ⟨u, hparent, hcause⟩ := h.stuck s hblocked
      have hedge : g.Edge u s := (hp.symm u s).1 hparent
      have hus : g.Offered u := hg.parents s hs hroot u hparent
      have hnone : g.coveredBy? u = none := hu q u s hq hus hoffer.2 hedge hoffer.1
      have huseen : p.Seen u := hseen u (ih u hus ⟨hnone, hedge⟩)
      rcases hcause with hunseen | hcovered | hchild
      · exact absurd huseen hunseen
      · exact absurd hnone hcovered
      · exact absurd hedge hchild
    · exact hmem

theorem Settled.verdict_eq_valid (h : Settled env g p) (hidle : p.reached.waitlist = [])
    (hg : Coherent oracle property g) (hp : g.Paired) (hu : g.Unmixed) : p.verdict = .valid := by
  have hnone : ∀ e, e ∉ p.blocked := by
    intro e he
    obtain ⟨hroot, q, hq, huncovered, hedge, _⟩ := h.books.blocked e he
    have hqs : g.Offered q := h.books.offered q hq.1
    have hoffer : g.Offers q e := ⟨huncovered, hedge⟩
    have hmem : e ∈ p.reached := h.mem_of_offered hidle hg hp hu e (hqs.tail hoffer)
    exact hg.acyclic.ne_root hqs hoffer (hroot hmem)
  have hempty : p.blocked = ∅ :=
    ExtTreeSet.ext_mem fun e => iff_of_false (hnone e) ExtTreeSet.not_mem_empty
  simp [Progress.verdict, hempty]

theorem Settled.admitAll_ne_halt {id : StateId} {rest : Reached StateId π} {node : Node σ}
    {reply : Reply κ} {outcome : Outcome} (h : Settled env g p)
    (ha : AsksSuccessors env g p id rest node reply)
    (hg : Coherent oracle property g) (hp : g.Paired) :
    admitAll g precision id node.children
      ((p.looked id rest true).record (.successors id node.children reply)) ≠
        .halt q outcome := by
  intro hhalt
  have hid : g.Offered id := h.books.offered id (h.books.mem_of_pop? ha.looks.pop)
  rcases h.expand_cases ha rfl with ⟨_, hnext, _⟩ | ⟨child, left, r, hloop, o, hconflict, _⟩
  · rw [hhalt] at hnext
    cases hnext
  · have hedge : g.Edge id child := hloop.offered child List.mem_cons_self
    obtain ⟨_, _, hparent | ⟨_, hmem, hother⟩⟩ := admitChild_halt hconflict
    · exact hparent ((hp.symm id child).2 hedge)
    · have hroot : child ≠ g.root := hg.acyclic.ne_root hid ⟨ha.coveredBy?_eq, hedge⟩
      rw [hloop.books.admitted child hmem, if_neg hroot] at hother
      exact hother rfl

theorem Coherent.confirms {id : StateId} {rest : Reached StateId π} {node : Node σ}
    {reply : Reply κ} (hg : Coherent oracle property g)
    (ha : AsksSuccessors (.steady oracle property) g p id rest node reply)
    (hid : g.Offered id) : reply.answer = .ok true := by
  obtain ⟨claimed, hclaimed, rfl⟩ := ha.replies
  obtain ⟨state, claimed', hstate, hclaimed', hanswer⟩ := hg.expanded id hid ha.coveredBy?_eq
  rw [Graph.state?_of_node? ha.looks.known, Option.some.injEq] at hstate
  rw [Graph.children_of_node? ha.looks.known, hclaimed, Except.ok.injEq] at hclaimed'
  subst hstate hclaimed'
  exact hanswer

theorem Coherent.covers {id c : StateId} {rest : Reached StateId π} {node : Node σ}
    {reply : Reply κ} (hg : Coherent oracle property g)
    (ha : AsksCovering (.steady oracle property) g p id rest node c reply)
    (hid : g.Offered id) : reply.answer = .ok true := by
  obtain ⟨other, hother, rfl⟩ := ha.replies
  obtain ⟨_, _, lower, upper, hlower, hupper, hanswer⟩ := hg.covered id hid c ha.coveredBy?_eq
  rw [Graph.state?_of_node? ha.looks.known, Option.some.injEq] at hlower
  rw [Graph.state?_of_node? hother, Option.some.injEq] at hupper
  subst hlower hupper
  exact hanswer

theorem Coherent.eq_valid_of_halt {outcome : Outcome} (hg : Coherent oracle property g)
    (hp : g.Paired) (hu : g.Unmixed) (h : Settled (.steady oracle property) g p)
    (hm : step (.steady oracle property) g precision p = .halt q outcome) :
    outcome = .ok .valid := by
  have hoffered : ∀ {id rest}, p.reached.pop? = some (id, rest) → g.Offered id :=
    fun hpop => h.books.offered _ (h.books.mem_of_pop? hpop)
  have hcases := step_cases (.steady oracle property) g precision p
  rw [hm] at hcases
  cases hcases with
  | finish hpop _ =>
    have hidle : p.reached.waitlist = [] := Reached.waitlist_of_pop?_none hpop
    rw [h.verdict_eq_valid hidle hg hp hu]
  | again hpop _ hstart =>
    obtain ⟨_, s, hs, c, hlink, hmissing, _⟩ := startPass_halt hstart
    have hidle : p.reached.waitlist = [] := Reached.waitlist_of_pop?_none hpop
    have hexp : g.Offered s := h.books.offered s (h.books.postponed s hs).1.1
    exact absurd (h.mem_of_offered hidle hg hp hu c (hg.covered s hexp c hlink).1) hmissing
  | interrupted _ hstop => cases hstop
  | unknown hpop hnode =>
    have hmem := h.books.mem_of_pop? hpop
    exact absurd (h.books.holds _ hmem) (Graph.node?_eq_none_iff.1 hnode)
  | violated hpop _ hnode hfalse =>
    obtain ⟨state, hstate, hholds⟩ := hg.held _ (hoffered hpop)
    rw [Graph.state?_of_node? hnode, Option.some.injEq] at hstate
    subst hstate
    cases hholds.symm.trans hfalse
  | endless hl hlink _ hends =>
    obtain ⟨_, hleads, _⟩ := hg.covered _ (hoffered hl.pop) _ (hl.coveredBy?_eq.trans hlink)
    cases (Graph.exists_leadsTo_of_coveringEnds hends).2 hleads
  | astray hl hlink _ hf => exact absurd hf (hl.not_astray hp.inRange hlink)
  | notCovered ha hfalse =>
    cases (hg.covers ha (hoffered ha.looks.pop)).symm.trans hfalse
  | coveringFails ha hfails =>
    cases (hg.covers ha (hoffered ha.looks.pop)).symm.trans hfails
  | stray hl _ hf => exact absurd hf (hl.not_stray hp.inRange)
  | expand ha _ hall => exact absurd hall (h.admitAll_ne_halt ha hg hp)
  | differ ha hfalse =>
    cases (hg.confirms ha (hoffered ha.looks.pop)).symm.trans hfalse
  | successorsFail ha hfails =>
    cases (hg.confirms ha (hoffered ha.looks.pop)).symm.trans hfails

end Explored

section Checks

variable {oracle : Oracle κ σ} {property : Property σ} {g : Graph σ} {precision : π}

/-- The unmixed certificates that the check finds valid are the coherent ones. -/
theorem checkGraph_valid_iff_coherent (hp : g.Paired) (hu : g.Unmixed) :
    (checkGraph (.steady oracle property) g precision).outcome = .ok .valid ↔
      Coherent oracle property g := by
  have hr := Reached.isFresh_add_empty g.root precision
  constructor
  · intro hv
    exact (accepted_check hr hv).coherent
  · intro hg
    obtain ⟨_, _, hsettled, hm⟩ := settled_check (.steady oracle property) hr
    exact hg.eq_valid_of_halt hp hu hsettled hm

end Checks

end Certificate
end StateSpace
