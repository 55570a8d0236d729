import StateSpace.Proofs.Certificate.Coherence
import StateSpace.Proofs.Certificate.Rejection

/-!
# StateSpace.Proofs.Certificate.Admission

What a check leaves in the reached set, however it ends.

* `entries_of_step`: a step discovers nothing, or it looks at the claimed successors of a state
  that is not covered.
* `Grounded`: the root comes first. Every other state is a claimed successor of such a state that
  was taken, and it comes after all of its claimed predecessors. A step may end the check in the
  midst of the successors, so `grounded_of_step` goes back to the invariant of that loop.
* `Admission`: what follows for the reached set of a check. That of a valid certificate is the least
  one that is closed under the claimed successors of its uncovered states.
-/

namespace StateSpace
namespace Certificate

variable {κ π σ : Type}

/-! ## What a step discovers -/

section Steps

variable {env : Environment κ σ} {g : Graph σ} {precision : π} {p q : Progress κ π}
  {early : StateId → Prop} {stages : List (Progress κ π)} {id : StateId}
  {rest : Reached StateId π} {node : Node σ} {reply : Reply κ}

theorem entries_of_step (env : Environment κ σ) (precision : π) (h : Bookkeeping g p) :
    ((step env g precision p).progress.reached.entries = p.reached.entries ∧
        p.history <:+ (step env g precision p).progress.history) ∨
      ∃ id rest node reply, AsksSuccessors env g p id rest node reply ∧
        (step env g precision p).progress = (admitAll g precision id node.children
          ((p.looked id rest true).record (.successors id node.children reply))).progress := by
  have hlooked : ∀ {id rest} (holds : Bool), p.reached.pop? = some (id, rest) →
      (p.looked id rest holds).reached.entries = p.reached.entries ∧
        p.history <:+ (p.looked id rest holds).history := fun _ hpop =>
    ⟨Reached.entries_of_pop? hpop, (List.suffix_cons _ _).trans (List.suffix_cons _ _)⟩
  have hasked : ∀ {id rest e}, p.reached.pop? = some (id, rest) →
      ((p.looked id rest true).record e).reached.entries = p.reached.entries ∧
        p.history <:+ ((p.looked id rest true).record e).history :=
    fun hpop => ⟨(hlooked true hpop).1, (hlooked true hpop).2.trans (List.suffix_cons _ _)⟩
  have hcases := step_cases env g precision p
  generalize step env g precision p = m at hcases ⊢
  cases hcases with
  | finish => exact .inl ⟨rfl, List.suffix_refl _⟩
  | again _ _ hstart =>
    obtain ⟨waitlist, hq⟩ := progress_startPass g p
    rw [← hstart, hq]
    exact .inl ⟨rfl, List.suffix_refl _⟩
  | interrupted hpop => exact .inl ⟨Reached.entries_of_pop? hpop, List.suffix_cons _ _⟩
  | unknown hpop hnode =>
    exact absurd (h.holds _ (h.mem_of_pop? hpop)) (Graph.node?_eq_none_iff.1 hnode)
  | violated hpop => exact .inl (hlooked false hpop)
  | postponed hl => exact .inl (hlooked true hl.pop)
  | endless hl => exact .inl (hlooked true hl.pop)
  | astray hl => exact .inl (hlooked true hl.pop)
  | covered ha => exact .inl (hasked ha.looks.pop)
  | notCovered ha => exact .inl (hasked ha.looks.pop)
  | coveringFails ha => exact .inl (hasked ha.looks.pop)
  | stray hl => exact .inl (hlooked true hl.pop)
  | expand ha _ hall => exact .inr ⟨_, _, _, _, ha, congrArg Move.progress hall.symm⟩
  | differ ha => exact .inl (hasked ha.looks.pop)
  | successorsFail ha => exact .inl (hasked ha.looks.pop)

/-- New states take over the precision. -/
theorem isUniform_admitAll (g : Graph σ) (id : StateId) (children : List StateId)
    (h : p.reached.IsUniform precision) :
    (admitAll g precision id children p).progress.reached.IsUniform precision := by
  have hstep : ∀ child (rest : List StateId) (q q' : Progress κ π),
      q.reached.IsUniform precision → admitChild g precision id child q = .next q' →
        q'.reached.IsUniform precision := by
    intro child _ q q' hq hm
    rcases (admitChild_next hm).2 with ⟨-, rfl⟩ | ⟨-, -, -, rfl⟩ | ⟨-, hnew, rfl⟩
    · exact hq
    · exact hq
    · intro entry hentry
      simp only [Progress.admitted, Reached.entries_add_of_not_mem hnew, List.mem_append,
        List.mem_singleton] at hentry
      rcases hentry with hentry | rfl
      · exact hq entry hentry
      · rfl
  rcases admitAll_cases (P := fun _ q => q.reached.IsUniform precision) hstep h with
    ⟨q, hq, huniform⟩ | ⟨_, _, q, huniform, _, _, hq⟩
  all_goals
    rw [hq]
    exact huniform

theorem isUniform_of_step (env : Environment κ σ) (hb : Bookkeeping g p)
    (h : p.reached.IsUniform precision) :
    (step env g precision p).progress.reached.IsUniform precision := by
  rcases entries_of_step env precision hb with ⟨hentries, _⟩ | ⟨id, rest, node, reply, ha, hq⟩
  · rw [Reached.IsUniform, hentries]
    exact h
  · rw [hq]
    refine isUniform_admitAll g id node.children ?_
    show rest.IsUniform precision
    rw [Reached.IsUniform, Reached.entries_of_pop? ha.looks.pop]
    exact h

theorem Through.isUniform {reached : Reached StateId π} (hr : reached.IsFresh g.root)
    (hp : reached.IsUniform precision)
    (h : Through env g precision (.start reached g.root) stages p) :
    p.reached.IsUniform precision := by
  induction h with
  | first => exact hp
  | next hthrough hm ih =>
    have huniform := isUniform_of_step env (hthrough.paced hr).1.books ih
    rw [hm] at huniform
    exact huniform

/-! ## Grounds for a state -/

structure Grounded (g : Graph σ) (p : Progress κ π) : Prop where
  first : p.reached.first? = some g.root
  found : ∀ s ∈ p.reached, s ≠ g.root →
    ∃ q ∈ p.reached, g.coveredBy? q = none ∧ s ∈ g.children q ∧ .taken q ∈ p.history
  later : ∀ s ∈ p.reached, s ≠ g.root → ∀ q ∈ g.parents s,
    q ∈ p.reached ∧ p.reached.states.idxOf q < p.reached.states.idxOf s

theorem Bookkeeping.grounded (h : Bookkeeping g p)
    (htaken : ∀ s, p.Seen s → .taken s ∈ p.history) : Grounded g p := by
  refine ⟨h.first, fun s hs hroot => ?_, fun s hs hroot q hq => ?_⟩
  · obtain ⟨q, hseen, hnone, hchild, _⟩ := h.found s hs hroot
    exact ⟨q, hseen.1, hnone, hchild, htaken q hseen⟩
  · obtain ⟨hseen, hlt⟩ := h.explored s hs hroot q hq
    exact ⟨hseen.1, hlt⟩

theorem Grounded.congr (h : Grounded g p) (hentries : q.reached.entries = p.reached.entries)
    (hhistory : p.history <:+ q.history) : Grounded g q := by
  have hstates : q.reached.states = p.reached.states := congrArg (List.map Prod.fst) hentries
  have hmem : ∀ s, s ∈ q.reached ↔ s ∈ p.reached := by
    intro s
    rw [Reached.mem_iff_mem_states, hstates, Reached.mem_iff_mem_states]
  constructor
  case first =>
    rw [Reached.first?, hstates]
    exact h.first
  case found =>
    intro s hs hroot
    obtain ⟨q, hq, hnone, hchild, htaken⟩ := h.found s ((hmem s).1 hs) hroot
    exact ⟨q, (hmem q).2 hq, hnone, hchild, hhistory.subset htaken⟩
  case later =>
    intro s hs hroot q hq
    rw [hmem, hstates]
    exact h.later s ((hmem s).1 hs) hroot q hq

/-- Also the step that ends a check leaves grounded states only. -/
theorem grounded_of_step (env : Environment κ σ) (precision : π) (h : Settled env g p)
    (hp : Paced g early p) : Grounded g (step env g precision p).progress := by
  rcases entries_of_step env precision h.books with ⟨hentries, hhistory⟩ |
    ⟨id, rest, node, reply, ha, hq⟩
  · exact (h.books.grounded fun s => hp.taken).congr hentries hhistory
  · have htaken : ∀ s, (p.looked id rest true).Seen s → .taken s ∈
        ((p.looked id rest true).record (.successors id node.children reply)).history := by
      intro s hs
      obtain ⟨hmem, rfl | hfresh⟩ := (seen_looked ha.looks.pop).1 hs
      · simp [Progress.looked, Progress.record]
      · have hbefore := hp.taken ⟨hmem, hfresh⟩
        simp [Progress.looked, Progress.record, hbefore]
    have hloop : ∃ left, Admitting g id
        ((p.looked id rest true).record (.successors id node.children reply)) left
        (step env g precision p).progress := by
      rw [hq]
      rcases h.expand_cases ha rfl with
        ⟨q, hnext, hloop⟩ | ⟨child, left, q, hloop, _, _, hhalt⟩
      · rw [hnext]
        exact ⟨_, hloop⟩
      · rw [hhalt]
        exact ⟨_, hloop⟩
    obtain ⟨left, hloop⟩ := hloop
    refine hloop.books.grounded fun s hs => hloop.grows.history.subset ?_
    exact htaken s ((hloop.seen s).1 hs)

end Steps

/-! ## Whole checks -/

/-- What a check leaves in the reached set that it was given. -/
structure Admission (g : Graph σ) (before : Reached StateId π) (r : Report κ π) : Prop where
  grounded : Grounded g r.progress
  distinct : r.progress.reached.states.Nodup
  precision : ∀ s ∈ r.progress.reached,
    r.progress.reached.precision? s = before.precision? g.root
  /-- A valid certificate is explored as far as it leads, and no further. -/
  least : r.outcome = .ok .valid → IsLeast {X | g.IsClosed X} {s | s ∈ r.progress.reached}
  idle : r.outcome = .ok .valid → r.progress.reached.waitlist = []

section Checks

variable {env : Environment κ σ} {g : Graph σ} {reached : Reached StateId π}

theorem admission_check (hr : reached.IsFresh g.root) :
    Admission g reached (check env g reached) := by
  obtain ⟨precision, hentries⟩ := hr.exists_entries
  have hcheck := check_eq_run env hentries
  obtain ⟨stages, last, hthrough, hends⟩ :=
    exists_course env g precision (.start reached g.root)
  obtain ⟨hsettled, hpaced, _⟩ := hthrough.paced hr
  have hstart : reached.IsUniform precision := by
    intro entry hentry
    rw [hentries, List.mem_singleton] at hentry
    rw [hentry]
  have hlast : (step env g precision last).progress = (check env g reached).progress := by
    rw [hends, hcheck]
    rfl
  have huniform : (check env g reached).progress.reached.IsUniform precision := by
    rw [← hlast]
    exact isUniform_of_step env hsettled.books (hthrough.isUniform hr hstart)
  constructor
  case grounded =>
    rw [← hlast]
    exact grounded_of_step env precision hsettled hpaced
  case distinct => exact (check env g reached).progress.reached.distinct
  case precision =>
    intro s hs
    have hroot : g.root ∈ reached := by
      rw [Reached.mem_iff_mem_states, hr.1]
      exact List.mem_singleton_self _
    rw [Reached.precision?_of_isUniform huniform hs, Reached.precision?_of_isUniform hstart hroot]
  case least =>
    intro hv
    have hmem : {s | s ∈ (check env g reached).progress.reached} = {s | g.Offered s} :=
      Set.ext fun s => (accepted_check hr hv).mem_iff_offered
    rw [hmem]
    exact g.isLeast_offered
  case idle => exact fun hv => (accepted_check hr hv).idle

end Checks

theorem admission_check_postponing :
    (Reached.empty.add postponing.root "root").IsFresh postponing.root ∧
      (check agreeing postponing (Reached.empty.add postponing.root "root")).outcome = .ok .valid ∧
      Admission postponing (Reached.empty.add postponing.root "root")
        (check agreeing postponing (Reached.empty.add postponing.root "root")) := by
  have hr := Reached.isFresh_add_empty postponing.root "root"
  exact ⟨hr, by decide +kernel, admission_check hr⟩

end Certificate
end StateSpace
