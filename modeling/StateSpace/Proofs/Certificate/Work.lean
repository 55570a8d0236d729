import StateSpace.Proofs.Certificate.Passes
import StateSpace.Proofs.Certificate.Soundness

/-!
# StateSpace.Proofs.Certificate.Work

How much work a check is: `bounded_check`. It ends after two passes at most, in which it takes every
state once, and once more if the state is covered.
-/

namespace StateSpace
namespace Certificate

open Std

variable {κ π σ : Type}

section Ends

variable {env : Environment κ σ} {g : Graph σ} {precision : π} {p : Progress κ π}
  {early : StateId → Prop} {id : StateId} {rest : Reached StateId π}

theorem Paced.timesTaken_le (h : Paced g early p) (s : StateId) :
    timesTaken p.history s ≤ if g.coveredBy? s = none then 1 else 2 := by
  rcases h with hfirst | hsecond
  · have hle : timesTaken p.history s ≤ 1 := by
      by_cases hs : p.Seen s
      · exact (hfirst.seen s hs).le
      · exact (hfirst.unseen s hs).le.trans (Nat.zero_le 1)
    split <;> omega
  · split
    · rename_i hnone
      refine hsecond.once s fun hs => ?_
      obtain ⟨c, _, hc⟩ := hsecond.linked s hs
      rw [Graph.CoveredBy, hnone] at hc
      cases hc
    · exact hsecond.twice s

theorem Paced.timesTaken_lt (h : Paced g early p) (hpop : p.reached.pop? = some (id, rest)) :
    timesTaken p.history id < if g.coveredBy? id = none then 1 else 2 := by
  have hid : id ∈ p.reached.waitlist := Reached.mem_waitlist_of_pop? hpop
  rcases h with hfirst | hsecond
  · have hunseen : ¬ p.Seen id := fun hs => hs.2 ((hfirst.waits id).1 hid)
    rw [hfirst.unseen id hunseen]
    split <;> omega
  · obtain ⟨c, _, hc⟩ := hsecond.link_of_pop? hpop
    have hcovered : g.coveredBy? id ≠ none := by
      rw [Graph.CoveredBy] at hc
      simp [hc]
    rw [hsecond.waiting id hid, if_neg hcovered]
    exact Nat.one_lt_two

/-- Also the step that ends a check keeps to two passes. -/
theorem Paced.last (env : Environment κ σ) (precision : π) (h : Paced g early p)
    (hb : Bookkeeping g p) :
    (step env g precision p).progress.passes ≤ 2 ∧
      ∀ s, timesTaken (step env g precision p).progress.history s ≤
        if g.coveredBy? s = none then 1 else 2 := by
  have hpasses : p.passes ≤ 2 := by
    rcases h with hfirst | hsecond
    · exact hfirst.passes.le.trans (Nat.le_succ 1)
    · exact hsecond.passes.le
  rcases records_of_step env precision hb with
    ⟨_, _, hsame⟩ | ⟨_, hpost, hhistory, hnext⟩ | ⟨id, rest, hpop, hsame, htaken⟩
  · rw [hsame]
    exact ⟨hpasses, h.timesTaken_le⟩
  · refine ⟨?_, fun s => hhistory ▸ h.timesTaken_le s⟩
    rcases h with hfirst | hsecond
    · rw [hnext, hfirst.passes]
    · cases hsecond.isEmpty_postponed.symm.trans hpost
  · refine ⟨hsame.le.trans hpasses, fun s => ?_⟩
    rw [htaken]
    by_cases heq : id = s
    · subst heq
      have hlt := h.timesTaken_lt hpop
      rw [if_pos rfl]
      omega
    · rw [if_neg heq]
      exact h.timesTaken_le s

theorem Bookkeeping.size_le (hb : Bookkeeping g p) : p.reached.size ≤ g.size := by
  have hlength := Graph.length_le_size p.reached.distinct hb.holds
  rwa [List.length_map] at hlength

theorem Paced.work_le (h : Paced g early p) (hb : Bookkeeping g p) :
    p.iterations + p.passes ≤ 2 * g.size + 2 := by
  have hsize := hb.size_le
  rcases h with hfirst | hsecond
  · have hcount := hfirst.count
    have hpasses := hfirst.passes
    omega
  · have hfew : {s | early s}.ncard ≤ g.size := by
      have hsub : {s | early s} ⊆ ((Finset.range g.size : Finset ℕ) : Set ℕ) := by
        intro s hs
        obtain ⟨_, _, hc⟩ := hsecond.linked s hs
        exact Finset.mem_coe.2 (Finset.mem_range.2 (Graph.holds_of_coveredBy? hc))
      have hle := Set.ncard_le_ncard hsub (Finset.finite_toSet _)
      rwa [Set.ncard_coe_finset, Finset.card_range] at hle
    have hcount := hsecond.count
    have hpasses := hsecond.passes
    omega

/-- At the end of the work every admitted state was taken once, and those that were taken early
once more. -/
theorem Paced.idle (h : Paced g early p) (hpop : p.reached.pop? = none)
    (hpost : p.postponed.isEmpty = true) :
    p.iterations = p.reached.size + {s | early s}.ncard ∧
      p.passes = if 0 < {s | early s}.ncard then 2 else 1 := by
  have hidle : p.reached.waitlist = [] := Reached.waitlist_of_pop?_none hpop
  rcases h with hfirst | hsecond
  · have hnone : {s | early s} = ∅ := by
      refine Set.eq_empty_of_forall_notMem fun s hs => ?_
      have hmem := (hfirst.postponed s).2 hs
      rw [ExtTreeSet.isEmpty_iff.1 hpost] at hmem
      exact ExtTreeSet.not_mem_empty hmem
    have hcount := hfirst.count
    rw [hidle, List.length_nil] at hcount
    rw [hnone, Set.ncard_empty, if_neg (Nat.lt_irrefl 0)]
    exact ⟨hcount, hfirst.passes⟩
  · have hcount := hsecond.count
    rw [hidle, List.length_nil] at hcount
    rw [if_pos hsecond.nonempty]
    exact ⟨hcount, hsecond.passes⟩

end Ends

/-! ## Whole checks -/

/-- How much work a check was that came through these stages. -/
structure Bounded (g : Graph σ) (stages : List (Progress κ π)) (r : Report κ π) : Prop where
  steps : stages.length ≤ 2 * g.size + 1
  passes : r.progress.passes ≤ 2
  taken : ∀ s, timesTaken r.progress.history s ≤ if g.coveredBy? s = none then 1 else 2
  /-- The check breaks no rule of its own. -/
  faults : ∀ f, r.outcome = .error (.fault f) → ∃ e ∈ r.progress.history, ∃ reply,
    e.reply? = some reply ∧ reply.answer = .error (.fault f)
  valid : r.outcome = .ok .valid →
    r.progress.iterations = r.progress.reached.size + {s | Early g stages s}.ncard ∧
      r.progress.passes = if 0 < {s | Early g stages s}.ncard then 2 else 1

section Checks

variable {env : Environment κ σ} {g : Graph σ} {reached : Reached StateId π}

/-- Every check ends after two passes at most. -/
theorem bounded_check (hg : g.InRange) (hr : reached.IsFresh g.root) :
    ∃ precision stages last,
      Course env g precision (.start reached g.root) stages last (check env g reached) ∧
        Bounded g stages (check env g reached) := by
  obtain ⟨precision, hcheck⟩ := exists_check_eq_run env hr
  obtain ⟨stages, last, hcourse⟩ := exists_course env g precision (.start reached g.root)
  rw [← hcheck] at hcourse
  obtain ⟨hsettled, hpaced, hlength⟩ := hcourse.through.paced hr
  have hwork := hpaced.work_le hsettled.books
  have hlast := Paced.last env precision hpaced hsettled.books
  rw [hcourse.ends] at hlast
  refine ⟨precision, stages, last, hcourse, ?_⟩
  constructor
  case steps => omega
  case passes => exact hlast.1
  case taken => exact hlast.2
  case faults =>
    intro f hf
    have hend := hcourse.ends
    rw [hf] at hend
    exact fault_of_step hg hsettled.books hend
  case valid =>
    intro hv
    have hend := hcourse.ends
    rw [hv] at hend
    obtain ⟨hsame, hpop, hpost, _⟩ := finish_of_valid hend
    rw [hsame]
    exact hpaced.idle hpop hpost

end Checks

theorem inRange_postponing : postponing.InRange := by
  refine .of_forall_lt ?_ ?_ <;> decide

theorem bounded_check_postponing :
    postponing.InRange ∧ (Reached.empty.add postponing.root ()).IsFresh postponing.root ∧
      (check agreeing postponing (Reached.empty.add postponing.root ())).outcome = .ok .valid ∧
      (check agreeing postponing (Reached.empty.add postponing.root ())).progress.iterations = 5 ∧
      ∃ precision stages last,
        Course agreeing postponing precision
            (.start (Reached.empty.add postponing.root ()) postponing.root) stages last
            (check agreeing postponing (Reached.empty.add postponing.root ())) ∧
          Bounded postponing stages
            (check agreeing postponing (Reached.empty.add postponing.root ())) := by
  have hr := Reached.isFresh_add_empty postponing.root ()
  refine ⟨inRange_postponing, hr, ?_, ?_, bounded_check inRange_postponing hr⟩ <;> decide +kernel

end Certificate
end StateSpace
