import Mathlib.Data.Set.Card
import StateSpace.Proofs.Certificate.Examined
import StateSpace.Proofs.Certificate.Records

/-!
# StateSpace.Proofs.Certificate.Passes

How a check works off the waitlist.

* `Through`, `Course`: the stages that a check comes through.
* `FirstPass`: every admitted state is taken once. A state is postponed exactly if it was taken
  before the state that is claimed to cover it was admitted (`Early`).
* `SecondPass`: only such states are taken, each once more. All that covers them was admitted, so
  that nothing is postponed again, and none of them has successors to admit.
* `Through.paced`: there is no third pass.
-/

namespace StateSpace
namespace Certificate

open Std

variable {κ π σ : Type}

/-! ## The stages of a check -/

/-- Some stages, the latest one first, that lead to the last one. -/
inductive Through (env : Environment κ σ) (g : Graph σ) (precision : π) (first : Progress κ π) :
    List (Progress κ π) → Progress κ π → Prop where
  | first : Through env g precision first [] first
  | next {stages p p'} : Through env g precision first stages p →
      step env g precision p = .next p' → Through env g precision first (p :: stages) p'

/-- A check came through some stages and ended with a step from the last one. -/
structure Course (env : Environment κ σ) (g : Graph σ) (precision : π) (first : Progress κ π)
    (stages : List (Progress κ π)) (last : Progress κ π) (r : Report κ π) : Prop where
  through : Through env g precision first stages last
  ends : step env g precision last = .halt r.progress r.outcome

/-- The next state that is taken is covered by one that was not admitted yet. -/
def Progress.TakesEarly (g : Graph σ) (p : Progress κ π) (s : StateId) : Prop :=
  ∃ rest c, p.reached.pop? = some (s, rest) ∧ g.CoveredBy s c ∧ c ∉ p.reached

/-- At one of the stages the state was taken before the one that covers it was admitted. -/
def Early (g : Graph σ) (stages : List (Progress κ π)) (s : StateId) : Prop :=
  ∃ p ∈ stages, p.TakesEarly g s

section Stages

variable {env : Environment κ σ} {g : Graph σ} {precision : π} {p p' first : Progress κ π}
  {stages : List (Progress κ π)} {s : StateId}

theorem early_cons : Early g (p :: stages) s ↔ p.TakesEarly g s ∨ Early g stages s := by
  simp [Early]

theorem Through.prepend (hm : step env g precision p = .next p')
    (h : Through env g precision p' stages first) :
    Through env g precision p (stages ++ [p]) first := by
  induction h with
  | first => exact .next .first hm
  | next _ hnext ih => exact .next ih hnext

theorem exists_course (env : Environment κ σ) (g : Graph σ) (precision : π) (p : Progress κ π) :
    ∃ stages last, Course env g precision p stages last (run env g precision p) := by
  induction p using run.induct env g precision with
  | case1 p p' h ih =>
    obtain ⟨stages, last, hthrough, hends⟩ := ih
    rw [run_of_next h]
    exact ⟨stages ++ [p], last, hthrough.prepend h, hends⟩
  | case2 p p' outcome h =>
    rw [run_of_halt h]
    exact ⟨[], p, .first, h⟩

end Stages

/-! ## Two passes -/

structure FirstPass (early : StateId → Prop) (p : Progress κ π) : Prop where
  passes : p.passes = 1
  waits : ∀ s, s ∈ p.reached.waitlist ↔ s ∈ p.fresh
  seen : ∀ s, p.Seen s → timesTaken p.history s = 1
  unseen : ∀ s, ¬ p.Seen s → timesTaken p.history s = 0
  count : p.iterations + p.reached.waitlist.length = p.reached.size
  postponed : ∀ s, s ∈ p.postponed ↔ early s

structure SecondPass (g : Graph σ) (early : StateId → Prop) (p : Progress κ π) : Prop where
  passes : p.passes = 2
  idle : ∀ s, s ∉ p.fresh
  requeued : ∀ s ∈ p.reached.waitlist, early s
  linked : ∀ s, early s → ∃ c ∈ p.reached, g.CoveredBy s c
  waiting : ∀ s ∈ p.reached.waitlist, timesTaken p.history s = 1
  taken : ∀ s ∈ p.reached, 1 ≤ timesTaken p.history s
  twice : ∀ s, timesTaken p.history s ≤ 2
  once : ∀ s, ¬ early s → timesTaken p.history s ≤ 1
  count : p.iterations + p.reached.waitlist.length = p.reached.size + {s | early s}.ncard
  nonempty : 0 < {s | early s}.ncard
  noPostponed : ∀ s, s ∉ p.postponed

/-- There are two passes at most. -/
def Paced (g : Graph σ) (early : StateId → Prop) (p : Progress κ π) : Prop :=
  FirstPass early p ∨ SecondPass g early p

section Passes

variable {env : Environment κ σ} {g : Graph σ} {precision : π} {p p' : Progress κ π}
  {early : StateId → Prop} {id c : StateId} {rest : Reached StateId π} {node : Node σ}
  {reply : Reply κ} {stages : List (Progress κ π)}

theorem takesEarly_iff (hpop : p.reached.pop? = some (id, rest)) {s : StateId} :
    p.TakesEarly g s ↔ s = id ∧ ∃ c, g.CoveredBy id c ∧ c ∉ p.reached := by
  constructor
  · rintro ⟨rest', c, hpop', hc, hreached⟩
    rw [hpop] at hpop'
    cases hpop'
    exact ⟨rfl, c, hc, hreached⟩
  · rintro ⟨rfl, c, hc, hreached⟩
    exact ⟨rest, c, hpop, hc, hreached⟩

theorem not_takesEarly_of_idle (hpop : p.reached.pop? = none) {s : StateId} :
    ¬ p.TakesEarly g s := by
  rintro ⟨rest, c, hpop', -, -⟩
  rw [hpop] at hpop'
  cases hpop'

namespace FirstPass

theorem start {reached : Reached StateId π} (hr : reached.IsFresh g.root) :
    FirstPass (Early g ([] : List (Progress κ π))) (.start reached g.root : Progress κ π) := by
  have hfresh : ∀ s, s ∈ ({g.root} : StateIds) ↔ s = g.root := by
    intro s
    simp [eq_comm (b := s)]
  refine ⟨rfl, ?_, ?_, fun s _ => rfl, ?_, ?_⟩
  · intro s
    rw [Progress.start, hr.2, List.mem_singleton, hfresh]
  · rintro s ⟨hmem, hs⟩
    rw [Progress.start, Reached.mem_iff_mem_states, hr.1, List.mem_singleton] at hmem
    exact absurd ((hfresh s).2 hmem) hs
  · have hsize : reached.size = 1 := by
      have hlength := congrArg List.length hr.1
      rwa [Reached.states, List.length_map] at hlength
    simp [Progress.start, hr.2, hsize]
  · intro s
    simp [Progress.start, Early]

theorem look (h : FirstPass early p) (hb : Bookkeeping g p)
    (hpop : p.reached.pop? = some (id, rest)) (holds : Bool) :
    FirstPass early (p.looked id rest holds) := by
  have hw : p.reached.waitlist = id :: rest.waitlist := Reached.waitlist_of_pop? hpop
  have hfresh : id ∈ p.fresh := (h.waits id).1 (Reached.mem_waitlist_of_pop? hpop)
  have hnodup : id ∉ rest.waitlist := (List.nodup_cons.1 (hb.nodup_of_pop? hpop)).1
  refine ⟨h.passes, ?_, ?_, ?_, ?_, h.postponed⟩
  · intro s
    have hs := h.waits s
    rw [hw, List.mem_cons] at hs
    show s ∈ rest.waitlist ↔ s ∈ p.fresh.erase id
    rw [StateIds.mem_erase, ← hs]
    constructor
    · intro hmem
      exact ⟨fun heq => hnodup (heq ▸ hmem), .inr hmem⟩
    · rintro ⟨hne, heq | hmem⟩
      · exact absurd heq hne
      · exact hmem
  · intro s hs
    rw [timesTaken_looked]
    by_cases heq : id = s
    · subst heq
      have hunseen : ¬ p.Seen id := fun hs => hs.2 hfresh
      simp [h.unseen id hunseen]
    · obtain ⟨hmem, hs⟩ := (seen_looked hpop).1 hs
      have hseen : p.Seen s := ⟨hmem, hs.resolve_left (Ne.symm heq)⟩
      simp [h.seen s hseen, heq]
  · intro s hs
    have hne : id ≠ s := by
      rintro rfl
      exact hs ((seen_looked hpop).2 ⟨hb.mem_of_pop? hpop, .inl rfl⟩)
    have hunseen : ¬ p.Seen s := fun hseen => hs (hseen.looked hpop)
    simp [timesTaken_looked, h.unseen s hunseen, hne]
  · have hcount := h.count
    rw [hw, List.length_cons] at hcount
    show p.iterations + 1 + rest.waitlist.length = rest.size
    rw [Reached.size_of_pop? hpop]
    omega

theorem congr {early' : StateId → Prop} (h : FirstPass early p) (he : ∀ s, early' s ↔ early s) :
    FirstPass early' p :=
  ⟨h.passes, h.waits, h.seen, h.unseen, h.count, fun s => (h.postponed s).trans (he s).symm⟩

theorem record (h : FirstPass early p) {e : Event κ}
    (he : ∀ s, timesTaken (e :: p.history) s = timesTaken p.history s) :
    FirstPass early (p.record e) :=
  ⟨h.passes, h.waits, fun s hs => (he s).trans (h.seen s hs),
    fun s hs => (he s).trans (h.unseen s hs), h.count, h.postponed⟩

theorem postpone (h : FirstPass early p) :
    FirstPass (fun s => s = id ∨ early s) { p with postponed := p.postponed.insert id } :=
  ⟨h.passes, h.waits, h.seen, h.unseen, h.count,
    fun s => StateIds.mem_insert.trans (or_congr_right (h.postponed s))⟩

theorem admitChild {child : StateId} (h : FirstPass early p)
    (hm : admitChild g precision id child p = .next p') : FirstPass early p' := by
  rcases (admitChild_next hm).2 with ⟨-, rfl⟩ | ⟨-, -, -, rfl⟩ | ⟨-, hnew, rfl⟩
  · exact ⟨h.passes, h.waits, h.seen, h.unseen, h.count, h.postponed⟩
  · exact h
  · have hwait : (p.reached.add child precision).waitlist = p.reached.waitlist ++ [child] :=
      Reached.waitlist_add_of_not_mem hnew
    have hsize : (p.reached.add child precision).size = p.reached.size + 1 := by
      simp [Reached.size, Reached.entries_add_of_not_mem hnew]
    refine ⟨h.passes, ?_, ?_, ?_, ?_, h.postponed⟩
    · intro s
      show s ∈ (p.reached.add child precision).waitlist ↔ s ∈ p.fresh.insert child
      rw [hwait, List.mem_append, List.mem_singleton, h.waits, StateIds.mem_insert, or_comm]
    · exact fun s hs => h.seen s ((seen_admitted hnew).1 hs)
    · exact fun s hs => h.unseen s fun hseen => hs ((seen_admitted hnew).2 hseen)
    · have hcount := h.count
      show p.iterations + (p.reached.add child precision).waitlist.length =
        (p.reached.add child precision).size
      rw [hwait, hsize, List.length_append, List.length_singleton]
      omega

theorem admitAll {children : List StateId} (h : FirstPass early p)
    (hm : admitAll g precision id children p = .next p') : FirstPass early p' :=
  admitAll_next (fun _ _ _ _ hq hchild => hq.admitChild hchild) h hm

theorem again (h : FirstPass early p) (hb : Bookkeeping g p)
    (hpop : p.reached.pop? = none) (hpost : p.postponed.isEmpty = false)
    (hm : startPass g p = .next p') : SecondPass g early p' := by
  have hidle : p.reached.waitlist = [] := Reached.waitlist_of_pop?_none hpop
  have hseen : ∀ s ∈ p.reached, p.Seen s := fun s => hb.seen_of_idle hidle
  have hearly : {s | early s} = {s | s ∈ p.postponed.toList} := by
    ext s
    show early s ↔ s ∈ p.postponed.toList
    rw [ExtTreeSet.mem_toList, h.postponed]
  have hcard : {s | early s}.ncard = p.postponed.toList.length := by
    rw [hearly, ← List.coe_toFinset, Set.ncard_coe_finset,
      List.toFinset_card_of_nodup (StateIds.nodup_toList p.postponed)]
  obtain ⟨rfl, hcs⟩ := hb.startPass_next hm
  have hwaits : ∀ s ∈ p.reached.waitlist ++ p.postponed.toList, s ∈ p.postponed := by
    intro s hs
    rw [hidle, List.nil_append, ExtTreeSet.mem_toList] at hs
    exact hs
  constructor
  case passes => rw [h.passes]
  case idle =>
    intro s hs
    have hwait := (h.waits s).2 hs
    rw [hidle] at hwait
    exact List.not_mem_nil hwait
  case requeued => exact fun s hs => (h.postponed s).1 (hwaits s hs)
  case linked =>
    intro s hs
    have hmem := (h.postponed s).2 hs
    obtain ⟨c, hc⟩ := (hb.postponed s hmem).2
    exact ⟨c, hcs s hmem c hc, hc⟩
  case waiting => exact fun s hs => h.seen s (hb.postponed s (hwaits s hs)).1
  case taken => exact fun s hs => (h.seen s (hseen s hs)).ge
  case twice =>
    intro s
    by_cases hs : p.Seen s
    · exact (h.seen s hs).le.trans (by omega)
    · exact (h.unseen s hs).le.trans (by omega)
  case once =>
    intro s _
    by_cases hs : p.Seen s
    · exact (h.seen s hs).le
    · exact (h.unseen s hs).le.trans (by omega)
  case count =>
    have hcount := h.count
    rw [hidle, List.length_nil] at hcount
    show p.iterations + (p.reached.waitlist ++ p.postponed.toList).length =
      p.reached.size + _
    rw [hcard, hidle, List.nil_append]
    omega
  case nonempty =>
    rw [hcard, ExtTreeSet.length_toList]
    refine Nat.pos_of_ne_zero fun h0 => ?_
    rw [ExtTreeSet.isEmpty_eq_size_beq_zero, h0] at hpost
    cases hpost
  case noPostponed => exact fun s => ExtTreeSet.not_mem_empty

end FirstPass

namespace SecondPass

theorem congr {early' : StateId → Prop} (h : SecondPass g early p)
    (he : ∀ s, early' s ↔ early s) : SecondPass g early' p := by
  obtain rfl : early' = early := funext fun s => propext (he s)
  exact h

theorem isEmpty_postponed (h : SecondPass g early p) : p.postponed.isEmpty = true := by
  have hempty : p.postponed = ∅ :=
    ExtTreeSet.ext_mem fun s => iff_of_false (h.noPostponed s) ExtTreeSet.not_mem_empty
  rw [hempty]
  rfl

/-- A state that is taken in the second pass is covered by an admitted one. -/
theorem link_of_pop? (h : SecondPass g early p) (hpop : p.reached.pop? = some (id, rest)) :
    ∃ c ∈ p.reached, g.CoveredBy id c :=
  h.linked id (h.requeued id (Reached.mem_waitlist_of_pop? hpop))

/-- In the second pass covered states are taken once more. -/
theorem cover (h : SecondPass g early p) (hb : Bookkeeping g p)
    (hpop : p.reached.pop? = some (id, rest)) (holds : Bool) {e : Event κ}
    (he : ∀ (h : History κ) s, timesTaken (e :: h) s = timesTaken h s) :
    SecondPass g early ((p.looked id rest holds).record e) := by
  have hw : p.reached.waitlist = id :: rest.waitlist := Reached.waitlist_of_pop? hpop
  have hmem : ∀ s, s ∈ rest ↔ s ∈ p.reached := fun _ => Reached.mem_of_pop? hpop
  have hid : id ∈ p.reached.waitlist := Reached.mem_waitlist_of_pop? hpop
  have hrest : ∀ s ∈ rest.waitlist, s ∈ p.reached.waitlist :=
    fun s hs => hw ▸ List.mem_cons_of_mem id hs
  have hnodup : id ∉ rest.waitlist := (List.nodup_cons.1 (hb.nodup_of_pop? hpop)).1
  have htaken : ∀ s, timesTaken ((p.looked id rest holds).record e).history s =
      timesTaken p.history s + if id = s then 1 else 0 :=
    fun s => (he _ s).trans (timesTaken_looked s)
  constructor
  case passes => exact h.passes
  case idle => exact fun s hs => h.idle s (StateIds.mem_erase.1 hs).2
  case requeued => exact fun s hs => h.requeued s (hrest s hs)
  case linked =>
    intro s hs
    obtain ⟨c, hreached, hc⟩ := h.linked s hs
    exact ⟨c, (hmem c).2 hreached, hc⟩
  case waiting =>
    intro s hs
    have hne : id ≠ s := fun heq => hnodup (heq ▸ hs)
    rw [htaken, if_neg hne, h.waiting s (hrest s hs)]
  case taken =>
    intro s hs
    rw [htaken]
    exact (h.taken s ((hmem s).1 hs)).trans (Nat.le_add_right _ _)
  case twice =>
    intro s
    rw [htaken]
    split
    · rename_i heq
      rw [← heq, h.waiting id hid]
    · exact h.twice s
  case once =>
    intro s hs
    have hne : id ≠ s := fun heq => hs (heq ▸ h.requeued id hid)
    rw [htaken, if_neg hne]
    exact h.once s hs
  case count =>
    have hcount := h.count
    rw [hw, List.length_cons] at hcount
    show p.iterations + 1 + rest.waitlist.length = rest.size + _
    rw [Reached.size_of_pop? hpop]
    omega
  case nonempty => exact h.nonempty
  case noPostponed => exact h.noPostponed

end SecondPass

/-- The step that takes a state takes it early if its covering state was not admitted. -/
theorem early_cons_of_missing (hpop : p.reached.pop? = some (id, rest)) (hc : g.CoveredBy id c)
    (hmissing : c ∉ p.reached) (s : StateId) :
    Early g (p :: stages) s ↔ s = id ∨ Early g stages s := by
  rw [early_cons, takesEarly_iff hpop]
  exact or_congr_left (and_iff_left ⟨c, hc, hmissing⟩)

theorem early_cons_of_not (hpop : p.reached.pop? = some (id, rest))
    (hlinked : ∀ c, g.CoveredBy id c → c ∈ p.reached) (s : StateId) :
    Early g (p :: stages) s ↔ Early g stages s := by
  rw [early_cons, takesEarly_iff hpop]
  refine or_iff_right ?_
  rintro ⟨-, c, hc, hmissing⟩
  exact hmissing (hlinked c hc)

/-- States that are not covered are taken in the first pass only. -/
theorem Paced.expand {children : List StateId} (h : Paced g (Early g stages) p)
    (hb : Bookkeeping g p) (ha : AsksSuccessors env g p id rest node reply)
    (hm : admitAll g precision id children
      ((p.looked id rest true).record (.successors id node.children reply)) = .next p') :
    FirstPass (Early g (p :: stages)) p' := by
  have hnone : ∀ d, ¬ g.CoveredBy id d := by
    intro d hd
    rw [Graph.CoveredBy, ha.coveredBy?_eq] at hd
    cases hd
  rcases h with hfirst | hsecond
  · have hasked : FirstPass (Early g stages)
        ((p.looked id rest true).record (.successors id node.children reply)) :=
      (hfirst.look hb ha.looks.pop true).record fun _ => timesTaken_successors
    exact (hasked.admitAll hm).congr
      (early_cons_of_not ha.looks.pop fun d hd => absurd hd (hnone d))
  · obtain ⟨d, _, hd⟩ := hsecond.link_of_pop? ha.looks.pop
    exact absurd hd (hnone d)

theorem Paced.next (h : Paced g (Early g stages) p) (hs : Settled env g p)
    (hm : step env g precision p = .next p') : Paced g (Early g (p :: stages)) p' := by
  have hb : Bookkeeping g p := hs.books
  have hcases := step_cases env g precision p
  rw [hm] at hcases
  cases hcases with
  | again hpop hpost hstart =>
    have hsame : ∀ s, Early g (p :: stages) s ↔ Early g stages s :=
      fun s => early_cons.trans (or_iff_right (not_takesEarly_of_idle hpop))
    rcases h with hfirst | hsecond
    · exact .inr ((hfirst.again hb hpop hpost hstart).congr hsame)
    · cases hsecond.isEmpty_postponed.symm.trans hpost
  | @postponed id rest node c hl hc hmissing =>
    have hlink : g.CoveredBy id c := hl.coveredBy?_eq.trans hc
    have hunreached : c ∉ p.reached := fun hmem => hmissing ((Reached.mem_of_pop? hl.pop).2 hmem)
    rcases h with hfirst | hsecond
    · exact .inl ((hfirst.look hb hl.pop true).postpone.congr
        (early_cons_of_missing hl.pop hlink hunreached))
    · obtain ⟨d, hreached, hd⟩ := hsecond.link_of_pop? hl.pop
      rw [hlink.eq hd] at hunreached
      exact absurd hreached hunreached
  | @covered id rest node c reply ha _ =>
    have hlink : g.CoveredBy id c := ha.coveredBy?_eq
    have hreached : c ∈ p.reached := (Reached.mem_of_pop? ha.looks.pop).1 ha.reached
    have hsame : ∀ s, Early g (p :: stages) s ↔ Early g stages s :=
      early_cons_of_not ha.looks.pop fun d hd => hlink.eq hd ▸ hreached
    rcases h with hfirst | hsecond
    · exact .inl (((hfirst.look hb ha.looks.pop true).record fun _ => timesTaken_covering).congr
        hsame)
    · exact .inr ((hsecond.cover hb ha.looks.pop true fun _ _ => timesTaken_covering).congr hsame)
  | expand ha _ hall => exact .inl (h.expand hb ha hall)

/-- Between two steps of a check there are two passes at most, and every stage took a state or
started a pass. -/
theorem Through.paced {reached : Reached StateId π} (hr : reached.IsFresh g.root)
    (h : Through env g precision (.start reached g.root) stages p) :
    Settled env g p ∧ Paced g (Early g stages) p ∧
      stages.length + 1 = p.iterations + p.passes := by
  induction h with
  | first => exact ⟨.start hr, .inl (.start hr), rfl⟩
  | @next stages p p' _ hm ih =>
    obtain ⟨hsettled, hpaced, hlength⟩ := ih
    have hwork := work_of_step hm
    refine ⟨hsettled.step hm, hpaced.next hsettled hm, ?_⟩
    rw [List.length_cons]
    omega

end Passes

end Certificate
end StateSpace
