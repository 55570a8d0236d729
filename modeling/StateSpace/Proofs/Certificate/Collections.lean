import StateSpace.Proofs.Certificate.Admission

/-!
# StateSpace.Proofs.Certificate.Collections

What the collections of a check hold between two states that it takes.

* `Between`: a check is between two steps, or within a step between two rounds of a loop.
* `Exploring`: in the first pass the reached set parts into the states that were taken and those
  that are fresh, and exactly the fresh ones wait. A state is postponed if it was taken `Early`.
* `Revisiting`: in the second pass only covered states wait, and nothing is added to the reached
  set (`Through.entries_eq`).
* `Tallied`: one of the two, and what holds in both passes. Predecessors are recorded for the
  reached states and for no others (`Progress.RecordsReached`).
* `tallied_check`: so it is at every such point of a check that starts at the root alone.
-/

namespace StateSpace
namespace Certificate

open Std

variable {κ π σ : Type}

/-! ## Where a check can be -/

/-- The state was taken from the waitlist at one of the stages. -/
def Taken (stages : List (Progress κ π)) (s : StateId) : Prop :=
  ∃ p ∈ stages, ∃ rest, p.reached.pop? = some (s, rest)

/-- Nothing waits any more, or the second pass has begun. -/
def Progress.PastFirst (p : Progress κ π) : Prop := p.reached.waitlist = [] ∨ p.passes = 2

/-- Where a check can be that came through some stages and takes no state just now. -/
inductive Between (env : Environment κ σ) (g : Graph σ) (precision : π) (first : Progress κ π) :
    List (Progress κ π) → Progress κ π → Prop where
  | steps {stages p} : Through env g precision first stages p →
      Between env g precision first stages p
  /-- The state that was taken last has offered some of its claimed successors. -/
  | successors {stages p id rest node reply offered left q} :
      Through env g precision first stages p → AsksSuccessors env g p id rest node reply →
      reply.answer = .ok true → node.children = offered ++ left →
      admitAll g precision id offered
        ((p.looked id rest true).record (.successors id node.children reply)) = .next q →
      Between env g precision first (p :: stages) q
  /-- Another pass begins, and some of the postponed states wait again. -/
  | postponed {stages p requeued left q} : Through env g precision first stages p →
      p.reached.pop? = none → p.postponed.isEmpty = false →
      p.postponed.toList = requeued ++ left →
      requeueAll g requeued { p with passes := p.passes + 1, postponed := ∅ } = .next q →
      Between env g precision first (p :: stages) q

section Takes

variable {env : Environment κ σ} {g : Graph σ} {precision : π} {p : Progress κ π}
  {stages : List (Progress κ π)} {id s : StateId} {rest : Reached StateId π}

theorem taken_cons_of_pop? (hpop : p.reached.pop? = some (id, rest)) :
    Taken (p :: stages) s ↔ id = s ∨ Taken stages s := by
  have hhere : (∃ rest, p.reached.pop? = some (s, rest)) ↔ id = s := by
    simp [hpop]
  rw [Taken, List.exists_mem_cons_iff, hhere]
  rfl

theorem taken_cons_of_idle (hpop : p.reached.pop? = none) :
    Taken (p :: stages) s ↔ Taken stages s := by
  have hhere : ¬ ∃ rest, p.reached.pop? = some (s, rest) := by
    simp [hpop]
  rw [Taken, List.exists_mem_cons_iff]
  exact or_iff_right hhere

theorem taken_cons_iff {q : Progress κ π} (hpop : p.reached.pop? = some (id, rest))
    (h : Taken stages s ↔ 0 < timesTaken p.history s)
    (hcount : timesTaken q.history s = timesTaken p.history s + if id = s then 1 else 0) :
    Taken (p :: stages) s ↔ 0 < timesTaken q.history s := by
  rw [taken_cons_of_pop? hpop, h, hcount]
  by_cases heq : id = s
  · simp [heq]
  · simp [heq]

/-- The records of a check tell which states it took at its stages. -/
theorem Through.taken_iff {reached : Reached StateId π} (hr : reached.IsFresh g.root)
    (h : Through env g precision (.start reached g.root) stages p) (s : StateId) :
    Taken stages s ↔ 0 < timesTaken p.history s := by
  induction h with
  | first =>
    have hstart : timesTaken (.start reached g.root : Progress κ π).history s = 0 := rfl
    simp [Taken, hstart]
  | next hthrough hm ih =>
    have hrecords := records_of_step env precision (hthrough.paced hr).1.books
    rw [hm] at hrecords
    rcases hrecords with ⟨hpop, _, hsame⟩ | ⟨hpop, _, hsame, _⟩ | ⟨id, rest, hpop, _, htaken⟩
    · rw [taken_cons_of_idle hpop, ih, ← hsame]
      rfl
    · rw [taken_cons_of_idle hpop, ih, ← hsame]
      rfl
    · exact taken_cons_iff hpop ih (htaken s)

end Takes

/-! ## Recorded predecessors -/

/-- Predecessors are recorded for reached states only. -/
def Progress.RecordsReached (p : Progress κ π) : Prop := ∀ s ∈ p.admittedParents, s ∈ p.reached

section Records

variable {env : Environment κ σ} {g : Graph σ} {precision : π} {p p' : Progress κ π}
  {stages : List (Progress κ π)} {id child : StateId} {rest : Reached StateId π}

namespace Progress.RecordsReached

theorem start {reached : Reached StateId π} (hr : reached.IsFresh g.root) :
    (Progress.start reached g.root : Progress κ π).RecordsReached := by
  intro s hs
  have hroot : g.root = s := by simpa [Progress.start] using hs
  rw [Progress.start, Reached.mem_iff_mem_states, hr.1, hroot]
  exact List.mem_singleton_self s

theorem looked (h : p.RecordsReached) (hpop : p.reached.pop? = some (id, rest)) (holds : Bool) :
    (p.looked id rest holds).RecordsReached :=
  fun s hs => (Reached.mem_of_pop? hpop).2 (h s hs)

theorem record (h : p.RecordsReached) (e : Event κ) : (p.record e).RecordsReached := h

theorem admitChild (h : p.RecordsReached)
    (hm : admitChild g precision id child p = .next p') : p'.RecordsReached := by
  rcases (admitChild_next hm).2 with ⟨-, rfl⟩ | ⟨-, -, -, rfl⟩ | ⟨-, -, rfl⟩
  · exact h
  · exact h
  · intro s hs
    rcases ExtTreeMap.mem_insert.1 hs with heq | hs
    · exact Reached.mem_add.2 (.inr (Nat.compare_eq_eq.1 heq).symm)
    · exact Reached.mem_add.2 (.inl (h s hs))

theorem admitAll {children : List StateId} (h : p.RecordsReached)
    (hm : admitAll g precision id children p = .next p') : p'.RecordsReached :=
  admitAll_next (fun _ _ _ _ hq hchild => hq.admitChild hchild) h hm

theorem step (h : p.RecordsReached) (hm : step env g precision p = .next p') :
    p'.RecordsReached := by
  have hcases := step_cases env g precision p
  rw [hm] at hcases
  cases hcases with
  | again _ _ hstart =>
    obtain ⟨waitlist, hp'⟩ := progress_startPass g p
    rw [hstart] at hp'
    obtain rfl : p' = _ := hp'
    exact h
  | postponed hl => exact h.looked hl.pop true
  | covered ha => exact h.looked ha.looks.pop true
  | expand ha _ hall => exact ((h.looked ha.looks.pop true).record _).admitAll hall

end Progress.RecordsReached

theorem Through.recordsReached {reached : Reached StateId π} (hr : reached.IsFresh g.root)
    (h : Through env g precision (.start reached g.root) stages p) : p.RecordsReached := by
  induction h with
  | first => exact .start hr
  | next _ hm ih => exact ih.step hm

end Records

/-! ## After the first pass -/

section Later

variable {env : Environment κ σ} {g : Graph σ} {precision : π} {p p' q : Progress κ π}
  {early : StateId → Prop} {stages : List (Progress κ π)} {id : StateId}
  {rest : Reached StateId π}

theorem Progress.PastFirst.second (h : p.PastFirst) (hp : Paced g early p)
    (hpop : p.reached.pop? = some (id, rest)) : SecondPass g early p := by
  refine hp.resolve_left fun hfirst => ?_
  rcases h with hidle | htwo
  · cases hpop.symm.trans (Reached.pop?_of_idle hidle)
  · cases hfirst.passes.symm.trans htwo

/-- Once the first pass is over, every state that is taken is covered. -/
theorem Progress.PastFirst.link_of_pop? (h : p.PastFirst) (hp : Paced g early p)
    (hpop : p.reached.pop? = some (id, rest)) : g.coveredBy? id ≠ none := by
  obtain ⟨c, _, hlink⟩ := (h.second hp hpop).link_of_pop? hpop
  rw [Graph.CoveredBy] at hlink
  simp [hlink]

theorem Progress.PastFirst.entries_step (env : Environment κ σ) (precision : π)
    (h : p.PastFirst) (hp : Paced g early p) (hb : Bookkeeping g p) :
    (Certificate.step env g precision p).progress.reached.entries = p.reached.entries := by
  rcases entries_of_step env precision hb with ⟨hentries, _⟩ | ⟨id, rest, node, reply, ha, _⟩
  · exact hentries
  · exact absurd ha.coveredBy?_eq (h.link_of_pop? hp ha.looks.pop)

theorem Progress.PastFirst.passes_eq (h : p.PastFirst) (hp : Paced g early p)
    (hb : Bookkeeping g p) (hm : step env g precision p = .next p') : p'.passes = 2 := by
  have hcases := step_cases env g precision p
  rw [hm] at hcases
  cases hcases with
  | again hpop hpost hstart =>
    rcases hp with hfirst | hsecond
    · exact (hfirst.again hb hpop hpost hstart).passes
    · cases hsecond.isEmpty_postponed.symm.trans hpost
  | postponed hl => exact (h.second hp hl.pop).passes
  | covered ha => exact (h.second hp ha.looks.pop).passes
  | expand ha => exact absurd ha.coveredBy?_eq (h.link_of_pop? hp ha.looks.pop)

/-- Nothing is reached any more once the first pass is over. -/
theorem Through.entries_eq {reached : Reached StateId π} (hr : reached.IsFresh g.root)
    (h : Through env g precision (.start reached g.root) stages p) (hq : q ∈ stages)
    (hpast : q.PastFirst) : p.passes = 2 ∧ p.reached.entries = q.reached.entries := by
  induction h with
  | first => cases hq
  | @next stages p p' hthrough hm ih =>
    obtain ⟨hsettled, hpaced, _⟩ := hthrough.paced hr
    -- A stage that is past the first pass leads to one in the second, which is past it as well.
    have hstep : p.PastFirst → p'.passes = 2 ∧ p'.reached.entries = p.reached.entries := by
      intro hp
      have hentries := hp.entries_step env precision hpaced hsettled.books
      rw [hm] at hentries
      exact ⟨hp.passes_eq hpaced hsettled.books hm, hentries⟩
    rcases List.mem_cons.1 hq with rfl | hq
    · exact hstep hpast
    · obtain ⟨htwo, hsame⟩ := ih hq
      obtain ⟨htwo', hsame'⟩ := hstep (.inr htwo)
      exact ⟨htwo', hsame'.trans hsame⟩

end Later

/-! ## The collections -/

/-- The collections in the first pass, which came through some stages. -/
structure Exploring (g : Graph σ) (stages : List (Progress κ π)) (p : Progress κ π) : Prop where
  passes : p.passes = 1
  reached : ∀ s, s ∈ p.reached ↔ Taken stages s ∨ s ∈ p.fresh
  apart : ∀ s ∈ p.fresh, ¬ Taken stages s
  waits : ∀ s, s ∈ p.reached.waitlist ↔ s ∈ p.fresh
  distinct : p.reached.waitlist.Nodup
  postponed : ∀ s, s ∈ p.postponed ↔ Early g stages s

/-- The collections in the second pass. -/
structure Revisiting (g : Graph σ) (stages : List (Progress κ π)) (p : Progress κ π) : Prop where
  passes : p.passes = 2
  fresh : ∀ s, s ∉ p.fresh
  covered : ∀ s ∈ p.reached.waitlist, ∃ c, g.CoveredBy s c
  distinct : p.reached.waitlist.Nodup
  /-- What was reached in the first pass is all that is reached. -/
  entries : ∀ q ∈ stages, q.PastFirst → p.reached.entries = q.reached.entries
  postponed : ∀ s, s ∉ p.postponed

structure Tallied (g : Graph σ) (stages : List (Progress κ π)) (p : Progress κ π) : Prop where
  pass : Exploring g stages p ∨ Revisiting g stages p
  /-- The root was not admitted from anywhere, whatever predecessors it claims. -/
  parents : ∀ s, p.admittedParents[s]? =
    if s ∈ p.reached then some (if s = g.root then [] else g.parents s) else none
  blocked : ∀ s ∈ p.blocked, s ∈ p.reached → s = g.root

section Tallies

variable {env : Environment κ σ} {g : Graph σ} {precision : π} {p q : Progress κ π}
  {stages : List (Progress κ π)} {reached : Reached StateId π}

theorem Bookkeeping.tallied (hb : Bookkeeping g p) (hrecords : p.RecordsReached)
    (hpass : Exploring g stages p ∨ Revisiting g stages p) : Tallied g stages p := by
  refine ⟨hpass, fun s => ?_, fun s hs => (hb.blocked s hs).1⟩
  split
  · rename_i hs
    exact hb.admitted s hs
  · rename_i hs
    exact ExtTreeMap.getElem?_eq_none fun hmem => hs (hrecords s hmem)

theorem FirstPass.exploring (h : FirstPass (Early g stages) p) (hb : Bookkeeping g p)
    (htaken : ∀ s, Taken stages s ↔ 0 < timesTaken p.history s) : Exploring g stages p := by
  have hseen : ∀ s, Taken stages s ↔ p.Seen s := by
    intro s
    rw [htaken]
    constructor
    · intro hpos
      refine Classical.byContradiction fun hs => ?_
      rw [h.unseen s hs] at hpos
      exact Nat.lt_irrefl 0 hpos
    · intro hs
      rw [h.seen s hs]
      exact Nat.one_pos
  constructor
  case passes => exact h.passes
  case reached =>
    intro s
    rw [hseen]
    constructor
    · intro hs
      by_cases hfresh : s ∈ p.fresh
      · exact .inr hfresh
      · exact .inl ⟨hs, hfresh⟩
    · rintro (hs | hfresh)
      · exact hs.1
      · exact hb.waiting s (hb.fresh s hfresh)
  case apart => exact fun s hfresh hs => ((hseen s).1 hs).2 hfresh
  case waits => exact h.waits
  case distinct => exact hb.distinct
  case postponed => exact h.postponed

theorem SecondPass.revisiting (h : SecondPass g (Early g stages) p) (hb : Bookkeeping g p)
    (hentries : ∀ q ∈ stages, q.PastFirst → p.reached.entries = q.reached.entries) :
    Revisiting g stages p := by
  refine ⟨h.passes, h.idle, fun s hs => ?_, hb.distinct, hentries, h.noPostponed⟩
  obtain ⟨c, _, hlink⟩ := h.linked s (h.requeued s hs)
  exact ⟨c, hlink⟩

theorem Through.tallied (hr : reached.IsFresh g.root)
    (h : Through env g precision (.start reached g.root) stages p) : Tallied g stages p := by
  obtain ⟨hsettled, hpaced, _⟩ := h.paced hr
  refine hsettled.books.tallied (h.recordsReached hr) ?_
  rcases hpaced with hfirst | hsecond
  · exact .inl (hfirst.exploring hsettled.books (h.taken_iff hr))
  · exact .inr (hsecond.revisiting hsettled.books fun q hq hpast => (h.entries_eq hr hq hpast).2)

/-- A state that is not covered has offered some of its claimed successors. -/
theorem Through.tallied_admitAll {id : StateId} {rest : Reached StateId π} {node : Node σ}
    {reply : Reply κ} {offered : List StateId} (hr : reached.IsFresh g.root)
    (h : Through env g precision (.start reached g.root) stages p)
    (ha : AsksSuccessors env g p id rest node reply) (hoffered : ∀ e ∈ offered, e ∈ node.children)
    (hm : admitAll g precision id offered
      ((p.looked id rest true).record (.successors id node.children reply)) = .next q) :
    Tallied g (p :: stages) q := by
  obtain ⟨hsettled, hpaced, _⟩ := h.paced hr
  have hpop := ha.looks.pop
  rw [← Graph.children_of_node? ha.looks.known] at hoffered
  have hbooks : Bookkeeping g q :=
    ((hsettled.books.look hpop true).record _).admitAll (hsettled.seen_self hpop)
      ha.coveredBy?_eq hoffered hm
  have htaken : ∀ s, Taken (p :: stages) s ↔ 0 < timesTaken q.history s := by
    intro s
    have hrecords := sameRecords_admitAll g precision id offered
      ((p.looked id rest true).record (.successors id node.children reply))
    rw [hm] at hrecords
    refine taken_cons_iff hpop (h.taken_iff hr s) ?_
    exact (congrArg (timesTaken · s) hrecords.history).trans
      ((timesTaken_record_successors s).trans (timesTaken_looked s))
  exact hbooks.tallied ((((h.recordsReached hr).looked hpop true).record _).admitAll hm)
    (.inl ((hpaced.expand hsettled.books ha hm).exploring hbooks htaken))

/-- The first pass is over, and some postponed states wait again. -/
theorem Through.tallied_requeueAll {requeued : List StateId} (hr : reached.IsFresh g.root)
    (h : Through env g precision (.start reached g.root) stages p)
    (hpop : p.reached.pop? = none) (hpost : p.postponed.isEmpty = false)
    (hrequeued : ∀ s ∈ requeued, s ∈ p.postponed) (hnodup : requeued.Nodup)
    (hm : requeueAll g requeued { p with passes := p.passes + 1, postponed := ∅ } = .next q) :
    Tallied g (p :: stages) q := by
  obtain ⟨hsettled, hpaced, _⟩ := h.paced hr
  have hb : Bookkeeping g p := hsettled.books
  have hidle : p.reached.waitlist = [] := Reached.waitlist_of_pop?_none hpop
  have hfirst : FirstPass (Early g stages) p := by
    refine hpaced.resolve_right fun hsecond => ?_
    cases hsecond.isEmpty_postponed.symm.trans hpost
  have hlinked : ∀ s ∈ requeued, s ∈ p.reached ∧ ∃ c, g.coveredBy? s = some c := by
    intro s hs
    obtain ⟨hseen, hlink⟩ := hb.postponed s (hrequeued s hs)
    exact ⟨hseen.1, hlink⟩
  obtain ⟨rfl, -⟩ :=
    requeueAll_next (p := { p with passes := p.passes + 1, postponed := ∅ }) hlinked hm
  have hbooks := hb.requeue hidle hnodup hrequeued
  have hrecords : p.RecordsReached := h.recordsReached hr
  refine hbooks.tallied hrecords (.inr ?_)
  constructor
  case passes => exact congrArg (· + 1) hfirst.passes
  case fresh =>
    intro s hs
    have hwaits := hb.fresh s hs
    rw [hidle] at hwaits
    exact List.not_mem_nil hwaits
  case covered =>
    intro s hs
    rw [hidle, List.nil_append] at hs
    exact (hlinked s hs).2
  case distinct => exact hbooks.distinct
  case entries =>
    intro q hq hpast
    rcases List.mem_cons.1 hq with rfl | hq
    · rfl
    · exact (h.entries_eq hr hq hpast).2
  case postponed => exact fun s => ExtTreeSet.not_mem_empty

theorem Between.tallied (hr : reached.IsFresh g.root)
    (h : Between env g precision (.start reached g.root) stages p) : Tallied g stages p := by
  cases h with
  | steps h => exact h.tallied hr
  | successors h ha _ hsplit hm =>
    refine h.tallied_admitAll hr ha ?_ hm
    rw [hsplit]
    exact fun e => List.mem_append_left _
  | @postponed _ before _ _ _ h hpop hpost hsplit hm =>
    have hnodup := StateIds.nodup_toList before.postponed
    rw [hsplit] at hnodup
    refine h.tallied_requeueAll hr hpop hpost (fun s hs => ?_) (List.nodup_append.1 hnodup).1 hm
    rw [← ExtTreeSet.mem_toList, hsplit]
    exact List.mem_append_left _ hs

end Tallies

/-! ## Whole checks -/

/-- Wherever a check can be between two states that it takes, its collections agree with the states
that it took, and its last step adds nothing either if the first pass is over. -/
theorem tallied_check {env : Environment κ σ} {g : Graph σ} {reached : Reached StateId π}
    (hr : reached.IsFresh g.root) :
    ∃ precision stages last, reached.precision? g.root = some precision ∧
      Course env g precision (.start reached g.root) stages last (check env g reached) ∧
      (∀ earlier p, Between env g precision (.start reached g.root) earlier p →
        Tallied g earlier p) ∧
      (last.PastFirst →
        (check env g reached).progress.reached.entries = last.reached.entries) := by
  obtain ⟨precision, hentries⟩ := hr.exists_entries
  obtain ⟨stages, last, hcourse⟩ := exists_course env g precision (.start reached g.root)
  rw [← check_eq_run env hentries] at hcourse
  refine ⟨precision, stages, last, ?_, hcourse, fun _ _ h => h.tallied hr, fun hpast => ?_⟩
  · rw [Reached.precision?_eq_some_iff, hentries]
    exact List.mem_singleton_self _
  · obtain ⟨hsettled, hpaced, _⟩ := hcourse.through.paced hr
    have hlast := hpast.entries_step env precision hpaced hsettled.books
    rwa [hcourse.ends] at hlast

theorem tallied_check_postponing :
    (Reached.empty.add postponing.root ()).IsFresh postponing.root ∧
      (check agreeing postponing (Reached.empty.add postponing.root ())).progress.passes = 2 ∧
      ∃ precision stages last,
        (Reached.empty.add postponing.root ()).precision? postponing.root = some precision ∧
        Course agreeing postponing precision
          (.start (Reached.empty.add postponing.root ()) postponing.root) stages last
          (check agreeing postponing (Reached.empty.add postponing.root ())) ∧
        (∀ earlier p, Between agreeing postponing precision
          (.start (Reached.empty.add postponing.root ()) postponing.root) earlier p →
          Tallied postponing earlier p) ∧
        (last.PastFirst →
          (check agreeing postponing
            (Reached.empty.add postponing.root ())).progress.reached.entries =
              last.reached.entries) := by
  have hr := Reached.isFresh_add_empty postponing.root ()
  exact ⟨hr, by decide +kernel, tallied_check hr⟩

end Certificate
end StateSpace
