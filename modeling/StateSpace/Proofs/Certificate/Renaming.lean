import StateSpace.Proofs.Certificate.Requeued
import StateSpace.Proofs.Graph.Renaming

/-!
# StateSpace.Proofs.Certificate.Renaming

The names of the nodes do not matter to a check, nor do nodes that nothing leads to.

* `Matches`: two checks of corresponding graphs are at the same point. In the first pass they stay
  so: a step of the one that leads on is matched by a step of the other (`Matches.step`).
* The order in which postponed states wait again is that of their names, so in the second pass the
  checks are not in step any more. They do the same work nevertheless (`Matches.idle`).
* `Matches.run` puts both passes together. Since a renaming can be turned around, it is enough to
  start from the valid certificate.
-/

namespace StateSpace

namespace Certificate

open Std

variable {κ π σ : Type}

/-! ## Corresponding sets -/

/-- The second set holds the names of the states of the first one, which are connected. -/
structure Corresponds (g : Graph σ) (f : StateId → StateId) (x x' : StateIds) : Prop where
  connected : ∀ s ∈ x, g.Connected s
  mem_iff : ∀ t, t ∈ x' ↔ ∃ s ∈ x, f s = t

namespace Corresponds

variable {g g' : Graph σ} {f : StateId → StateId} {x x' : StateIds} {s a : StateId}

theorem empty (g : Graph σ) (f : StateId → StateId) : Corresponds g f ∅ ∅ where
  connected _ hs := absurd hs ExtTreeSet.not_mem_empty
  mem_iff _ := by simp

theorem singleton (hs : g.Connected s) : Corresponds g f {s} {f s} := by
  have hmem : ∀ t u : StateId, t ∈ ({u} : StateIds) ↔ t = u := by
    intro t u
    simp [eq_comm (b := t)]
  refine ⟨fun t ht => ?_, fun t => ?_⟩
  · rw [(hmem t s).1 ht]
    exact hs
  · rw [hmem]
    constructor
    · rintro rfl
      exact ⟨s, (hmem s s).2 rfl, rfl⟩
    · rintro ⟨u, hu, rfl⟩
      rw [(hmem u s).1 hu]

theorem map_mem_iff (h : Corresponds g f x x') (hr : g.Renames f g') (ha : g.Named a) :
    f a ∈ x' ↔ a ∈ x := by
  rw [h.mem_iff]
  constructor
  · rintro ⟨s, hs, heq⟩
    rwa [← (hr.eq_iff (h.connected s hs).named ha).1 heq]
  · exact fun hmem => ⟨a, hmem, rfl⟩

theorem insert (h : Corresponds g f x x') (hs : g.Connected s) :
    Corresponds g f (x.insert s) (x'.insert (f s)) where
  connected t ht := by
    rcases StateIds.mem_insert.1 ht with rfl | ht
    · exact hs
    · exact h.connected t ht
  mem_iff t := by
    rw [StateIds.mem_insert, h.mem_iff]
    constructor
    · rintro (rfl | ⟨u, hu, rfl⟩)
      · exact ⟨s, StateIds.mem_insert.2 (.inl rfl), rfl⟩
      · exact ⟨u, StateIds.mem_insert.2 (.inr hu), rfl⟩
    · rintro ⟨u, hu, rfl⟩
      rcases StateIds.mem_insert.1 hu with rfl | hu
      · exact .inl rfl
      · exact .inr ⟨u, hu, rfl⟩

theorem erase (h : Corresponds g f x x') (hr : g.Renames f g') (hs : g.Connected s) :
    Corresponds g f (x.erase s) (x'.erase (f s)) where
  connected t ht := h.connected t (StateIds.mem_erase.1 ht).2
  mem_iff t := by
    simp only [StateIds.mem_erase, h.mem_iff]
    constructor
    · rintro ⟨hne, u, hu, rfl⟩
      exact ⟨u, ⟨fun heq => hne (heq ▸ rfl), hu⟩, rfl⟩
    · rintro ⟨u, ⟨hne, hu⟩, rfl⟩
      exact ⟨fun heq => hne ((hr.eq_iff (h.connected u hu).named hs.named).1 heq), u, hu, rfl⟩

theorem perm_toList (h : Corresponds g f x x') (hr : g.Renames f g') :
    x'.toList.Perm (x.toList.map f) := by
  have hinj : ∀ a ∈ x.toList, ∀ b ∈ x.toList, f a = f b → a = b := by
    intro a ha b hb
    exact (hr.eq_iff (h.connected a (ExtTreeSet.mem_toList.1 ha)).named
      (h.connected b (ExtTreeSet.mem_toList.1 hb)).named).1
  have hnodup : (x.toList.map f).Nodup := List.Nodup.map_on hinj (StateIds.nodup_toList x)
  refine (List.perm_ext_iff_of_nodup (StateIds.nodup_toList x') hnodup).2 fun t => ?_
  simp only [ExtTreeSet.mem_toList, h.mem_iff, List.mem_map]

theorem isEmpty_eq (h : Corresponds g f x x') : x'.isEmpty = x.isEmpty := by
  rw [Bool.eq_iff_iff, ExtTreeSet.isEmpty_iff, ExtTreeSet.isEmpty_iff]
  constructor
  · rintro rfl
    refine ExtTreeSet.ext_mem fun s => iff_of_false (fun hs => ?_) ExtTreeSet.not_mem_empty
    exact ExtTreeSet.not_mem_empty ((h.mem_iff (f s)).2 ⟨s, hs, rfl⟩)
  · rintro rfl
    refine ExtTreeSet.ext_mem fun t => iff_of_false (fun ht => ?_) ExtTreeSet.not_mem_empty
    obtain ⟨s, hs, _⟩ := (h.mem_iff t).1 ht
    exact ExtTreeSet.not_mem_empty hs

end Corresponds

/-! ## The first pass -/

/-- Two checks are at the same point. -/
structure Matches (g : Graph σ) (f : StateId → StateId) (p p' : Progress κ π) : Prop where
  connected : ∀ s ∈ p.reached, g.Connected s
  entries : p'.reached.entries = p.reached.entries.map (Prod.map f id)
  waitlist : p'.reached.waitlist = p.reached.waitlist.map f
  fresh : Corresponds g f p.fresh p'.fresh
  blocked : Corresponds g f p.blocked p'.blocked
  postponed : Corresponds g f p.postponed p'.postponed
  parents : ∀ s ∈ p.reached, p'.admittedParents[f s]? = (p.admittedParents[s]?).map (·.map f)
  iterations : p'.iterations = p.iterations
  passes : p'.passes = p.passes

namespace Matches

variable {env : Environment κ σ} {oracle : Oracle κ σ} {property : Property σ} {g g' : Graph σ}
  {f : StateId → StateId} {precision : π} {p p' q : Progress κ π} {id child a c : StateId}
  {rest : Reached StateId π}

theorem record (h : Matches g f p p') (e e' : Event κ) :
    Matches g f (p.record e) (p'.record e') :=
  ⟨h.connected, h.entries, h.waitlist, h.fresh, h.blocked, h.postponed, h.parents, h.iterations,
    h.passes⟩

theorem mem_iff (h : Matches g f p p') (hr : g.Renames f g') (ha : g.Named a) :
    f a ∈ p'.reached ↔ a ∈ p.reached := by
  rw [Reached.mem_iff_mem_states, Reached.states, h.entries, List.map_map,
    Reached.mem_iff_mem_states]
  constructor
  · intro hmem
    obtain ⟨entry, hentry, heq⟩ := List.mem_map.1 hmem
    have hstate : entry.1 ∈ p.reached := List.mem_map_of_mem hentry
    have hsame : entry.1 = a := (hr.eq_iff (h.connected _ hstate).named ha).1 heq
    exact hsame ▸ hstate
  · intro hmem
    obtain ⟨entry, hentry, rfl⟩ := List.mem_map.1 hmem
    exact List.mem_map.2 ⟨entry, hentry, rfl⟩

theorem lacksParent_eq (h : Matches g f p p') (hr : g.Renames f g') {l : List StateId}
    (hl : ∀ a ∈ l, g.Named a) : p'.lacksParent (l.map f) = p.lacksParent l := by
  rw [Bool.eq_iff_iff, Progress.lacksParent, List.any_map, Progress.lacksParent, List.any_eq_true,
    List.any_eq_true]
  refine exists_congr fun q => and_congr_right fun hq => ?_
  simp only [Function.comp_apply, Bool.or_eq_true, decide_eq_true_eq, h.mem_iff hr (hl q hq),
    h.fresh.map_mem_iff hr (hl q hq)]

/-! ### Claimed successors -/

theorem block (h : Matches g f p p') (hchild : g.Connected child) :
    Matches g f { p with blocked := p.blocked.insert child }
      { p' with blocked := p'.blocked.insert (f child) } :=
  { h with blocked := h.blocked.insert hchild }

theorem admitted (h : Matches g f p p') (hr : g.Renames f g') (hchild : g.Connected child)
    (hnew : child ∉ p.reached) :
    Matches g f (p.admitted child precision (g.parents child))
      (p'.admitted (f child) precision (g'.parents (f child))) := by
  have hnew' : f child ∉ p'.reached := fun hmem => hnew ((h.mem_iff hr hchild.named).1 hmem)
  constructor
  case connected =>
    intro s hs
    rcases Reached.mem_add.1 hs with hs | rfl
    · exact h.connected s hs
    · exact hchild
  case entries =>
    show (p'.reached.add (f child) precision).entries =
      (p.reached.add child precision).entries.map _
    rw [Reached.entries_add_of_not_mem hnew', Reached.entries_add_of_not_mem hnew, h.entries,
      List.map_append]
    rfl
  case waitlist =>
    show (p'.reached.add (f child) precision).waitlist =
      (p.reached.add child precision).waitlist.map f
    rw [Reached.waitlist_add_of_not_mem hnew', Reached.waitlist_add_of_not_mem hnew, h.waitlist,
      List.map_append]
    rfl
  case fresh => exact h.fresh.insert hchild
  case blocked => exact h.blocked.erase hr hchild
  case postponed => exact h.postponed
  case parents =>
    intro s hs
    simp only [Progress.admitted, ExtTreeMap.getElem?_insert, Nat.compare_eq_eq]
    rcases Reached.mem_add.1 hs with hs | rfl
    · have hne : child ≠ s := fun heq => hnew (heq ▸ hs)
      have hne' : f child ≠ f s :=
        fun heq => hne ((hr.eq_iff hchild.named (h.connected s hs).named).1 heq)
      rw [if_neg hne, if_neg hne']
      exact h.parents s hs
    · rw [if_pos rfl, if_pos rfl, hr.parents hchild]
      rfl
  case iterations => exact h.iterations
  case passes => exact h.passes

theorem admitChild (h : Matches g f p p') (hr : g.Renames f g') (hchild : g.Connected child)
    (hm : admitChild g precision id child p = .next q) :
    ∃ q', Certificate.admitChild g' precision (f id) (f child) p' = .next q' ∧
      Matches g f q q' := by
  obtain ⟨hparent, hm⟩ := admitChild_next hm
  have hnamed : ∀ a ∈ g.parents child, g.Named a := fun a => hchild.named_parent
  have hparent' : f id ∈ g'.parents (f child) := by
    rw [hr.parents hchild]
    exact List.mem_map_of_mem hparent
  have hlacks : p'.lacksParent (g'.parents (f child)) = p.lacksParent (g.parents child) := by
    rw [hr.parents hchild]
    exact h.lacksParent_eq hr hnamed
  have hmem := h.mem_iff hr hchild.named
  unfold Certificate.admitChild
  rw [if_neg (not_not_intro hparent'), hlacks]
  rcases hm with ⟨hlacks, rfl⟩ | ⟨hready, hreached, hsame, rfl⟩ | ⟨hready, hnew, rfl⟩
  · rw [if_pos hlacks]
    exact ⟨_, rfl, h.block hchild⟩
  · have hsame' : p'.admittedParents[f child]? = some (g'.parents (f child)) := by
      rw [h.parents child hreached, hsame, hr.parents hchild]
      rfl
    rw [hready, if_neg Bool.false_ne_true, if_pos (hmem.2 hreached), if_pos hsame']
    exact ⟨_, rfl, h⟩
  · rw [hready, if_neg Bool.false_ne_true, if_neg (mt hmem.1 hnew)]
    exact ⟨_, rfl, h.admitted hr hchild hnew⟩

theorem admitAll {children : List StateId} (h : Matches g f p p') (hr : g.Renames f g')
    (hchildren : ∀ child ∈ children, g.Connected child)
    (hm : admitAll g precision id children p = .next q) :
    ∃ q', Certificate.admitAll g' precision (f id) (children.map f) p' = .next q' ∧
      Matches g f q q' := by
  induction children generalizing p p' with
  | nil =>
    cases hm
    exact ⟨p', rfl, h⟩
  | cons child rest ih =>
    rw [Certificate.admitAll] at hm
    split at hm
    · rename_i next hnext
      obtain ⟨next', hnext', hmatch⟩ := h.admitChild hr (hchildren child List.mem_cons_self) hnext
      rw [List.map_cons, Certificate.admitAll, hnext']
      exact ih hmatch (fun e he => hchildren e (List.mem_cons_of_mem child he)) hm
    · cases hm

/-! ### Whole steps -/

theorem looked (h : Matches g f p p') (hr : g.Renames f g')
    (hpop : p.reached.pop? = some (id, rest)) (hid : g.Connected id) (holds : Bool) :
    ∃ rest', p'.reached.pop? = some (f id, rest') ∧
      Matches g f (p.looked id rest holds) (p'.looked (f id) rest' holds) := by
  have hw : p'.reached.waitlist = f id :: rest.waitlist.map f := by
    rw [h.waitlist, Reached.waitlist_of_pop? hpop, List.map_cons]
  refine ⟨_, Reached.pop?_of_waitlist hw, ?_⟩
  have hmem : ∀ s, s ∈ rest ↔ s ∈ p.reached := fun _ => Reached.mem_of_pop? hpop
  constructor
  case connected => exact fun s hs => h.connected s ((hmem s).1 hs)
  case entries =>
    show p'.reached.entries = rest.entries.map _
    rw [Reached.entries_of_pop? hpop]
    exact h.entries
  case waitlist => rfl
  case fresh => exact h.fresh.erase hr hid
  case blocked => exact h.blocked
  case postponed => exact h.postponed
  case parents => exact fun s hs => h.parents s ((hmem s).1 hs)
  case iterations => exact congrArg (· + 1) h.iterations
  case passes => exact h.passes

theorem looks {node : Node σ} (h : Matches g f p p') (hr : g.Renames f g')
    (hid : g.Connected id) (hl : Looks (.steady oracle property) g p id rest node) :
    ∃ rest', Looks (.steady oracle property) g' p' (f id) rest' (node.rename f) ∧
      Matches g f (p.looked id rest true) (p'.looked (f id) rest' true) := by
  obtain ⟨rest', hpop', hmatch⟩ := h.looked hr hl.pop hid true
  have hknown : g'.node? (f id) = some (node.rename f) := by
    rw [hr.node? id hid, hl.known]
    rfl
  exact ⟨rest', ⟨hpop', rfl, hknown, hl.holds⟩, hmatch⟩

theorem step (h : Matches g f p p') (hr : g.Renames f g') (hg' : g'.InRange)
    (hb : Bookkeeping g p) (hpop : p.reached.pop? = some (id, rest))
    (hm : step (.steady oracle property) g precision p = .next q) :
    ∃ q', Certificate.step (.steady oracle property) g' precision p' = .next q' ∧
      Matches g f q q' := by
  have hid : g.Connected id := h.connected id (hb.mem_of_pop? hpop)
  have hcases := step_cases (.steady oracle property) g precision p
  rw [hm] at hcases
  cases hcases with
  | again hidle _ _ => cases hidle.symm.trans hpop
  | @postponed _ rest node c hl hc hmissing =>
    cases hl.pop.symm.trans hpop
    obtain ⟨rest', hl', hmatch⟩ := h.looks hr hid hl
    have hconnected : g.Connected c := hid.covering (hl.coveredBy?_eq.trans hc)
    have hc' : (node.rename f).coveredBy? = some (f c) := congrArg (Option.map f) hc
    have hmissing' : f c ∉ rest' := mt (hmatch.mem_iff hr hconnected.named).1 hmissing
    exact ⟨_, hl'.step_postpone hc' hmissing',
      { hmatch with postponed := h.postponed.insert hid }⟩
  | @covered _ rest node c reply ha hanswer =>
    cases ha.looks.pop.symm.trans hpop
    obtain ⟨rest', hl', hmatch⟩ := h.looks hr hid ha.looks
    have hconnected : g.Connected c := hid.covering ha.coveredBy?_eq
    have hc' : (node.rename f).coveredBy? = some (f c) := congrArg (Option.map f) ha.link
    have hreached' : f c ∈ rest' := (hmatch.mem_iff hr hconnected.named).2 ha.reached
    obtain ⟨other, hother, hreply⟩ := ha.replies
    have hother' : g'.node? (f c) = some (other.rename f) := by
      rw [hr.node? c hconnected, hother]
      rfl
    have ha' : AsksCovering (.steady oracle property) g' p' (f id) rest' (node.rename f) (f c)
        reply :=
      ⟨hl', hc', hreached', hr.coveringEnds hg' hid ha.ends, other.rename f, hother', hreply⟩
    exact ⟨_, ha'.step_eq hanswer, hmatch.record _ _⟩
  | @expand _ rest node reply _ ha hanswer hall =>
    cases ha.looks.pop.symm.trans hpop
    obtain ⟨rest', hl', hmatch⟩ := h.looks hr hid ha.looks
    have hchildren : ∀ child ∈ node.children, g.Connected child := by
      intro child hchild
      rw [← Graph.children_of_node? ha.looks.known] at hchild
      exact hid.child hchild
    have hc' : (node.rename f).coveredBy? = none := congrArg (Option.map f) ha.uncovered
    obtain ⟨claimed, hclaimed, hreply⟩ := ha.replies
    have ha' : AsksSuccessors (.steady oracle property) g' p' (f id) rest' (node.rename f) reply :=
      ⟨hl', hc', claimed, hr.states hchildren hclaimed, hreply⟩
    rw [ha'.step_eq hanswer]
    exact (hmatch.record _ _).admitAll hr hchildren hall

end Matches

/-! ## Both passes -/

/-- Two checks that find their certificates valid and agree but for the names. -/
structure Renamed (f : StateId → StateId) (r r' : Report κ π) : Prop where
  valid : r'.outcome = .ok .valid
  entries : r'.progress.reached.entries = r.progress.reached.entries.map (Prod.map f id)
  passes : r'.progress.passes = r.progress.passes
  iterations : r'.progress.iterations = r.progress.iterations

section Runs

variable {oracle : Oracle κ σ} {property : Property σ} {g g' : Graph σ} {f : StateId → StateId}
  {precision : π} {p p' q : Progress κ π} {s c : StateId}

theorem Confirmable.rename {node other : Node σ}
    (h : Confirmable oracle property g s c node other) (hr : g.Renames f g') (hg' : g'.InRange)
    (hs : g.Connected s) :
    Confirmable oracle property g' (f s) (f c) (node.rename f) (other.rename f) := by
  have hc : g.Connected c := hs.covering ((Graph.coveredBy?_of_node? h.known).trans h.link)
  refine ⟨?_, congrArg (Option.map f) h.link, ?_, h.holds, hr.coveringEnds hg' hs h.ends, h.answer⟩
  · rw [hr.node? s hs, h.known]
    rfl
  · rw [hr.node? c hc, h.covering]
    rfl

namespace Matches

/-- The checks are out of step from here on, but they do the same work. -/
theorem idle (h : Matches g f p p') (hr : g.Renames f g') (hg : g.InRange) (hg' : g'.InRange)
    (hc : Coherent oracle property g) (hb : Bookkeeping g p) (hb' : Bookkeeping g' p')
    (hidle : p.reached.waitlist = [])
    (hv : (run (.steady oracle property) g precision p).outcome = .ok .valid) :
    Renamed f (run (.steady oracle property) g precision p)
      (run (.steady oracle property) g' precision p') := by
  have hconf : ∀ s ∈ p.postponed, p.Confirms oracle property g s := by
    intro s hs
    obtain ⟨hseen, c, hlink⟩ := hb.postponed s hs
    exact ⟨c, reached_of_valid hb hidle hv hs hlink, hc.confirmable hg (hb.offered s hseen.1) hlink⟩
  have hconf' : ∀ t ∈ p'.postponed, p'.Confirms oracle property g' t := by
    intro t ht
    obtain ⟨s, hs, rfl⟩ := (h.postponed.mem_iff t).1 ht
    obtain ⟨c, hreached, node, other, hsc⟩ := hconf s hs
    exact ⟨f c, (h.mem_iff hr (h.connected c hreached).named).2 hreached, _, _,
      hsc.rename hr hg' (h.postponed.connected s hs)⟩
  have hidle' : p'.reached.waitlist = [] := by rw [h.waitlist, hidle, List.map_nil]
  have hdone := run_of_idle precision hb hidle hconf
  have hdone' := run_of_idle precision hb' hidle' hconf'
  have hlength : p'.postponed.toList.length = p.postponed.toList.length := by
    rw [(h.postponed.perm_toList hr).length_eq, List.length_map]
  constructor
  case valid =>
    rw [hdone.outcome, Except.ok.injEq, verdict_eq_valid_iff] at hv
    rw [hdone'.outcome, Except.ok.injEq, verdict_eq_valid_iff, h.blocked.isEmpty_eq]
    exact hv
  case entries => rw [hdone'.entries, hdone.entries, h.entries]
  case passes => rw [hdone'.passes, hdone.passes, h.passes, h.postponed.isEmpty_eq]
  case iterations => rw [hdone'.iterations, hdone.iterations, h.iterations, hlength]

theorem run (h : Matches g f p p') (hr : g.Renames f g') (hg : g.InRange)
    (hg' : g'.InRange) (hc : Coherent oracle property g)
    (hs : Settled (.steady oracle property) g p) (hs' : Settled (.steady oracle property) g' p')
    (hv : (run (.steady oracle property) g precision p).outcome = .ok .valid) :
    Renamed f (Certificate.run (.steady oracle property) g precision p)
      (Certificate.run (.steady oracle property) g' precision p') := by
  induction p using run.induct (.steady oracle property) g precision generalizing p' with
  | case1 p q hstep ih =>
    cases hpop : p.reached.pop? with
    | none => exact h.idle hr hg hg' hc hs.books hs'.books (Reached.waitlist_of_pop?_none hpop) hv
    | some popped =>
      obtain ⟨id, rest⟩ := popped
      obtain ⟨q', hstep', hmatch⟩ := h.step hr hg' hs.books hpop hstep
      rw [run_of_next hstep] at hv ⊢
      rw [run_of_next hstep']
      exact ih hmatch (hs.step hstep) (hs'.step hstep') hv
  | case2 p q outcome hstep =>
    have hpop : p.reached.pop? = none := by
      have hvalid : outcome = .ok .valid := by rwa [run_of_halt hstep] at hv
      rw [hvalid] at hstep
      exact (finish_of_valid hstep).2.1
    exact h.idle hr hg hg' hc hs.books hs'.books (Reached.waitlist_of_pop?_none hpop) hv

end Matches

end Runs

/-! ## Whole checks -/

theorem checkGraph_eq_run (env : Environment κ σ) (g : Graph σ) (precision : π) :
    checkGraph env g precision =
      run env g precision (.start (Reached.empty.add g.root precision) g.root) := by
  have hnew : g.root ∉ (Reached.empty : Reached StateId π) := List.not_mem_nil
  exact check_eq_run env (Reached.entries_add_of_not_mem hnew)

section Checks

variable {oracle : Oracle κ σ} {property : Property σ} {g g' : Graph σ} {f : StateId → StateId}
  {precision : π}

theorem Matches.start (hr : g.Renames f g') (precision : π) :
    Matches (κ := κ) g f (.start (Reached.empty.add g.root precision) g.root)
      (.start (Reached.empty.add g'.root precision) g'.root) := by
  have hmem : ∀ s, s ∈ (Reached.empty : Reached StateId π).add g.root precision ↔ s = g.root := by
    intro s
    rw [Reached.mem_add]
    exact or_iff_right List.not_mem_nil
  have hnil : ∀ a, a ∉ (Reached.empty : Reached StateId π) := fun a => List.not_mem_nil
  have hroot : Corresponds g f {g.root} {g'.root} := by
    rw [← hr.root]
    exact .singleton .root
  constructor
  case connected =>
    intro s hs
    rw [(hmem s).1 hs]
    exact .root
  case entries =>
    simp only [Progress.start]
    rw [Reached.entries_add_of_not_mem (hnil _), Reached.entries_add_of_not_mem (hnil _), ← hr.root]
    rfl
  case waitlist =>
    simp only [Progress.start]
    rw [Reached.waitlist_add_of_not_mem (hnil _), Reached.waitlist_add_of_not_mem (hnil _),
      ← hr.root]
    rfl
  case fresh => exact hroot
  case blocked => exact .empty g f
  case postponed => exact .empty g f
  case parents =>
    intro s hs
    rw [(hmem s).1 hs, hr.root]
    simp [Progress.start]
  case iterations => rfl
  case passes => rfl

theorem renamed_of_checkGraph_valid (hr : g.Renames f g') (hg : g.InRange) (hg' : g'.InRange)
    (hv : (checkGraph (.steady oracle property) g precision).outcome = .ok .valid) :
    Renamed f (checkGraph (.steady oracle property) g precision)
      (checkGraph (.steady oracle property) g' precision) := by
  have hfresh : (Reached.empty.add g.root precision).IsFresh g.root :=
    Reached.isFresh_add_empty g.root precision
  have hc : Coherent oracle property g := (accepted_check hfresh hv).coherent
  rw [checkGraph_eq_run] at hv ⊢
  rw [checkGraph_eq_run]
  exact (Matches.start hr precision).run hr hg hg' hc (.start hfresh)
    (.start (Reached.isFresh_add_empty g'.root precision)) hv

/-- Two checks that agree but for the names. -/
structure AgreesUpTo (f : StateId → StateId) (r r' : Report κ π) : Prop where
  valid_iff : r.outcome = .ok .valid ↔ r'.outcome = .ok .valid
  renamed : r.outcome = .ok .valid → Renamed f r r'

/-- Neither the names of the nodes matter to a check, nor nodes that nothing leads to. -/
theorem checkGraph_of_renames (hr : g.Renames f g') (hg : g.InRange) (hg' : g'.InRange) :
    AgreesUpTo f (checkGraph (.steady oracle property) g precision)
      (checkGraph (.steady oracle property) g' precision) where
  valid_iff := ⟨fun hv => (renamed_of_checkGraph_valid hr hg hg' hv).valid,
    fun hv => (renamed_of_checkGraph_valid hr.symm hg' hg hv).valid⟩
  renamed := renamed_of_checkGraph_valid hr hg hg'

end Checks

/-- `s` and `t` are looked at before `c`, which covers both, is found. -/
def doubled : Graph ProgramState where
  nodes := #[
    { state := { name := "root" }, children := [1, 2, 3] },
    { state := { name := "s" }, parents := [0], coveredBy? := some 4 },
    { state := { name := "t" }, parents := [0], coveredBy? := some 4 },
    { state := { name := "x" }, parents := [0], children := [4] },
    { state := { name := "c" }, parents := [3] }]
  nonempty := Nat.zero_lt_succ _

/-- By these names `t` comes before `s`, and nothing leads to `e`. -/
def shuffled : Graph ProgramState where
  nodes := #[
    { state := { name := "root" }, children := [3, 1, 2] },
    { state := { name := "t" }, parents := [0], coveredBy? := some 5 },
    { state := { name := "x" }, parents := [0], children := [5] },
    { state := { name := "s" }, parents := [0], coveredBy? := some 5 },
    { state := { name := "e" }, parents := [2, 7], children := [5], coveredBy? := some 0 },
    { state := { name := "c" }, parents := [2] }]
  nonempty := Nat.zero_lt_succ _

def shuffle (s : StateId) : StateId := [0, 3, 1, 2, 5].getD s s

def doubledTable : Table where
  successors := [("root", ["s", "t", "x"]), ("x", ["c"]), ("c", [])]

theorem checkGraph_of_renames_shuffled :
    doubled.Renames shuffle shuffled ∧ doubled.InRange ∧ shuffled.InRange ∧
      (checkGraph (.steady (doubledTable.oracle : Oracle Unit _) (.rejecting []))
        doubled ()).outcome = .ok .valid ∧
      AgreesUpTo shuffle
        (checkGraph (.steady (doubledTable.oracle : Oracle Unit _) (.rejecting [])) doubled ())
        (checkGraph (.steady (doubledTable.oracle : Oracle Unit _) (.rejecting []))
          shuffled ()) := by
  have hg : doubled.InRange := by refine .of_forall_lt ?_ ?_ <;> decide
  have hg' : shuffled.InRange := by refine .of_forall_lt ?_ ?_ <;> decide
  have hr : doubled.Renames shuffle shuffled := by
    refine .of_forall_lt hg rfl ?_ ?_ ?_ <;> decide
  exact ⟨hr, hg, hg', by decide +kernel, checkGraph_of_renames hr hg hg'⟩

end Certificate
end StateSpace
