import StateSpace.Proofs.Certificate.Admission

/-!
# StateSpace.Proofs.Certificate.Lookups

Which nodes of the graph a check looks up, and that all of them are there.

* `Progress.LooksUp`: the nodes that the next step may look up.
* `step_eq_of_shared`: it looks up no others. A graph that shares these nodes leads to the same
  step, whatever else it holds.
* `Contained`: all of them are nodes of the graph, so that the step breaks no rule.
* `contained_check`: so it is with every step of a check of a graph whose claimed successors and
  covering links stay inside it. Claimed predecessors are never looked up. One that lies outside the
  graph keeps the state that claims it from being admitted.
-/

namespace StateSpace

/-! ## Graphs that share nodes -/

namespace Graph

open Relation

variable {σ : Type} {g g' : Graph σ} {a b : StateId}

/-- Both graphs hold the same node of this name. -/
def Shares (g g' : Graph σ) (a : StateId) : Prop :=
  ∃ n, g.node? a = some n ∧ g'.node? a = some n

theorem shares_of_holds (h : g.Holds a) (hsame : g'.node? a = g.node? a) : g.Shares g' a := by
  obtain ⟨n, hn⟩ := exists_node? h
  exact ⟨n, hn, hsame.trans hn⟩

theorem Shares.holds (h : g.Shares g' a) : g.Holds a := by
  obtain ⟨n, hn, -⟩ := h
  exact holds_of_node? hn

theorem Shares.holds_right (h : g.Shares g' a) : g'.Holds a := by
  obtain ⟨n, -, hn'⟩ := h
  exact holds_of_node? hn'

theorem Shares.node_eq (h : g.Shares g' a) : g'.node a = g.node a := by
  obtain ⟨n, hn, hn'⟩ := h
  rw [node_of_node? hn, node_of_node? hn']

theorem Shares.coveredBy?_eq (h : g.Shares g' a) : g'.coveredBy? a = g.coveredBy? a := by
  obtain ⟨n, hn, hn'⟩ := h
  rw [coveredBy?_of_node? hn, coveredBy?_of_node? hn']

theorem Shares.parents_eq (h : g.Shares g' a) : g'.parents a = g.parents a := by
  obtain ⟨n, hn, hn'⟩ := h
  rw [parents, parents, hn, hn']

theorem states_eq_of_shares {l : List StateId} (h : ∀ a ∈ l, g.Shares g' a) :
    g'.states l = g.states l := by
  induction l with
  | nil => rfl
  | cons a rest ih =>
    obtain ⟨ha, hrest⟩ := List.forall_mem_cons.1 h
    rw [states, states, ha.node_eq, ih hrest]

/-- The walk along the covering links reads nothing but the nodes that they lead over. -/
theorem coveringWalk_eq_of_shares {visited : List StateId} {id : StateId}
    (h : ∀ a, ReflTransGen g.CoveredBy id a → g.Shares g' a) :
    g'.coveringWalk visited id = g.coveringWalk visited id := by
  have hid := h id .refl
  induction visited, id using coveringWalk.induct g with
  | case1 visited id hg hmem =>
    rw [coveringWalk_of_mem hg hmem, coveringWalk_of_mem hid.holds_right hmem]
  | case2 visited id hg hmem hnone =>
    have hend : g.coveredBy? id = none := (coveredBy?_eq_getElem hg).trans hnone
    rw [coveringWalk_of_none hg hmem hend,
      coveringWalk_of_none hid.holds_right hmem (hid.coveredBy?_eq.trans hend)]
  | case3 visited id hg hmem next hnext ih =>
    have hlink : g.CoveredBy id next := (coveredBy?_eq_getElem hg).trans hnext
    have hlink' : g'.CoveredBy id next := hid.coveredBy?_eq.trans hlink
    have hrest : ∀ a, ReflTransGen g.CoveredBy next a → g.Shares g' a :=
      fun a ha => h a (.head hlink ha)
    rw [coveringWalk_of_link hmem hlink, coveringWalk_of_link hmem hlink',
      ih hrest (hrest next .refl)]
  | case4 visited id hg => exact absurd hid.holds hg

theorem coveringEnds_eq_of_shares {id : StateId}
    (h : ∀ a, ReflTransGen g.CoveredBy id a → g.Shares g' a) :
    g'.coveringEnds id = g.coveringEnds id := by
  rw [coveringEnds, coveringEnds, coveringTrail, coveringTrail, coveringWalk_eq_of_shares h]

end Graph

namespace Certificate

open Relation Std

variable {κ π σ : Type}

/-! ## What a step looks up -/

/-- The nodes that the next step may look up. -/
inductive Progress.LooksUp (g : Graph σ) (p : Progress κ π) : StateId → Prop where
  /-- When no state waits, it asks which states cover those that were postponed. -/
  | postponed {s : StateId} : p.reached.pop? = none → s ∈ p.postponed → p.LooksUp g s
  /-- It walks along the covering links from the state that it takes. -/
  | linked {id s : StateId} {rest : Reached StateId π} : p.reached.pop? = some (id, rest) →
      ReflTransGen g.CoveredBy id s → p.LooksUp g s
  /-- It looks at the claimed successors of that state, unless it is covered. -/
  | child {id s : StateId} {rest : Reached StateId π} : p.reached.pop? = some (id, rest) →
      g.coveredBy? id = none → s ∈ g.children id → p.LooksUp g s

section Steps

variable {env : Environment κ σ} {g g' : Graph σ} {precision : π} {p q : Progress κ π}
  {id child : StateId} {l : List StateId}

theorem requeueAll_eq_of_shared (h : ∀ s ∈ l, g.Shares g' s) :
    requeueAll g' l p = requeueAll g l p := by
  induction l generalizing p with
  | nil => rfl
  | cons id rest ih =>
    obtain ⟨hid, hrest⟩ := List.forall_mem_cons.1 h
    rw [requeueAll, requeueAll, hid.coveredBy?_eq]
    simp only [ih hrest]

theorem admitAll_eq_of_shared (h : ∀ s ∈ l, g.Shares g' s) :
    admitAll g' precision id l p = admitAll g precision id l p := by
  induction l generalizing p with
  | nil => rfl
  | cons child rest ih =>
    obtain ⟨hchild, hrest⟩ := List.forall_mem_cons.1 h
    rw [admitAll, admitAll, admitChild, admitChild, hchild.parents_eq]
    simp only [ih hrest]

theorem visitCovered_eq_of_shared {c : StateId} {state : σ}
    (h : ∀ s, ReflTransGen g.CoveredBy id s → g.Shares g' s) (hc : g.CoveredBy id c) :
    visitCovered env g' id c state p = visitCovered env g id c state p := by
  rw [visitCovered, visitCovered, Graph.coveringEnds_eq_of_shares h,
    (h c (.single hc)).node_eq]

theorem visitUncovered_eq_of_shared {node : Node σ} (h : ∀ s ∈ node.children, g.Shares g' s) :
    visitUncovered env g' precision id node p = visitUncovered env g precision id node p := by
  rw [visitUncovered, visitUncovered, Graph.states_eq_of_shares h]
  simp only [admitAll_eq_of_shared h]

theorem visit_eq_of_shared (hlinked : ∀ s, ReflTransGen g.CoveredBy id s → g.Shares g' s)
    (hchildren : g.coveredBy? id = none → ∀ s ∈ g.children id, g.Shares g' s) :
    visit env g' precision id p = visit env g precision id p := by
  have hid := hlinked id .refl
  obtain ⟨node, hnode⟩ := Graph.exists_node? hid.holds
  rw [visit, visit, hid.node_eq, Graph.node_of_node? hnode]
  cases hc : node.coveredBy? with
  | some c =>
    have hlink : g.CoveredBy id c := (Graph.coveredBy?_of_node? hnode).trans hc
    simp only [hc, visitCovered_eq_of_shared hlinked hlink]
  | none =>
    have hnone : g.coveredBy? id = none := (Graph.coveredBy?_of_node? hnode).trans hc
    have hshared := hchildren hnone
    rw [Graph.children_of_node? hnode] at hshared
    simp only [hc, visitUncovered_eq_of_shared hshared]

/-- A step depends on the nodes that it looks up, and on no others. -/
theorem step_eq_of_shared (h : ∀ s, p.LooksUp g s → g.Shares g' s) :
    step env g' precision p = step env g precision p := by
  rw [step, step]
  cases hpop : p.reached.pop? with
  | none =>
    have hpostponed : ∀ s ∈ p.postponed.toList, g.Shares g' s := fun s hs =>
      h s (.postponed hpop (ExtTreeSet.mem_toList.1 hs))
    simp only [startPass, requeueAll_eq_of_shared hpostponed]
  | some taken =>
    obtain ⟨id, rest⟩ := taken
    exact visit_eq_of_shared (fun s hs => h s (.linked hpop hs))
      fun hnone s hs => h s (.child hpop hnone hs)

/-! ## Nothing else is looked up than what is there -/

theorem Bookkeeping.holds_of_looksUp (hb : Bookkeeping g p) (hg : g.InRange) {s : StateId}
    (h : p.LooksUp g s) : g.Holds s := by
  cases h with
  | postponed _ hs => exact hb.holds s (hb.postponed s hs).1.1
  | linked hpop hlinks =>
    cases hlinks with
    | refl => exact hb.holds s (hb.mem_of_pop? hpop)
    | tail _ hlink => exact hg.covering _ s hlink
  | child _ _ hs => exact hg.children _ s hs

/-- The oracle fails in this way at some time. -/
def Environment.Fails (env : Environment κ σ) (e : Failure Analysis.Error) : Prop :=
  ∃ h, (∃ state claimed, ((env.oracle h).successors state claimed).answer = .error e) ∨
    ∃ a b, ((env.oracle h).covered a b).answer = .error e

/-- A step that gives no verdict was asked to stop, or its oracle failed. -/
theorem error_of_step {e : Failure Error} (hg : g.InRange) (hb : Bookkeeping g p)
    (hm : step env g precision p = .halt q (.error e)) :
    (∃ h reason, env.stop? h = some reason ∧ e = .error (.interrupted ⟨reason⟩)) ∨
      ∃ cause, env.Fails cause ∧ e = cause.mapError Error.ofAnalysis := by
  have hcases := step_cases env g precision p
  rw [hm] at hcases
  generalize houtcome : (Except.error e : Outcome) = outcome at hcases
  cases hcases with
  | again _ _ hstart =>
    obtain ⟨_, _, _, _, _, _, rfl⟩ := startPass_halt hstart
    cases houtcome
  | interrupted _ hstop =>
    cases houtcome
    exact .inl ⟨_, _, hstop, rfl⟩
  | unknown hpop hnode =>
    exact absurd (hb.holds _ (hb.mem_of_pop? hpop)) (Graph.node?_eq_none_iff.1 hnode)
  | astray hl hc _ hf => exact absurd hf (hl.not_astray hg hc)
  | stray hl _ hf => exact absurd hf (hl.not_stray hg)
  | coveringFails ha hfails =>
    cases houtcome
    obtain ⟨_, _, rfl⟩ := ha.replies
    exact .inr ⟨_, ⟨_, .inr ⟨_, _, hfails⟩⟩, rfl⟩
  | successorsFail ha hfails =>
    cases houtcome
    obtain ⟨_, _, rfl⟩ := ha.replies
    exact .inr ⟨_, ⟨_, .inl ⟨_, _, hfails⟩⟩, rfl⟩
  | expand _ _ hall =>
    obtain ⟨_, rfl⟩ := admitAll_halt hall
    cases houtcome
  | _ => cases houtcome

/-- A step of a check looks up nothing outside the tables that it has. -/
structure Contained (env : Environment κ σ) (g : Graph σ) (precision : π)
    (p : Progress κ π) : Prop where
  nodes : ∀ s, p.LooksUp g s → g.Holds s
  /-- No other node of the graph is read. -/
  others : ∀ g' : Graph σ, (∀ s, p.LooksUp g s → g'.node? s = g.node? s) →
    step env g' precision p = step env g precision p
  /-- The walk along the covering links comes to its end, over nodes of the graph. -/
  walks : ∀ id rest, p.reached.pop? = some (id, rest) → ∃ ends, g.coveringEnds id = .ok ends
  entries : ∀ s i, p.reached.index.lookup s = some i → i < p.reached.entries.length
  noFault : ∀ q f, step env g precision p ≠ .halt q (.error (.fault f))

theorem Bookkeeping.contained (hb : Bookkeeping g p) (hg : g.InRange)
    (hreturns : ∀ f, ¬ env.Fails (.fault f)) : Contained env g precision p := by
  have hholds : ∀ s, p.LooksUp g s → g.Holds s := fun s => hb.holds_of_looksUp hg
  constructor
  case nodes => exact hholds
  case others =>
    exact fun g' hsame => step_eq_of_shared fun s hs =>
      Graph.shares_of_holds (hholds s hs) (hsame s hs)
  case walks =>
    exact fun id rest hpop => Graph.exists_coveringEnds hg (hb.holds id (hb.mem_of_pop? hpop))
  case entries => exact fun s i => Reached.lt_length_of_lookup
  case noFault =>
    intro q f hm
    rcases error_of_step hg hb hm with ⟨_, _, _, hother⟩ | ⟨cause, hfails, hcause⟩
    · cases hother
    · cases cause with
      | error e => cases hcause
      | fault f' => exact hreturns f' hfails

theorem Grounded.holds (h : Grounded g p) (hg : g.InRange) {s : StateId} (hs : s ∈ p.reached) :
    g.Holds s := by
  by_cases hroot : s = g.root
  · rw [hroot]
    exact g.holds_root
  · obtain ⟨q, _, _, hchild, _⟩ := h.found s hs hroot
    exact hg.children q s hchild

theorem Through.of_mem {first : Progress κ π} {stages : List (Progress κ π)}
    (h : Through env g precision first stages p) (hq : q ∈ stages) :
    ∃ earlier, Through env g precision first earlier q := by
  induction h with
  | first => cases hq
  | next hthrough _ ih =>
    rcases List.mem_cons.1 hq with rfl | hq
    · exact ⟨_, hthrough⟩
    · exact ih hq

end Steps

/-! ## Whole checks -/

/-- What comes of a check of a graph in which states may claim unknown predecessors. -/
structure Harmless (env : Environment κ σ) (g : Graph σ) (r : Report κ π) : Prop where
  noFault : ∀ f, r.outcome ≠ .error (.fault f)
  reached : ∀ s ∈ r.progress.reached, g.Holds s
  /-- If there is no request to stop and the oracle does not fail, there is a verdict. -/
  decided : (∀ h, env.stop? h = none) → (∀ e, ¬ env.Fails e) → ∃ v, r.outcome = .ok v
  /-- A state that claims an unknown predecessor is not admitted, but for the root. -/
  admitted : ∀ s ∈ r.progress.reached, s ≠ g.root → ∀ u ∈ g.parents s, g.Holds u
  /-- If such a state is offered for admission, the certificate is not valid. -/
  offered : r.outcome = .ok .valid → ∀ s ∈ r.progress.reached, g.coveredBy? s = none →
    ∀ e ∈ g.children s, ∀ u ∈ g.parents e, g.Holds u

section Checks

variable {env : Environment κ σ} {g : Graph σ} {reached : Reached StateId π}

theorem contained_check (hg : g.InRange) (hr : reached.IsFresh g.root)
    (hreturns : ∀ f, ¬ env.Fails (.fault f)) :
    ∃ precision stages last, reached.precision? g.root = some precision ∧
      Course env g precision (.start reached g.root) stages last (check env g reached) ∧
      (∀ p ∈ last :: stages, Contained env g precision p) ∧
      Harmless env g (check env g reached) := by
  obtain ⟨precision, hentries⟩ := hr.exists_entries
  obtain ⟨stages, last, hcourse⟩ := exists_course env g precision (.start reached g.root)
  rw [← check_eq_run env hentries] at hcourse
  have hgrounded : Grounded g (check env g reached).progress := by
    obtain ⟨hsettled, hpaced, -⟩ := hcourse.through.paced hr
    have hlast := grounded_of_step env precision hsettled hpaced
    rwa [hcourse.ends] at hlast
  have hbooks : ∀ p ∈ last :: stages, Bookkeeping g p := by
    intro p hp
    obtain ⟨earlier, hthrough⟩ : ∃ earlier,
        Through env g precision (.start reached g.root) earlier p := by
      rcases List.mem_cons.1 hp with rfl | hp
      · exact ⟨stages, hcourse.through⟩
      · exact hcourse.through.of_mem hp
    exact (hthrough.paced hr).1.books
  have hcontained : ∀ p ∈ last :: stages, Contained env g precision p :=
    fun p hp => (hbooks p hp).contained hg hreturns
  refine ⟨precision, stages, last, ?_, hcourse, hcontained, ?_⟩
  · rw [Reached.precision?_eq_some_iff, hentries]
    exact List.mem_singleton_self _
  constructor
  case noFault =>
    intro f hf
    have hends := hcourse.ends
    rw [hf] at hends
    exact (hcontained last List.mem_cons_self).noFault _ f hends
  case decided =>
    intro hstop hfails
    cases houtcome : (check env g reached).outcome with
    | ok v => exact ⟨v, rfl⟩
    | error e =>
      have hends := hcourse.ends
      rw [houtcome] at hends
      rcases error_of_step hg (hbooks last List.mem_cons_self) hends with
        ⟨h, reason, hreason, -⟩ | ⟨cause, hcause, -⟩
      · cases (hstop h).symm.trans hreason
      · exact absurd hcause (hfails cause)
  case reached => exact fun s => hgrounded.holds hg
  case admitted =>
    exact fun s hs hroot u hu => hgrounded.holds hg (hgrounded.later s hs hroot u hu).1
  case offered =>
    intro hv s hs hu e he u hu'
    have haccepted := accepted_check hr hv
    obtain ⟨hmem, hroot, -⟩ := haccepted.child hs hu he
    have hbooks := haccepted.settled.books
    exact hbooks.holds u (hbooks.explored e hmem hroot u hu').1.1

end Checks

/-- `a` claims an unknown predecessor, the edge to `b` is there twice, and `b` leads back to the
root, which covers it. The state that no edge leads to covers itself. -/
def frayed : Graph ProgramState where
  nodes := #[
    { state := { name := "root" }, children := [1, 2, 2] },
    { state := { name := "a" }, parents := [0, 9] },
    { state := { name := "b" }, parents := [0], children := [0], coveredBy? := some 0 },
    { state := { name := "c" }, parents := [0], coveredBy? := some 3 }]
  nonempty := by decide

/-- Every claim is confirmed, and no state is rejected. -/
def compliant : Environment Unit ProgramState := .steady approving (.rejecting [])

theorem not_fails_compliant (e : Failure Analysis.Error) : ¬ compliant.Fails e := by
  rintro ⟨h, ⟨state, claimed, hanswer⟩ | ⟨a, b, hanswer⟩⟩ <;> cases hanswer

theorem contained_check_frayed :
    frayed.InRange ∧ (Reached.empty.add frayed.root ()).IsFresh frayed.root ∧
      ¬ frayed.Holds 9 ∧ (∀ f, ¬ compliant.Fails (.fault f)) ∧
      (check compliant frayed (Reached.empty.add frayed.root ())).outcome =
        .ok (.invalid (.parentsUnexplored [1])) ∧
      ∃ precision stages last,
        (Reached.empty.add frayed.root ()).precision? frayed.root = some precision ∧
        Course compliant frayed precision
          (.start (Reached.empty.add frayed.root ()) frayed.root) stages last
          (check compliant frayed (Reached.empty.add frayed.root ())) ∧
        (∀ p ∈ last :: stages, Contained compliant frayed precision p) ∧
        Harmless compliant frayed (check compliant frayed (Reached.empty.add frayed.root ())) := by
  have hg : frayed.InRange := by
    refine .of_forall_lt ?_ ?_ <;> decide
  have hr := Reached.isFresh_add_empty frayed.root ()
  exact ⟨hg, hr, by decide, fun f => not_fails_compliant (.fault f), by decide +kernel,
    contained_check hg hr fun f => not_fails_compliant (.fault f)⟩

end Certificate
end StateSpace
