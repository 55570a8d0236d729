import StateSpace.Proofs.Certificate.Coherence
import StateSpace.Proofs.Certificate.Rejection
import StateSpace.Proofs.Graph.SameClaims

/-!
# StateSpace.Proofs.Certificate.Reordering

The order in which a certificate lists its edges.

Coherence does not depend on it (`Coherent.of_sameClaims`), so the verdict on an unmixed certificate
does not either. The verdict on a mixed one does: a state is offered for admission only when one of
its predecessors is looked at, and a covered predecessor never offers it. If that one is looked at
last, nobody admits the state, although all of its predecessors were looked at
(`checkGraph_mixed_of_order`).
-/

namespace StateSpace
namespace Certificate

variable {κ π σ : Type}

/-- The answers do not depend on the order of the claimed successors. -/
def Oracle.IgnoresOrder (oracle : Oracle κ σ) : Prop :=
  ∀ state {claimed claimed'}, claimed.Perm claimed' →
    (oracle.successors state claimed).answer = (oracle.successors state claimed').answer

section Reordering

variable {oracle : Oracle κ σ} {property : Property σ} {g g' : Graph σ}

theorem Coherent.of_sameClaims (h : Coherent oracle property g) (hs : g.SameClaims g')
    (ho : oracle.IgnoresOrder) (hp : g.Paired) (hp' : g'.Paired) (hu : g.Unrepeated)
    (hu' : g'.Unrepeated) : Coherent oracle property g' := by
  have hoffered : ∀ {s}, g'.Offered s → g.Offered s := by
    intro s hoffer
    rwa [hs.offered_eq]
  constructor
  case acyclic => exact hs.acyclicOffers h.acyclic
  case parents =>
    intro s hoffer hroot q hq
    have hedge : s ∈ g'.children q := (hp'.symm q s).1 hq
    have hparent : q ∈ g.parents s := (hp.symm q s).2 ((hs.children q s).2 hedge)
    rw [← hs.offered_eq]
    exact h.parents s (hoffered hoffer) hroot q hparent
  case held =>
    intro s hoffer
    rw [← hs.state?]
    exact h.held s (hoffered hoffer)
  case expanded =>
    intro s hoffer hnone
    rw [← hs.coveredBy?] at hnone
    obtain ⟨state, claimed, hstate, hclaimed, hanswer⟩ := h.expanded s (hoffered hoffer) hnone
    obtain ⟨claimed', hclaimed', hperm⟩ := hs.exists_states hu hu' hp'.inRange hclaimed
    refine ⟨state, claimed', (hs.state? s).symm.trans hstate, hclaimed', ?_⟩
    rw [← ho state hperm]
    exact hanswer
  case covered =>
    intro s hoffer c hlink
    rw [← hs.coveredBy_eq] at hlink
    rw [← hs.offered_eq, ← hs.leadsTo_eq, ← hs.state?, ← hs.state?]
    exact h.covered s (hoffered hoffer) c hlink

theorem coherent_iff_of_sameClaims (hs : g.SameClaims g') (ho : oracle.IgnoresOrder)
    (hp : g.Paired) (hp' : g'.Paired) (hu : g.Unrepeated) (hu' : g'.Unrepeated) :
    Coherent oracle property g ↔ Coherent oracle property g' :=
  ⟨fun h => h.of_sameClaims hs ho hp hp' hu hu', fun h => h.of_sameClaims hs.symm ho hp' hp hu' hu⟩

variable {root root' : σ} {steps steps' : List (BuildStep σ)} {precision precision' : π}

/-- The verdict on an unmixed certificate does not depend on the order of its edges. -/
theorem checkGraph_valid_iff_of_sameClaims (hsteps : ∀ step ∈ steps, step.isPaired)
    (hsteps' : ∀ step ∈ steps', step.isPaired) (hb : Graph.build root steps = .ok g)
    (hb' : Graph.build root' steps' = .ok g') (hs : g.SameClaims g') (hm : g.Unmixed)
    (ho : oracle.IgnoresOrder) :
    (checkGraph (.steady oracle property) g precision).outcome = .ok .valid ↔
      (checkGraph (.steady oracle property) g' precision').outcome = .ok .valid := by
  have hp : g.Paired := Graph.paired_of_build hsteps hb
  have hp' : g'.Paired := Graph.paired_of_build hsteps' hb'
  have hu : g.Unrepeated := Graph.unrepeated_of_build hsteps hb
  have hu' : g'.Unrepeated := Graph.unrepeated_of_build hsteps' hb'
  rw [checkGraph_valid_iff_coherent hp hm, checkGraph_valid_iff_coherent hp' (hs.unmixed hm)]
  exact coherent_iff_of_sameClaims hs ho hp hp' hu hu'

end Reordering

theorem Table.ignoresOrder (t : Table) : (t.oracle : Oracle κ ProgramState).IgnoresOrder := by
  intro state claimed claimed' hperm
  have hnames : (claimed.map (·.name)).Perm (claimed'.map (·.name)) := hperm.map _
  have hsame : t.confirmsSuccessors state.name (claimed.map (·.name)) =
      t.confirmsSuccessors state.name (claimed'.map (·.name)) := by
    unfold Table.confirmsSuccessors
    split
    · rename_i names _
      rw [Bool.eq_iff_iff, List.isPerm_iff, List.isPerm_iff]
      exact ⟨hnames.symm.trans, hnames.trans⟩
    · rfl
  simp only [Table.oracle, hsame]

/-- `r` is covered by `l`, and claims `x` nevertheless. -/
def parting (order : List StateId) : List (BuildStep ProgramState) :=
  [.state { name := "l" }, .state { name := "r" }, .state { name := "m" },
    .state { name := "x" }] ++ order.map (.edge 0) ++ [.edge 1 3, .edge 2 4, .cover 2 1]

def parted (order : List StateId) : Graph ProgramState where
  nodes := #[
    { state := { name := "root" }, children := order },
    { state := { name := "l" }, parents := [0], children := [3] },
    { state := { name := "r" }, parents := [0], children := [4], coveredBy? := some 1 },
    { state := { name := "m" }, parents := [1] },
    { state := { name := "x" }, parents := [2] }]
  nonempty := Nat.zero_lt_succ _

def partedTable : Table where
  successors := [("root", ["l", "r"]), ("l", ["m"]), ("m", [])]

theorem checkGraph_valid_iff_of_sameClaims_parted :
    Graph.build { name := "root" } (parting [1, 2]) = .ok (parted [1, 2]) ∧
      Graph.build { name := "root" } (parting [2, 1]) = .ok (parted [2, 1]) ∧
      (parted [1, 2]).SameClaims (parted [2, 1]) ∧ (parted [1, 2]).Unmixed ∧
      ((checkGraph (.steady (partedTable.oracle : Oracle Unit _) (.rejecting []))
          (parted [1, 2]) ()).outcome = .ok .valid ↔
        (checkGraph (.steady (partedTable.oracle : Oracle Unit _) (.rejecting []))
          (parted [2, 1]) ()).outcome = .ok .valid) := by
  have hb : Graph.build { name := "root" } (parting [1, 2]) = .ok (parted [1, 2]) := rfl
  have hb' : Graph.build { name := "root" } (parting [2, 1]) = .ok (parted [2, 1]) := rfl
  have hs : (parted [1, 2]).SameClaims (parted [2, 1]) := by
    refine .of_forall_lt rfl ?_ ?_ ?_ <;> decide
  have hm : (parted [1, 2]).Unmixed := by
    have hall : ∀ a < 5, ∀ b < 5, ∀ e ∈ (parted [1, 2]).children a,
        e ∈ (parted [1, 2]).children b → (parted [1, 2]).coveredBy? a = none →
          (parted [1, 2]).coveredBy? b = none := by decide
    intro a b e _ _ ha hb hnone
    exact hall a (Graph.holds_of_mem_children ha) b (Graph.holds_of_mem_children hb) e ha hb hnone
  exact ⟨hb, hb', hs, hm, checkGraph_valid_iff_of_sameClaims (by decide) (by decide) hb hb' hs hm
    partedTable.ignoresOrder⟩

/-! ## Mixed certificates -/

def mixing (order : List StateId) : List (BuildStep ProgramState) :=
  [.state { name := "l" }, .state { name := "r" }, .state { name := "m" }] ++
    order.map (.edge 0) ++ [.edge 1 3, .edge 2 3, .cover 2 1]

/-- If `r` is looked at last, `m` is never admitted. -/
theorem checkGraph_mixed_of_order :
    Graph.build { name := "root" } (mixing [1, 2]) = .ok (mixed [1, 2]) ∧
      Graph.build { name := "root" } (mixing [2, 1]) = .ok (mixed [2, 1]) ∧
      (∀ step ∈ mixing [1, 2] ++ mixing [2, 1], step.isPaired) ∧
      (mixed [1, 2]).SameClaims (mixed [2, 1]) ∧
      (partedTable.oracle : Oracle Unit _).IgnoresOrder ∧
      (∀ state claimed, ∃ answer,
        ((partedTable.oracle : Oracle Unit _).successors state claimed).answer = .ok answer) ∧
      (∀ a b, ∃ answer,
        ((partedTable.oracle : Oracle Unit _).covered a b).answer = .ok answer) ∧
      (checkGraph (.steady (partedTable.oracle : Oracle Unit _) (.rejecting []))
        (mixed [2, 1]) ()).outcome = .ok .valid ∧
      (checkGraph (.steady (partedTable.oracle : Oracle Unit _) (.rejecting []))
        (mixed [1, 2]) ()).outcome = .ok (.invalid (.parentsUnexplored [3])) := by
  refine ⟨rfl, rfl, by decide, ?_, partedTable.ignoresOrder, fun _ _ => ⟨_, rfl⟩,
    fun _ _ => ⟨_, rfl⟩, by decide +kernel, by decide +kernel⟩
  refine .of_forall_lt rfl ?_ ?_ ?_ <;> decide

end Certificate
end StateSpace
