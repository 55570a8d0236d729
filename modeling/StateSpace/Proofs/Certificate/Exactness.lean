import StateSpace.Proofs.Certificate.Coherence

/-!
# StateSpace.Proofs.Certificate.Exactness

Which certificates are valid, for an oracle that never fails.

* `Genuine`: what a certificate says is true, and its edges can be explored from the root. This
  does not mention the check.
* `Childless`: covered states claim no successors. Then all edges are offers, and the genuine
  certificates are the coherent ones.
-/

namespace StateSpace
namespace Certificate

open Relation Std

variable {κ π σ : Type}

structure Genuine (oracle : Oracle κ σ) (property : Property σ) (g : Graph σ) : Prop where
  acyclic : g.Acyclic
  parents : ∀ s, g.Explorable s → s ≠ g.root → ∀ q ∈ g.parents s, g.Explorable q
  held : ∀ s, g.Explorable s → ∃ state, g.state? s = some state ∧ property state = true
  expanded : ∀ s, g.Explorable s → g.coveredBy? s = none →
    ∃ state claimed, g.state? s = some state ∧ g.states (g.children s) = .ok claimed ∧
      (oracle.successors state claimed).answer = .ok true
  covered : ∀ s, g.Explorable s → ∀ c, g.CoveredBy s c →
    g.Explorable c ∧ (∃ t, g.LeadsTo s t) ∧
      ∃ lower upper, g.state? s = some lower ∧ g.state? c = some upper ∧
        (oracle.covered lower upper).answer = .ok true

def Childless (g : Graph σ) : Prop := ∀ s c, g.CoveredBy s c → g.children s = []

section Explored

variable {env : Environment κ σ} {oracle : Oracle κ σ} {property : Property σ} {g : Graph σ}
  {precision : π} {p q : Progress κ π} {s e : StateId}

theorem Childless.uncovered (h : Childless g) (he : e ∈ g.children s) : g.coveredBy? s = none := by
  cases hc : g.coveredBy? s with
  | none => rfl
  | some c =>
    rw [h s c hc] at he
    exact absurd he List.not_mem_nil

theorem Childless.edge_eq (h : Childless g) : g.Edge = g.Offers := by
  funext s e
  exact propext ⟨fun he => ⟨h.uncovered he, he⟩, fun he => he.2⟩

theorem Childless.explorable_eq (h : Childless g) : g.Explorable = g.Offered := by
  unfold Graph.Explorable Graph.Offered
  rw [h.edge_eq]

theorem Childless.unmixed (h : Childless g) : g.Unmixed :=
  fun _ _ _ _ _ _ he _ => h.uncovered he

/-- Where covered states claim no successors, all edges are offers. -/
theorem Childless.genuine_iff_coherent (h : Childless g) :
    Genuine oracle property g ↔ Coherent oracle property g := by
  have hacyclic : g.Acyclic ↔ g.AcyclicOffers := by
    unfold Graph.Acyclic Graph.AcyclicOffers
    rw [h.explorable_eq, h.edge_eq]
  have hexplorable : g.Explorable = g.Offered := h.explorable_eq
  constructor
  · rintro ⟨hedges, hparents, hheld, hexpanded, hcovered⟩
    rw [hexplorable] at hparents hheld hexpanded hcovered
    exact ⟨hacyclic.1 hedges, hparents, hheld, hexpanded, hcovered⟩
  · rintro ⟨hoffers, hparents, hheld, hexpanded, hcovered⟩
    rw [← hexplorable] at hparents hheld hexpanded hcovered
    exact ⟨hacyclic.2 hoffers, hparents, hheld, hexpanded, hcovered⟩

theorem Accepted.genuine (h : Accepted (.steady oracle property) g p) (hc : Childless g) :
    Genuine oracle property g :=
  hc.genuine_iff_coherent.2 h.coherent

theorem Genuine.eq_valid_of_halt {outcome : Outcome} (hg : Genuine oracle property g)
    (hp : g.Paired) (hc : Childless g) (h : Settled (.steady oracle property) g p)
    (hm : step (.steady oracle property) g precision p = .halt q outcome) :
    outcome = .ok .valid :=
  (hc.genuine_iff_coherent.1 hg).eq_valid_of_halt hp hc.unmixed h hm

/-- The certificates that the check finds valid are the genuine ones. This needs no promise of the
oracle to answer: a question that it fails on is not confirmed either. -/
theorem checkGraph_valid_iff_genuine {root : σ} {steps : List (BuildStep σ)}
    (hsteps : ∀ step ∈ steps, step.isPaired) (hb : Graph.build root steps = .ok g)
    (hc : Childless g) :
    (checkGraph (.steady oracle property) g precision).outcome = .ok .valid ↔
      Genuine oracle property g := by
  have hp : g.Paired := Graph.paired_of_build hsteps hb
  have hr := Reached.isFresh_add_empty g.root precision
  constructor
  · intro hv
    exact (accepted_check hr hv).genuine hc
  · intro hg
    obtain ⟨_, _, hsettled, hm⟩ := settled_check (.steady oracle property) hr
    exact hg.eq_valid_of_halt hp hc hsettled hm

end Explored

/-- Two ways lead to `m`, whose successor is covered by one of them. -/
def merging : List (BuildStep ProgramState) :=
  [.child 0 { name := "l" }, .child 0 { name := "r" }, .child 1 { name := "m" }, .edge 2 3,
    .child 3 { name := "c" }, .cover 4 2]

def merged : Graph ProgramState where
  nodes := #[
    { state := { name := "root" }, children := [1, 2] },
    { state := { name := "l" }, parents := [0], children := [3] },
    { state := { name := "r" }, parents := [0], children := [3] },
    { state := { name := "m" }, parents := [1, 2], children := [4] },
    { state := { name := "c" }, parents := [3], coveredBy? := some 2 }]
  nonempty := by decide

def mergedTable : Table where
  successors := [("root", ["l", "r"]), ("l", ["m"]), ("r", ["m"]), ("m", ["c"])]
  uncovered := [("c", "l")]

theorem checkGraph_valid_iff_genuine_merged :
    Graph.build { name := "root" } merging = .ok merged ∧ Childless merged ∧
      Genuine (mergedTable.oracle : Oracle Unit _) (.rejecting ["error"]) merged := by
  have hb : Graph.build { name := "root" } merging = .ok merged := rfl
  have hc : Childless merged := by
    have hall : ∀ s < 5, (merged.coveredBy? s).isSome → merged.children s = [] := by decide
    intro s c hlink
    refine hall s (Graph.holds_of_coveredBy? hlink) ?_
    rw [hlink]
    rfl
  have hv : (checkGraph (.steady (mergedTable.oracle : Oracle Unit _) (.rejecting ["error"]))
      merged ()).outcome = .ok .valid := by decide +kernel
  exact ⟨hb, hc, (checkGraph_valid_iff_genuine (by decide) hb hc).1 hv⟩

end Certificate
end StateSpace
