import StateSpace.Proofs.Certificate.Soundness
import StateSpace.Proofs.Domain.Order

/-!
# StateSpace.Proofs.Certificate.Semantics

What a valid certificate says about the states that a transfer function leads to.

The oracle is a domain with a transfer function. The order of the domain is a preorder, and the
transfer function is monotone. Then every state that lies below the root, and everything that the
transfer function leads to from there, lies below the state of some admitted node that is not
covered: `Represented` is kept along a path, since the successors of such a node were confirmed,
and a successor that is covered hands over to the node its covering links lead to.
-/

namespace StateSpace
namespace Certificate

open Relation

variable {κ π σ : Type}

/-- Larger states have larger successors, where both have any. -/
def MonotoneTransfer (d : Domain κ σ) (transfer : σ → Except Analysis.Error (List σ)) : Prop :=
  ∀ a b as bs, d.Below a b → transfer a = .ok as → transfer b = .ok bs →
    ∀ x ∈ as, ∃ y ∈ bs, d.Below x y

/-- What lies below a state with the property has it too. -/
def DownwardClosed (d : Domain κ σ) (property : Property σ) : Prop :=
  ∀ a b, d.Below a b → property b = true → property a = true

def Follows (transfer : σ → Except Analysis.Error (List σ)) (a b : σ) : Prop :=
  ∃ bs, transfer a = .ok bs ∧ b ∈ bs

/-- The state lies below that of an admitted node which is not covered. -/
def Represented (d : Domain κ σ) (g : Graph σ) (p : Progress κ π) (x : σ) : Prop :=
  ∃ s ∈ p.reached, g.coveredBy? s = none ∧ ∃ state, g.state? s = some state ∧ d.Below x state

/-- A domain and a transfer function as the oracle; requests to stop may come at any time. -/
def domainEnvironment (d : Domain κ σ) (transfer : σ → Except Analysis.Error (List σ))
    (property : Property σ) (stop? : History κ → Option String) : Environment κ σ where
  satisfies _ := property
  oracle _ := .ofDomain d transfer
  stop? := stop?

section Oracle

variable {d : Domain κ σ} {transfer : σ → Except Analysis.Error (List σ)} {a b : σ}
  {claimed : List σ}

theorem below_of_covered (h : ((Oracle.ofDomain d transfer).covered a b).answer = .ok true) :
    d.Below a b := Asked.mapError_eq_ok_iff.1 h

theorem exists_of_successors
    (h : ((Oracle.ofDomain d transfer).successors a claimed).answer = .ok true) :
    ∃ computed, transfer a = .ok computed ∧ ∀ y ∈ computed, ∃ z ∈ claimed, d.Below y z := by
  cases hcomputed : transfer a with
  | error e => simp [Oracle.ofDomain, hcomputed, Asked.known] at h
  | ok computed =>
    simp only [Oracle.ofDomain, hcomputed, Asked.mapError_eq_ok_iff, Oracle.sameStates,
      Asked.andThen_eq_ok_iff] at h
    obtain ⟨matched, hmatched, back, _, hboth⟩ := h
    have htrue : matched = true := by
      cases matched with
      | true => rfl
      | false => cases hboth
    subst htrue
    refine ⟨computed, rfl, fun y hy => ?_⟩
    obtain ⟨z, hz, hsame⟩ := Asked.exists_of_any_eq_true (Asked.all_eq_true_iff.1 hmatched y hy)
    exact ⟨z, hz, (Domain.same_eq_true_iff.1 hsame).1⟩

end Oracle

section Paths

variable {d : Domain κ σ} {transfer : σ → Except Analysis.Error (List σ)}
  {property : Property σ} {stop? : History κ → Option String} {g : Graph σ} {precision : π}
  {p : Progress κ π} {s t : StateId} {x y state : σ}

/-- The node that the covering links lead to represents at least as much. -/
theorem below_of_links (hd : d.IsPreorder)
    (h : Certified (domainEnvironment d transfer property stop?) g p) (hs : s ∈ p.reached)
    (hst : ReflTransGen g.CoveredBy s t) (hstate : g.state? s = some state)
    (hx : d.Below x state) : ∃ other, g.state? t = some other ∧ d.Below x other := by
  induction hst with
  | refl => exact ⟨state, hstate, hx⟩
  | tail hsu hlink ih =>
    obtain ⟨lower, hlower, hx⟩ := ih
    obtain ⟨_, a, b, _, _, ha, hb, rfl, hconfirmed⟩ := h.linked _ (h.inside s hs _ hsu) _ hlink
    rw [hlower] at ha
    cases ha
    exact ⟨b, hb, hd.trans hx (below_of_covered hconfirmed)⟩

theorem represented_of_mem (hd : d.IsPreorder)
    (h : Certified (domainEnvironment d transfer property stop?) g p) (hs : s ∈ p.reached)
    (hstate : g.state? s = some state) (hx : d.Below x state) : Represented d g p x := by
  obtain ⟨t, ht, hlinks, hend⟩ := h.ends s hs
  exact ⟨t, ht, hend, below_of_links hd h hs hlinks hstate hx⟩

theorem Represented.follow (hd : d.IsPreorder) (hm : MonotoneTransfer d transfer)
    (h : Certified (domainEnvironment d transfer property stop?) g p)
    (hx : Represented d g p x) (hxy : Follows transfer x y) : Represented d g p y := by
  obtain ⟨s, hs, hend, state, hstate, hbelow⟩ := hx
  obtain ⟨ys, hys, hy⟩ := hxy
  obtain ⟨_, state', claimed, _, _, hstate', hclaimed, rfl, hconfirmed⟩ := h.confirmed s hs hend
  rw [hstate] at hstate'
  cases hstate'
  obtain ⟨computed, hcomputed, habove⟩ := exists_of_successors hconfirmed
  obtain ⟨z, hz, hyz⟩ := hm x state ys computed hbelow hys hcomputed y hy
  obtain ⟨w, hw, hzw⟩ := habove z hz
  obtain ⟨e, he, hstatee⟩ := Graph.exists_of_mem_states hclaimed w hw
  exact represented_of_mem hd h (h.children s hs hend e he).1 hstatee (hd.trans hyz hzw)

theorem Represented.satisfies (hp : DownwardClosed d property)
    (h : Certified (domainEnvironment d transfer property stop?) g p)
    (hx : Represented d g p x) : property x = true := by
  obtain ⟨s, hs, _, state, hstate, hbelow⟩ := hx
  obtain ⟨_, state', _, hstate', hholds⟩ := h.held s hs
  rw [hstate] at hstate'
  cases hstate'
  exact hp x state hbelow hholds

/-- Every path of the transfer function from below the root stays below the admitted nodes of a
valid certificate that are not covered, and every state on it has the property. -/
theorem represented_of_checkGraph_valid (hd : d.IsPreorder) (hm : MonotoneTransfer d transfer)
    (hp : DownwardClosed d property)
    (hv : (checkGraph (domainEnvironment d transfer property stop?) g precision).outcome =
      .ok .valid)
    {root : σ} (hroot : g.state? g.root = some root) {n : Nat} {x : Nat → σ}
    (hstart : d.Below (x 0) root) (hpath : ∀ i < n, Follows transfer (x i) (x (i + 1))) :
    ∀ i ≤ n,
      Represented d g
        (checkGraph (domainEnvironment d transfer property stop?) g precision).progress (x i) ∧
      property (x i) = true := by
  have h := (accepted_check (Reached.isFresh_add_empty g.root precision) hv).certified
  intro i hi
  have hx : Represented d g
      (checkGraph (domainEnvironment d transfer property stop?) g precision).progress (x i) := by
    induction i with
    | zero => exact represented_of_mem hd h h.root hroot hstart
    | succ i ih => exact (ih (by omega)).follow hd hm h (hpath i (by omega))
  exact ⟨hx, hx.satisfies hp h⟩

end Paths

/-- The upper bound rises to one and stays there. -/
def saturate (c : Cell) : Except Analysis.Error (List Cell) := .ok [⟨0, max c.high 1, false⟩]

/-- The second state of `0..1` is covered by the first one. -/
def saturated : Graph Cell where
  nodes := #[
    { state := ⟨0, 0, false⟩, children := [1] },
    { state := ⟨0, 1, false⟩, parents := [0], children := [2] },
    { state := ⟨0, 1, false⟩, parents := [1], coveredBy? := some 1 }]
  nonempty := by decide

def saturating : Environment Unit Cell :=
  domainEnvironment (CellOrder.domain () .interval) saturate (·.high ≤ 1) fun _ => none

theorem represented_of_checkGraph_valid_saturated :
    (checkGraph saturating saturated ()).outcome = .ok .valid ∧
      ∀ i ≤ 3, Represented (CellOrder.domain () .interval) saturated
          (checkGraph saturating saturated ()).progress ⟨0, if i = 0 then 0 else 1, false⟩ ∧
        decide ((if i = 0 then 0 else 1 : Int) ≤ 1) = true := by
  have hm : MonotoneTransfer (CellOrder.domain () .interval) saturate := by
    rintro a b _ _ hab ⟨⟩ ⟨⟩ x hx
    obtain rfl := List.mem_singleton.1 hx
    refine ⟨_, List.mem_cons_self, ?_⟩
    simp only [Domain.Below, CellOrder.domain, Domain.single, CellOrder.below, Except.ok.injEq,
      Bool.and_eq_true, decide_eq_true_eq] at hab ⊢
    omega
  have hp : DownwardClosed (CellOrder.domain () .interval) fun c : Cell => c.high ≤ 1 := by
    intro a b hab hb
    simp only [Domain.Below, CellOrder.domain, Domain.single, CellOrder.below, Except.ok.injEq,
      Bool.and_eq_true, decide_eq_true_eq] at hab hb ⊢
    omega
  have hv : (checkGraph saturating saturated ()).outcome = .ok .valid := by decide +kernel
  refine ⟨hv, represented_of_checkGraph_valid (CellOrder.isPreorder_interval ()) hm hp hv rfl
    (x := fun i => ⟨0, if i = 0 then 0 else 1, false⟩) rfl fun i _ => ⟨_, rfl, ?_⟩⟩
  by_cases hi : i = 0
  · subst hi
    decide
  · simp [hi]

end Certificate
end StateSpace
