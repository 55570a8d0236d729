import StateSpace.Certificate.Table
import StateSpace.Proofs.Certificate.Examined
import StateSpace.Proofs.Certificate.Records

/-!
# StateSpace.Proofs.Certificate.Soundness

What a valid certificate shows, for any oracle and any property.

* `Accepted`: the progress in which a check ends with a valid certificate. Nothing waits, nothing
  is postponed and nothing is blocked, so every admitted state is examined for good.
* `Certified`: what then holds of the admitted states: they are closed under confirmed successors
  and under confirmed covering links, and the links end among them.
-/

namespace StateSpace
namespace Certificate

open Relation Std

variable {κ π σ : Type}

instance (outcome : Outcome) : Decidable (outcome = .ok .valid) :=
  match outcome with
  | .ok .valid => isTrue rfl
  | .ok (.invalid _) => isFalse fun h => by cases h
  | .error _ => isFalse fun h => by cases h

structure Accepted (env : Environment κ σ) (g : Graph σ) (p : Progress κ π) : Prop where
  settled : Settled env g p
  idle : p.reached.waitlist = []
  noPostponed : ∀ s, s ∉ p.postponed
  noBlocked : ∀ e, e ∉ p.blocked

structure Certified (env : Environment κ σ) (g : Graph σ) (p : Progress κ π) : Prop where
  root : g.root ∈ p.reached
  held : ∀ s ∈ p.reached, PropertyHeld env g p.history s
  linked : ∀ s ∈ p.reached, ∀ c, g.CoveredBy s c → CoveringConfirmed env g p.history s c
  inside : ∀ s ∈ p.reached, ∀ t, ReflTransGen g.CoveredBy s t → t ∈ p.reached
  ends : ∀ s ∈ p.reached, ∃ t ∈ p.reached, g.LeadsTo s t
  confirmed : ∀ s ∈ p.reached, g.coveredBy? s = none → SuccessorsConfirmed env g p.history s
  children : ∀ s ∈ p.reached, g.coveredBy? s = none →
    ∀ e ∈ g.children s, e ∈ p.reached ∧ s ∈ g.parents e

section Valid

variable {env : Environment κ σ} {g : Graph σ} {precision : π} {p p' : Progress κ π}
  {reached : Reached StateId π}

/-- A step finds the certificate valid only when no work is left. -/
theorem accepted_of_step (h : Settled env g p)
    (hm : step env g precision p = .halt p' (.ok .valid)) : Accepted env g p' := by
  obtain ⟨rfl, hpop, hpost, hblocked⟩ := finish_of_valid hm
  refine ⟨h, Reached.waitlist_of_pop?_none hpop, fun s hs => ?_, fun e he => ?_⟩
  · rw [ExtTreeSet.isEmpty_iff.1 hpost] at hs
    exact ExtTreeSet.not_mem_empty hs
  · rw [ExtTreeSet.isEmpty_iff.1 hblocked] at he
    exact ExtTreeSet.not_mem_empty he

/-- A check that starts at the root ends with a step from a settled progress. -/
theorem settled_check (env : Environment κ σ) (hr : reached.IsFresh g.root) :
    ∃ precision q, Settled env g q ∧ step env g precision q =
      .halt (check env g reached).progress (check env g reached).outcome := by
  obtain ⟨precision, hcheck⟩ := exists_check_eq_run env hr
  rw [hcheck]
  exact ⟨precision, run_of_preserved (fun _ _ h hm => h.step hm) (.start hr)⟩

theorem accepted_check (hr : reached.IsFresh g.root)
    (hv : (check env g reached).outcome = .ok .valid) :
    Accepted env g (check env g reached).progress := by
  obtain ⟨precision, q, hq, hm⟩ := settled_check env hr
  rw [hv] at hm
  exact accepted_of_step hq hm

namespace Accepted

theorem examined (h : Accepted env g p) {s : StateId} (hs : s ∈ p.reached) :
    Examined env g p s := h.settled.examined s (h.settled.books.seen_of_idle h.idle hs)

theorem link (h : Accepted env g p) {s c : StateId} (hs : s ∈ p.reached)
    (hc : g.CoveredBy s c) :
    c ∈ p.reached ∧ (∃ t, g.LeadsTo s t) ∧ CoveringConfirmed env g p.history s c := by
  rcases (h.examined hs).covered c hc with hp | hw | hlink
  · exact absurd hp (h.noPostponed s)
  · rw [h.idle] at hw
    exact absurd hw List.not_mem_nil
  · exact hlink

theorem inside (h : Accepted env g p) {s t : StateId} (hs : s ∈ p.reached)
    (hst : ReflTransGen g.CoveredBy s t) : t ∈ p.reached := by
  induction hst with
  | refl => exact hs
  | tail _ hlink ih => exact (h.link ih hlink).1

theorem child (h : Accepted env g p) {s e : StateId} (hs : s ∈ p.reached)
    (hu : g.coveredBy? s = none) (he : e ∈ g.children s) :
    e ∈ p.reached ∧ e ≠ g.root ∧ s ∈ g.parents e := by
  obtain ⟨hparent, hb | ⟨hr, hne⟩⟩ := ((h.examined hs).expanded hu).2 e he
  · exact absurd hb (h.noBlocked e)
  · exact ⟨hr, hne, hparent⟩

theorem certified (h : Accepted env g p) : Certified env g p where
  root := h.settled.books.root_mem
  held _ hs := (h.examined hs).held
  linked _ hs _ hc := (h.link hs hc).2.2
  inside _ hs _ hst := h.inside hs hst
  ends s hs := by
    cases hc : g.coveredBy? s with
    | none => exact ⟨s, hs, .here hc⟩
    | some c =>
      obtain ⟨t, ht⟩ := (h.link hs hc).2.1
      exact ⟨t, h.inside hs ht.1, ht⟩
  confirmed _ hs hu := ((h.examined hs).expanded hu).1
  children _ hs hu e he := ⟨(h.child hs hu he).1, (h.child hs hu he).2.2⟩

end Accepted

/-- A valid certificate is closed under confirmed successors and confirmed covering links. -/
theorem certified_of_check_valid (hr : reached.IsFresh g.root)
    (hv : (check env g reached).outcome = .ok .valid) :
    Certified env g (check env g reached).progress :=
  (accepted_check hr hv).certified

end Valid

/-- `s` is looked at before `c`, which covers it, is found; `x` records the edge to `c` twice. -/
def postponing : Graph ProgramState where
  nodes := #[
    { state := { name := "root" }, children := [1, 2] },
    { state := { name := "s" }, parents := [0], coveredBy? := some 3 },
    { state := { name := "x" }, parents := [0], children := [3, 3] },
    { state := { name := "c" }, parents := [2] }]
  nonempty := by decide

/-- The oracle agrees with `postponing`, and the property rejects no state of it. -/
def agreeing : Environment Unit ProgramState :=
  .steady (Table.oracle { successors := [("root", ["s", "x"]), ("x", ["c", "c"]), ("c", [])] })
    (.rejecting ["error"])

theorem certified_of_check_valid_postponing :
    (Reached.empty.add postponing.root ()).IsFresh postponing.root ∧
      (check agreeing postponing (Reached.empty.add postponing.root ())).outcome = .ok .valid ∧
      Certified agreeing postponing
        (check agreeing postponing (Reached.empty.add postponing.root ())).progress := by
  have hr := Reached.isFresh_add_empty postponing.root ()
  have hv : (check agreeing postponing (Reached.empty.add postponing.root ())).outcome =
      .ok .valid := by decide +kernel
  exact ⟨hr, hv, certified_of_check_valid hr hv⟩

end Certificate
end StateSpace
