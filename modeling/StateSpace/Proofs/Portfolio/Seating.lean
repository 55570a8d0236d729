import Mathlib.Data.List.Forall2
import StateSpace.Portfolio.Setup
import StateSpace.Proofs.Portfolio.Race

/-!
# StateSpace.Proofs.Portfolio.Seating

What comes of one reference when the analyses of a portfolio are set up.

* `Race.exists_replay?_setUp`, `Staffed`: the race after all analyses were set up. Only those whose
  set-up did not fail get somebody to work on them.
* `Setting.Refused`, `Setting.Ordered`: what can be wrong with a reference before its analysis is
  built, and what is known about it otherwise. There is no third way (`ordered_or_refused`), unless
  a rule is broken.
* `Setting.Seated`: what comes of a reference at a position. Up to the number of its slot
  (`Seat.unnumbered`) there is one seat only that fits (`Seated.unnumbered_eq`).
-/

namespace StateSpace
namespace Portfolio

open Invariant

variable {τ κ σ π φ : Type}

/-! ## Setting up in a race -/

namespace Race

variable {ρ : Type} {r : Race ρ}

/-- How far an analysis has come right after it was set up. -/
def SetUp.stage : SetUp → Stage
  | .skipped _ => .absent
  | .started => .running
  | .refused _ => .absent

theorem runners_setUp (started : Nat) (outcome : SetUp) :
    (r.setUp started outcome).runners = (r.enter outcome.stage).runners := by
  cases outcome <;> rfl

theorem total_setUp (started : Nat) (outcome : SetUp) :
    (r.setUp started outcome).total = r.total := by
  cases outcome <;> rfl

theorem phase_setUp {started : Nat} (h : r.phase = .settingUp started) (outcome : SetUp) :
    (r.setUp started outcome).phase = .settingUp (started + [outcome].count .started) := by
  cases outcome with
  | skipped e => exact h
  | started => rfl
  | refused text => exact h

theorem step?_setUp {started : Nat} (h : r.phase = .settingUp started)
    (hlt : r.runners.length < r.total) (outcome : SetUp) :
    r.step? (.setUp outcome) = some (r.setUp started outcome) := by
  simp [step?, h, hlt]

/-- There is room for everybody, and each analysis is where its set-up has left it. -/
theorem exists_replay?_setUp {started : Nat} (h : r.phase = .settingUp started)
    (outcomes : List SetUp) (hroom : r.runners.length + outcomes.length ≤ r.total) :
    ∃ r', r.replay? (outcomes.map .setUp) = some r' ∧
      r'.phase = .settingUp (started + outcomes.count .started) ∧
      r'.runners.map (·.stage) = r.runners.map (·.stage) ++ outcomes.map SetUp.stage := by
  induction outcomes generalizing r started with
  | nil => exact ⟨r, rfl, h, (List.append_nil _).symm⟩
  | cons outcome rest ih =>
    rw [List.length_cons] at hroom
    have hstep := step?_setUp h (by omega) outcome
    have hrunners : (r.setUp started outcome).runners.length = r.runners.length + 1 := by
      rw [runners_setUp]
      simp [enter]
    obtain ⟨r', hreplay, hphase, hstages⟩ := ih (phase_setUp h outcome) (by
      rw [hrunners, total_setUp]
      omega)
    refine ⟨r', ?_, ?_, ?_⟩
    · rw [List.map_cons, replay?, hstep]
      exact hreplay
    · rw [hphase, Nat.add_assoc, ← List.count_append, List.singleton_append]
    · rw [hstages, runners_setUp]
      simp [enter]

end Race

/-! ## Seats -/

namespace Seat

def slot? (s : Seat τ σ π) : Option SlotId := s.result.toOption.bind (·.slot?)

/-- The seat without the number of its slot. That number tells how many slots there were before. -/
def unnumbered (s : Seat τ σ π) : Seat τ σ π :=
  { s with result := s.result.map fun e => { e with slot? := e.slot?.map fun _ => 0 } }

/-- What the set-up of an analysis can come to in the race: an analysis that failed is skipped, and
any other is started, unless there is nobody to do the work. -/
inductive Allows (s : Seat τ σ π) : Race.SetUp → Prop where
  | skipped {e : Analysis.Error} : s.result = .error e → Allows s (.skipped e)
  | started {e : Entrant τ σ π} : s.result = .ok e → Allows s .started
  | refused {e : Entrant τ σ π} (text : String) : s.result = .ok e → Allows s (.refused text)

theorem Allows.stage_of_error {s : Seat τ σ π} {outcome : Race.SetUp} {e : Analysis.Error}
    (h : s.Allows outcome) (he : s.result = .error e) : outcome.stage = .absent := by
  cases h with
  | skipped _ => rfl
  | started hok => cases hok.symm.trans he
  | refused text _ => rfl

theorem allows_outcome (s : Seat τ σ π) : s.Allows s.outcome := by
  unfold outcome
  split
  · rename_i e h
    exact .started h
  · rename_i e h
    exact .skipped h

end Seat

/-- The race after all set-ups, of which each has come to something that its seat allows. -/
structure Staffed {ρ : Type} (seats : List (Seat τ σ π)) (outcomes : List Race.SetUp)
    (race : Race ρ) : Prop where
  started : race.phase = .settingUp (outcomes.count .started)
  running : ∀ i, race.stage? i = some .running ↔ outcomes[i]? = some .started
  idle : ∀ i seat e, seats[i]? = some seat → seat.result = .error e →
    race.stage? i = some .absent

theorem exists_staffed {ρ : Type} {seats : List (Seat τ σ π)} {outcomes : List Race.SetUp}
    (h : List.Forall₂ Seat.Allows seats outcomes) (scopes : Scopes) (caller : ScopeId) :
    ∃ race : Race ρ, (Race.start scopes caller seats.length).replay? (outcomes.map .setUp) =
      some race ∧ Staffed seats outcomes race := by
  have hlength := h.length_eq
  obtain ⟨race, hreplay, hphase, hstages⟩ := Race.exists_replay?_setUp
    (r := (Race.start scopes caller seats.length : Race ρ)) rfl outcomes
    (by simp [Race.start, hlength])
  have hstage : ∀ i, race.stage? i = outcomes[i]?.map Race.SetUp.stage := by
    intro i
    rw [Race.stage?, ← List.getElem?_map, hstages, ← List.getElem?_map]
    rfl
  refine ⟨race, hreplay, ⟨?_, ?_, ?_⟩⟩
  · rw [hphase, Nat.zero_add]
  · intro i
    rw [hstage]
    cases outcomes[i]? with
    | none => simp
    | some outcome => cases outcome <;> simp [Race.SetUp.stage]
  · intro i seat e hseat herror
    obtain ⟨hlt, rfl⟩ := List.getElem?_eq_some_iff.1 hseat
    have hallows := h.get hlt (hlength ▸ hlt)
    rw [hstage, List.getElem?_eq_getElem (hlength ▸ hlt), Option.map_some]
    exact congrArg some (hallows.stage_of_error herror)

/-- The outcomes that the seats stand for are among those that they allow. -/
theorem exists_staffed_outcome {ρ : Type} (seats : List (Seat τ σ π)) (scopes : Scopes)
    (caller : ScopeId) :
    ∃ race : Race ρ, (Race.start scopes caller seats.length).replay?
        ((seats.map Seat.outcome).map .setUp) = some race ∧
      Staffed seats (seats.map Seat.outcome) race :=
  exists_staffed (List.forall₂_map_right_iff.2
    (List.forall₂_same.2 fun seat _ => seat.allows_outcome)) scopes caller

namespace Setting

variable {x : Setting τ κ σ π φ}

/-! ## One reference -/

/-- Why no order comes of a reference: it cannot be understood, its file cannot be used, or the
limit that the file sets is no limit. -/
inductive Refused (x : Setting τ κ σ π φ) (reference : String) : Configuration.Error → Prop where
  | reading {e : Configuration.Error} : Reference.read reference = .error e → Refused x reference e
  | loading {r : Reference} {e : Configuration.Error} : Reference.read reference = .ok r →
      instanceConfiguration x.files x.base r = .error e → Refused x reference e
  | limiting {r : Reference} {c : Configuration} {e : Configuration.Error} :
      Reference.read reference = .ok r → instanceConfiguration x.files x.base r = .ok c →
      WallLimit.ofConfiguration c = .error (.error e) → Refused x reference e

structure Ordered (x : Setting τ κ σ π φ) (reference : String) (o : Order) : Prop where
  read : Reference.read reference = .ok o.reference
  configured : instanceConfiguration x.files x.base o.reference = .ok o.configuration
  limited : WallLimit.ofConfiguration o.configuration = .ok o.limit?

theorem order_of_ordered {reference : String} {o : Order} (h : x.Ordered reference o) :
    x.order reference = .ok o := by
  simp [order, h.read, h.configured, h.limited]

theorem order_of_refused {reference : String} {e : Configuration.Error}
    (h : x.Refused reference e) :
    x.order reference = .error (.error (.configuration e)) := by
  cases h with
  | reading hread => simp [order, hread]
  | loading hread hload => simp [order, hread, hload]
  | limiting hread hload hlimit => simp [order, hread, hload, hlimit, Failure.mapError]

/-- No rule is broken when the reference is looked at. -/
def Tolerates (x : Setting τ κ σ π φ) (reference : String) : Prop :=
  ∀ fault, x.order reference ≠ .error (.fault fault)

instance (x : Setting τ κ σ π φ) (reference : String) : Decidable (x.Tolerates reference) :=
  match h : x.order reference with
  | .error (.fault fault) => .isFalse fun hsafe => hsafe fault h
  | .error (.error _) => .isTrue fun _ hfault => by cases h.symm.trans hfault
  | .ok _ => .isTrue fun _ hfault => by cases h.symm.trans hfault

theorem ordered_or_refused {reference : String} (hsafe : x.Tolerates reference) :
    (∃ o, x.Ordered reference o) ∨ ∃ e, x.Refused reference e := by
  cases hread : Reference.read reference with
  | error e => exact .inr ⟨e, .reading hread⟩
  | ok r =>
    cases hload : instanceConfiguration x.files x.base r with
    | error e => exact .inr ⟨e, .loading hread hload⟩
    | ok c =>
      cases hlimit : WallLimit.ofConfiguration c with
      | error e =>
        cases e with
        | error e => exact .inr ⟨e, .limiting hread hload hlimit⟩
        | fault f =>
          exact absurd (by simp [order, hread, hload, hlimit, Failure.mapError]) (hsafe f)
      | ok limit? => exact .inl ⟨⟨r, c, limit?⟩, hread, hload, hlimit⟩

variable [DecidableEq σ]

/-- What comes of a reference at a position: it is refused, or the factory fails, or an analysis is
built. A slot of its own is for the analysis that is tagged to publish, whatever its number. -/
inductive Seated (x : Setting τ κ σ π φ) (position : Nat) (reference : String) :
    Seat τ σ π → Prop where
  | refused {e : Configuration.Error} : x.Refused reference e →
      Seated x position reference ⟨none, .error (.configuration e)⟩
  | unbuilt {o : Order} {e : Analysis.Error} : x.Ordered reference o →
      x.factory.create o.configuration x.entry = .error e →
      Seated x position reference ⟨some o.configuration, .error e⟩
  | built {o : Order} {c : Components τ σ π} {slot? : Option SlotId} : x.Ordered reference o →
      x.factory.create o.configuration x.entry = .ok c →
      (slot?.isSome = true ↔ o.reference.role = .reachedSetSupplier) →
      Seated x position reference
        ⟨some o.configuration, .ok {
          position
          name := nameOf position
          analysis := c.analysis
          configuration := o.configuration
          limit? := o.limit?
          reads? := if c.consumes then some x.pool else none
          slot?
          start := Reached.empty.add c.state c.precision }⟩

namespace Seated

variable {position : Nat} {reference : String} {s t : Seat τ σ π}

theorem unnumbered_eq (hs : x.Seated position reference s) (ht : x.Seated position reference t) :
    s.unnumbered = t.unnumbered := by
  cases hs with
  | refused he =>
    have horder := order_of_refused he
    cases ht with
    | refused he' =>
      rw [order_of_refused he'] at horder
      cases horder
      rfl
    | unbuilt ho _ => cases (order_of_ordered ho).symm.trans horder
    | built ho _ _ => cases (order_of_ordered ho).symm.trans horder
  | unbuilt ho hcreate =>
    have horder := order_of_ordered ho
    cases ht with
    | refused he => cases (order_of_refused he).symm.trans horder
    | unbuilt ho' hcreate' =>
      cases (order_of_ordered ho').symm.trans horder
      cases hcreate'.symm.trans hcreate
      rfl
    | built ho' hcreate' _ =>
      cases (order_of_ordered ho').symm.trans horder
      cases hcreate'.symm.trans hcreate
  | @built o c slot? ho hcreate hslot =>
    have horder := order_of_ordered ho
    cases ht with
    | refused he => cases (order_of_refused he).symm.trans horder
    | unbuilt ho' hcreate' =>
      cases (order_of_ordered ho').symm.trans horder
      cases hcreate'.symm.trans hcreate
    | @built o' c' slot?' ho' hcreate' hslot' =>
      cases (order_of_ordered ho').symm.trans horder
      cases hcreate'.symm.trans hcreate
      have hboth : slot?.isSome = slot?'.isSome := Bool.eq_iff_iff.2 (hslot.trans hslot'.symm)
      have hmap : (slot?.map fun _ => 0) = slot?'.map fun _ => 0 := by
        cases slot? <;> cases slot?' <;> first | rfl | cases hboth
      simp only [Seat.unnumbered, Except.map, hmap]

end Seated

end Setting

end Portfolio
end StateSpace
