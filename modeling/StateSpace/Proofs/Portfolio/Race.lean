import StateSpace.Portfolio.Race
import StateSpace.Proofs.Scope

/-!
# StateSpace.Proofs.Portfolio.Race

Everything that one step of a portfolio can do.

* `Moves`: the steps, one case for each way through `step?`. `moves_of_step?` says that there are
  no others.
* `replay?_append`, `replay?_induction`: several steps in a row, cut in two or one after the other.
-/

namespace StateSpace
namespace Portfolio
namespace Race

variable {ρ : Type} {r r' : Race ρ}

/-! ## Small changes -/

def enter (r : Race ρ) (stage : Stage) : Race ρ := { r with
  scopes := r.scopes.addChild r.portfolio
  runners := r.runners ++ [⟨r.scopes.size, stage⟩] }

section Changes

variable {place : Nat} {stage : Stage}

theorem stage?_setStage {other : Nat} : (r.setStage place stage).stage? other =
    if place = other then (r.stage? other).map fun _ => stage else r.stage? other := by
  unfold stage? setStage
  rw [List.getElem?_modify]
  split <;> cases r.runners[other]? <;> rfl

theorem stage?_enter {other : Nat} : (r.enter stage).stage? other =
    if other = r.runners.length then some stage else r.stage? other := by
  unfold stage? enter
  rw [List.getElem?_append]
  by_cases hlt : other < r.runners.length
  · rw [if_pos hlt, if_neg (Nat.ne_of_lt hlt)]
  · rw [if_neg hlt]
    by_cases heq : other = r.runners.length
    · simp [heq]
    · have hpast : ¬ other - r.runners.length = 0 := by omega
      simp [heq, hpast, List.getElem?_eq_none (Nat.le_of_not_lt hlt)]

/-- The scopes of the analyses stay as they are. -/
theorem mem_setStage {x : Runner} (h : x ∈ (r.setStage place stage).runners) :
    ∃ y ∈ r.runners, y.scope = x.scope := by
  obtain ⟨i, hi⟩ := List.mem_iff_getElem?.1 h
  simp only [setStage, List.getElem?_modify] at hi
  cases hy : r.runners[i]? with
  | none => simp [hy] at hi
  | some y =>
    refine ⟨y, List.mem_of_getElem? hy, ?_⟩
    simp only [hy, Option.map_eq_map, Option.map_some, Option.some.injEq] at hi
    rw [← hi]
    split <;> rfl

end Changes

/-! ## Steps -/

/-- The result that an analysis at a place comes up with. -/
def result (place : Nat) (reached : ρ) : Winner ρ := ⟨place + 1, nameOf (place + 1), reached⟩

/-- The result that a step offers: that of an analysis whose ending is conclusive. -/
def Event.offer? : Event ρ → Option (Winner ρ)
  | .finish place (.finished status) reached =>
    if status.isConclusive then some (result place reached) else none
  | _ => none

/-- The steps that a portfolio can take. -/
inductive Moves (r : Race ρ) : Event ρ → Race ρ → Prop where
  | skip {started e messages} : r.phase = .settingUp started → r.runners.length < r.total →
      Moves r (.setUp (.skipped e)) { r.enter .absent with messages }
  | begin {started messages} : r.phase = .settingUp started → r.runners.length < r.total →
      Moves r (.setUp .started)
        { r.enter .running with phase := .settingUp (started + 1), messages }
  | refuse {started text messages} : r.phase = .settingUp started →
      r.runners.length < r.total →
      Moves r (.setUp (.refused text))
        { r.enter .absent with notices := r.notices + 1, messages }
  | supervise {started} : r.phase = .settingUp started → r.runners.length = r.total →
      Moves r .supervise
        { r with phase := .supervising (.await started (r.scopes.isRequested r.portfolio)) }
  /-- The result of an analysis is committed. -/
  | win {place ending reached messages} : r.stage? place = some .running →
      Event.offer? (.finish place ending reached) = some (result place reached) →
      r.podium = .vacant →
      Moves r (.finish place ending reached)
        { r.setStage place .winning with podium := .held (result place reached), messages }
  /-- An analysis ends without a result, or too late. -/
  | lose {place ending reached messages} : r.stage? place = some .running →
      (∀ w, Event.offer? (.finish place ending reached) = some w → r.podium ≠ .vacant) →
      Moves r (.finish place ending reached) { r.setStage place .leaving with messages }
  | announce {place} : r.stage? place = some .winning →
      Moves r (.announce place) { r.setStage place .leaving with
        scopes := r.scopes.request r.portfolio s!"{nameOf (place + 1)} finished successfully." }
  | depart {place} : r.stage? place = some .leaving →
      Moves r (.depart place) { r.setStage place .gone with notices := r.notices + 1 }
  | receive {outstanding seen} : r.phase = .supervising (.waiting outstanding seen) →
      0 < r.notices →
      Moves r .receive { r with
        notices := r.notices - 1, phase := .supervising (.await (outstanding - 1) seen) }
  | wait {outstanding} : r.phase = .supervising (.waiting outstanding false) →
      Moves r .timeout { r with
        phase := .supervising (.waiting outstanding (r.scopes.isRequested r.portfolio)) }
  /-- The portfolio has lost patience. -/
  | force {outstanding messages} : r.phase = .supervising (.waiting outstanding true) →
      Moves r .timeout
        (cancelAll { r with phase := .supervising (.forced outstanding), messages })
  | take {s messages} : r.phase = .supervising s → s.isWaiting = false →
      Moves r .take { r with podium := .closed, phase := .finished r.podium.winner?, messages }
  | cancel {scope reason} : scope ≠ r.portfolio →
      Moves r (.cancel scope reason) { r with scopes := r.scopes.request scope reason }

theorem isVacant_eq_true_iff {p : Podium ρ} : p.isVacant = true ↔ p = .vacant := by
  cases p <;> simp [Podium.isVacant]

theorem moves_of_finish {place : Nat} (ending : Analysis.Ending) (reached : ρ)
    (h : r.stage? place = some .running) :
    Moves r (.finish place ending reached) (r.finish place ending reached) := by
  cases ending with
  | finished status =>
    unfold finish
    simp only
    split
    · rename_i hconclusive
      have hoffer : Event.offer? (.finish place (.finished status) reached) =
          some (result place reached) := if_pos hconclusive
      split
      · rename_i hvacant
        rw [isVacant_eq_true_iff] at hvacant
        rw [hvacant]
        exact .win h hoffer hvacant
      · rename_i hvacant
        exact .lose h fun _ _ hp => hvacant (isVacant_eq_true_iff.2 hp)
    · rename_i hconclusive
      have hoffer : Event.offer? (.finish place (.finished status) reached) = none :=
        if_neg hconclusive
      refine .lose h fun w hw => ?_
      rw [hoffer] at hw
      cases hw
  | failed e =>
    have hnone : ∀ w, Event.offer? (.finish place (.failed e) reached) = some w →
        r.podium ≠ .vacant := by
      intro w hw
      cases hw
    cases e <;> exact .lose h hnone
  | crashed =>
    have hnone : ∀ w, Event.offer? (.finish place .crashed reached) = some w →
        r.podium ≠ .vacant := by
      intro w hw
      cases hw
    exact .lose h hnone

theorem moves_of_expire {outstanding : Nat} {seen : Bool}
    (h : r.phase = .supervising (.waiting outstanding seen)) :
    Moves r .timeout (r.expire (.waiting outstanding seen)) := by
  cases seen with
  | true => exact .force h
  | false => exact .wait h

theorem moves_of_step? {e : Event ρ} (h : r.step? e = some r') : Moves r e r' := by
  cases e with
  | setUp outcome =>
    simp only [step?] at h
    split at h
    · rename_i started hphase
      split at h
      · rename_i hlt
        cases h
        cases outcome with
        | skipped e => exact .skip hphase hlt
        | started => exact .begin hphase hlt
        | refused text => exact .refuse hphase hlt
      · cases h
    · cases h
  | supervise =>
    simp only [step?] at h
    split at h
    · rename_i started hphase
      split at h
      · rename_i heq
        cases h
        exact .supervise hphase heq
      · cases h
    · cases h
  | finish place ending reached =>
    simp only [step?] at h
    split at h
    · rename_i hstage
      cases h
      exact moves_of_finish ending reached hstage
    · cases h
  | announce place =>
    simp only [step?] at h
    split at h
    · rename_i hstage
      cases h
      exact .announce hstage
    · cases h
  | depart place =>
    simp only [step?] at h
    split at h
    · rename_i hstage
      cases h
      exact .depart hstage
    · cases h
  | receive =>
    simp only [step?] at h
    split at h
    · rename_i s hphase
      cases s <;> simp [Supervision.isWaiting] at h
      obtain ⟨hnotices, rfl⟩ := h
      exact .receive hphase hnotices
    · cases h
  | timeout =>
    simp only [step?] at h
    split at h
    · rename_i s hphase
      cases s <;> simp [Supervision.isWaiting] at h
      subst h
      exact moves_of_expire hphase
    · cases h
  | take =>
    simp only [step?] at h
    split at h
    · rename_i s hphase
      split at h
      · cases h
      · rename_i hwaiting
        cases h
        exact .take hphase (Bool.eq_false_iff.2 hwaiting)
    · cases h
  | cancel scope reason =>
    simp only [step?] at h
    split at h
    · cases h
    · rename_i hne
      cases h
      exact .cancel hne

/-! ## Several steps -/

theorem replay?_cons {e : Event ρ} {rest : List (Event ρ)}
    (h : r.replay? (e :: rest) = some r') :
    ∃ next, r.step? e = some next ∧ next.replay? rest = some r' := by
  rw [replay?] at h
  split at h
  · rename_i next hnext
    exact ⟨next, hnext, h⟩
  · cases h

theorem replay?_append {before after : List (Event ρ)}
    (h : r.replay? (before ++ after) = some r') :
    ∃ q, r.replay? before = some q ∧ q.replay? after = some r' := by
  induction before generalizing r with
  | nil => exact ⟨r, rfl, h⟩
  | cons e rest ih =>
    obtain ⟨next, hnext, hrest⟩ := replay?_cons h
    obtain ⟨q, hq, hafter⟩ := ih hrest
    refine ⟨q, ?_, hafter⟩
    rw [replay?, hnext]
    exact hq

/-- What every step preserves holds after several steps. -/
theorem replay?_induction {P : List (Event ρ) → Race ρ → Prop}
    (hstep : ∀ past r e r', P past r → r.step? e = some r' → P (past ++ [e]) r')
    (past : List (Event ρ)) {events : List (Event ρ)} (h : P past r)
    (hr : r.replay? events = some r') : P (past ++ events) r' := by
  induction events generalizing r past with
  | nil =>
    cases hr
    rw [List.append_nil]
    exact h
  | cons e rest ih =>
    obtain ⟨next, hnext, hrest⟩ := replay?_cons hr
    have hlast := ih (past ++ [e]) (hstep past r e next h hnext) hrest
    rw [List.append_assoc] at hlast
    exact hlast

end Race
end Portfolio
end StateSpace
