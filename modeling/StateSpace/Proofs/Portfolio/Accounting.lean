import StateSpace.Proofs.Portfolio.Race

/-!
# StateSpace.Proofs.Portfolio.Accounting

What the supervisor knows of the analyses that are at work.

* `active`: the analyses that were started and have not left their notice.
* `Balanced`: the completions the supervisor still expects are the notices that nobody received
  and those that are to come. An analysis that nobody could do the work of leaves a notice without
  being expected, so such notices are counted apart.
* `Balanced.replay`: this holds in every run, up to the moment when the supervisor loses patience.
-/

namespace StateSpace
namespace Portfolio

/-- The analysis has yet to leave its notice. -/
def Stage.isActive : Stage → Bool
  | .absent => false
  | .gone => false
  | _ => true

namespace Race

variable {ρ : Type} {r r' : Race ρ} {e : Event ρ} {events : List (Event ρ)} {refused : Nat}

def active (r : Race ρ) : Nat := r.runners.countP fun x => x.stage.isActive

/-- The completions that the supervisor expects, or will once it starts; none when it does not wait
for them any more. -/
def outstanding? (r : Race ρ) : Option Nat :=
  match r.phase with
  | .settingUp started => some started
  | .supervising (.waiting outstanding _) => some outstanding
  | .supervising .complete => some 0
  | _ => none

/-- There was nobody to do the work of an analysis. -/
def Event.isRefusal : Event ρ → Bool
  | .setUp (.refused _) => true
  | _ => false

structure Balanced (refused : Nat) (r : Race ρ) : Prop where
  sums : ∀ n, r.outstanding? = some n → n + refused = r.notices + r.active
  waits : ∀ n seen, r.phase = .supervising (.waiting n seen) → 0 < n

/-! ## Analyses at work -/

section Active

variable {place : Nat} {stage : Stage}

/-- Changing one element moves the count by that element. -/
theorem countP_modify {α : Type} {p : α → Bool} {f : α → α} {l : List α} {x : α}
    (h : l[place]? = some x) :
    (l.modify place f).countP p + (if p x then 1 else 0) =
      l.countP p + (if p (f x) then 1 else 0) := by
  induction l generalizing place with
  | nil => simp at h
  | cons y rest ih =>
    cases place with
    | zero =>
      simp only [List.getElem?_cons_zero, Option.some.injEq] at h
      subst h
      simp only [List.modify_zero_cons, List.countP_cons]
      omega
    | succ place =>
      have hrest := ih h
      simp only [List.modify_succ_cons, List.countP_cons]
      omega

theorem active_setStage {before : Stage} (stage : Stage) (h : r.stage? place = some before) :
    (r.setStage place stage).active + (if before.isActive then 1 else 0) =
      r.active + (if stage.isActive then 1 else 0) := by
  obtain ⟨x, hx, hbefore⟩ := Option.map_eq_some_iff.1 h
  have hcount := countP_modify (p := fun x : Runner => x.stage.isActive)
    (f := fun x => { x with stage }) hx
  rw [hbefore] at hcount
  exact hcount

theorem active_enter : (r.enter stage).active = r.active + (if stage.isActive then 1 else 0) := by
  simp [active, enter, List.countP_append, List.countP_singleton]

theorem stage_of_active (h : r.active = 0) :
    ∀ x ∈ r.runners, x.stage = .absent ∨ x.stage = .gone := by
  intro x hx
  have hidle := List.countP_eq_zero.1 h x hx
  cases hs : x.stage with
  | absent => exact .inl rfl
  | gone => exact .inr rfl
  | running => simp [hs, Stage.isActive] at hidle
  | winning => simp [hs, Stage.isActive] at hidle
  | leaving => simp [hs, Stage.isActive] at hidle

end Active

/-! ## Steps -/

theorem Balanced.start (scopes : Scopes) (caller : ScopeId) (total : Nat) :
    Balanced 0 (.start scopes caller total : Race ρ) where
  sums n h := by
    cases h
    rfl
  waits n seen h := by cases h

theorem Balanced.congr (h : Balanced refused r) (hphase : r'.phase = r.phase)
    (hsum : r'.notices + r'.active = r.notices + r.active) : Balanced refused r' := by
  constructor
  case sums =>
    intro n hn
    rw [outstanding?, hphase] at hn
    rw [hsum]
    exact h.sums n hn
  case waits =>
    intro n seen hn
    rw [hphase] at hn
    exact h.waits n seen hn

theorem Balanced.await {n : Nat} {seen : Bool}
    (hphase : r.phase = .supervising (.await n seen))
    (hsum : n + refused = r.notices + r.active) : Balanced refused r := by
  unfold Supervision.await at hphase
  split at hphase
  · rename_i hzero
    constructor
    case sums =>
      intro m hm
      rw [outstanding?, hphase] at hm
      cases hm
      omega
    case waits =>
      intro m seen hm
      rw [hphase] at hm
      cases hm
  · rename_i hzero
    constructor
    case sums =>
      intro m hm
      rw [outstanding?, hphase] at hm
      cases hm
      exact hsum
    case waits =>
      intro m seen hm
      rw [hphase] at hm
      cases hm
      omega

theorem Balanced.of_none (hnone : r.outstanding? = none) : Balanced refused r := by
  constructor
  case sums =>
    intro n hn
    rw [hnone] at hn
    cases hn
  case waits =>
    intro n seen hn
    rw [outstanding?, hn] at hnone
    cases hnone

theorem Balanced.settingUp {started : Nat} (hphase : r.phase = .settingUp started)
    (hsum : started + refused = r.notices + r.active) : Balanced refused r := by
  constructor
  case sums =>
    intro n hn
    rw [outstanding?, hphase] at hn
    cases hn
    exact hsum
  case waits =>
    intro n seen hn
    rw [hphase] at hn
    cases hn

theorem Balanced.step (h : Balanced refused r) (hm : Moves r e r') :
    Balanced (refused + if e.isRefusal then 1 else 0) r' := by
  have hsums : ∀ n, r.outstanding? = some n → n + refused = r.notices + r.active := h.sums
  cases hm with
  | skip hphase _ =>
    have hactive : (r.enter .absent).active = r.active + 0 := active_enter
    exact h.congr rfl (congrArg (r.notices + ·) hactive)
  | begin hphase _ =>
    have hactive : (r.enter .running).active = r.active + 1 := active_enter
    have hsum := hsums _ (by rw [outstanding?, hphase])
    refine .settingUp rfl ?_
    show _ + 1 + refused = r.notices + (r.enter .running).active
    omega
  | refuse hphase _ =>
    have hactive : (r.enter .absent).active = r.active + 0 := active_enter
    have hsum := hsums _ (by rw [outstanding?, hphase])
    refine .settingUp hphase ?_
    show _ + (refused + 1) = r.notices + 1 + (r.enter .absent).active
    omega
  | supervise hphase _ =>
    exact .await rfl (hsums _ (by rw [outstanding?, hphase]))
  | win hstage _ _ =>
    have hactive := active_setStage .winning hstage
    exact h.congr rfl (congrArg (r.notices + ·) (Nat.add_right_cancel hactive))
  | lose hstage _ =>
    have hactive := active_setStage .leaving hstage
    exact h.congr rfl (congrArg (r.notices + ·) (Nat.add_right_cancel hactive))
  | announce hstage =>
    have hactive := active_setStage .leaving hstage
    exact h.congr rfl (congrArg (r.notices + ·) (Nat.add_right_cancel hactive))
  | @depart place hstage =>
    have hactive : (r.setStage place .gone).active + 1 = r.active + 0 :=
      active_setStage .gone hstage
    refine h.congr rfl ?_
    show r.notices + 1 + (r.setStage place .gone).active = r.notices + r.active
    omega
  | receive hphase hnotices =>
    have hsum := hsums _ (by rw [outstanding?, hphase])
    have hpositive := h.waits _ _ hphase
    refine .await rfl ?_
    show _ - 1 + refused = r.notices - 1 + r.active
    omega
  | wait hphase =>
    have hsum := hsums _ (by rw [outstanding?, hphase])
    have hpositive := h.waits _ _ hphase
    constructor
    case sums =>
      intro n hn
      cases hn
      exact hsum
    case waits =>
      intro n seen hn
      cases hn
      exact hpositive
  | force hphase => exact .of_none rfl
  | take hphase _ => exact .of_none rfl
  | cancel _ => exact h.congr rfl rfl

def refusals (events : List (Event ρ)) : Nat := events.countP Event.isRefusal

theorem Balanced.replay (h : Balanced refused r) (hr : r.replay? events = some r') :
    Balanced (refused + refusals events) r' := by
  induction events generalizing r refused with
  | nil =>
    cases hr
    exact h
  | cons e rest ih =>
    obtain ⟨next, hnext, hrest⟩ := replay?_cons hr
    have hcount : refusals (e :: rest) = refusals rest + if e.isRefusal then 1 else 0 :=
      List.countP_cons
    have hbalanced := ih (h.step (moves_of_step? hnext)) hrest
    rw [hcount, Nat.add_comm (refusals rest), ← Nat.add_assoc]
    exact hbalanced

/-! ## After the last notice -/

/-- Nobody is at work, and nobody is set up any more. -/
structure Deserted (r : Race ρ) : Prop where
  idle : r.active = 0
  ready : ∀ started, r.phase ≠ .settingUp started

theorem Deserted.not_active (h : Deserted r) {place : Nat} {stage : Stage}
    (hstage : r.stage? place = some stage) : stage.isActive = false := by
  obtain ⟨x, hx, rfl⟩ := Option.map_eq_some_iff.1 hstage
  have hidle := List.countP_eq_zero.1 h.idle x (List.mem_of_getElem? hx)
  exact Bool.eq_false_iff.2 hidle

/-- No analysis ends any more. -/
theorem Deserted.step (h : Deserted r) (hm : Moves r e r') : Deserted r' ∧ e.offer? = none := by
  cases hm with
  | skip hphase _ => exact absurd hphase (h.ready _)
  | begin hphase _ => exact absurd hphase (h.ready _)
  | refuse hphase _ => exact absurd hphase (h.ready _)
  | supervise hphase _ => exact absurd hphase (h.ready _)
  | win hstage _ _ => cases h.not_active hstage
  | lose hstage _ => cases h.not_active hstage
  | announce hstage => cases h.not_active hstage
  | depart hstage => cases h.not_active hstage
  | receive _ _ => exact ⟨⟨h.idle, fun _ hp => by cases hp⟩, rfl⟩
  | wait _ => exact ⟨⟨h.idle, fun _ hp => by cases hp⟩, rfl⟩
  | force _ => exact ⟨⟨h.idle, fun _ hp => by cases hp⟩, rfl⟩
  | take _ _ => exact ⟨⟨h.idle, fun _ hp => by cases hp⟩, rfl⟩
  | cancel _ => exact ⟨⟨h.idle, h.ready⟩, rfl⟩

/-- Once nobody is at work, no result is offered any more. -/
theorem Deserted.replay (h : Deserted r) (hr : r.replay? events = some r') :
    ∀ e ∈ events, e.offer? = none := by
  induction events generalizing r with
  | nil =>
    intro e he
    cases he
  | cons e rest ih =>
    obtain ⟨next, hnext, hrest⟩ := replay?_cons hr
    obtain ⟨hdeserted, hnone⟩ := h.step (moves_of_step? hnext)
    intro e' he'
    rcases List.mem_cons.1 he' with rfl | he'
    · exact hnone
    · exact ih hdeserted hrest e' he'

/-- The supervisor gets all completions before it ends without losing patience, unless there was
nobody to do the work of some analysis. -/
theorem Balanced.deserted (h : Balanced 0 r) (hphase : r.phase = .supervising .complete) :
    Deserted r := by
  have hsum := h.sums 0 (by rw [outstanding?, hphase])
  refine ⟨by omega, fun started hp => ?_⟩
  rw [hphase] at hp
  cases hp

end Race
end Portfolio
end StateSpace
