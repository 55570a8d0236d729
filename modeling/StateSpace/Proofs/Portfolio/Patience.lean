import StateSpace.Proofs.Portfolio.Accounting

/-!
# StateSpace.Proofs.Portfolio.Patience

When the supervisor of a portfolio goes on waiting, and when it loses patience.

* `Noticed`: the portfolio had been asked to stop when the supervisor started, or when one of its
  waits was over. The supervisor remembers exactly this (`Watches`).
* `Awaits`: the count of the supervisor is the number of analyses that were started, less the
  notices that were received.
* `Phase.waitsLeft`: how many more waits can be over once the portfolio was asked to stop. Every
  timeout uses up one of them (`waitsLeft_of_moves`).
* `Supervised`: the rules that the supervisor keeps to in every run.
-/

namespace StateSpace
namespace Portfolio

/-- The number of times that a supervisor can still wait in vain, once there is a request. -/
def Phase.waitsLeft {ρ : Type} : Phase ρ → Nat
  | .settingUp _ => 1
  | .supervising (.waiting _ true) => 1
  | .supervising (.waiting _ false) => 2
  | _ => 0

namespace Race

variable {ρ : Type} {first r r' q : Race ρ} {e : Event ρ} {past events : List (Event ρ)}

/-! ## What happened so far -/

def Event.isStart : Event ρ → Bool
  | .setUp .started => true
  | _ => false

def Event.isReceipt : Event ρ → Bool
  | .receive => true
  | _ => false

def Event.isTimeout : Event ρ → Bool
  | .timeout => true
  | _ => false

/-- The supervisor looks whether the portfolio was asked to stop. -/
def Event.looks : Event ρ → Bool
  | .supervise => true
  | .timeout => true
  | _ => false

/-- The step is one of the supervisor. -/
def Event.supervises : Event ρ → Bool
  | .supervise => true
  | .receive => true
  | .timeout => true
  | .take => true
  | _ => false

def starts (events : List (Event ρ)) : Nat := events.countP Event.isStart

def receipts (events : List (Event ρ)) : Nat := events.countP Event.isReceipt

def timeouts (events : List (Event ρ)) : Nat := events.countP Event.isTimeout

/-- The portfolio is to stop. -/
def IsStopping (r : Race ρ) : Prop := r.scopes.isRequested r.portfolio = true

def Noticed (first : Race ρ) (events : List (Event ρ)) : Prop :=
  ∃ before e after q, events = before ++ e :: after ∧ e.looks = true ∧
    first.replay? before = some q ∧ q.IsStopping

/-- The completions that the supervisor gave up on. -/
def givenUp? (r : Race ρ) : Option Nat :=
  match r.phase with
  | .supervising s => s.givenUp?
  | _ => none

theorem starts_concat : starts (past ++ [e]) = starts past + if e.isStart then 1 else 0 := by
  simp [starts, List.countP_append, List.countP_singleton]

theorem receipts_concat :
    receipts (past ++ [e]) = receipts past + if e.isReceipt then 1 else 0 := by
  simp [receipts, List.countP_append, List.countP_singleton]

theorem refusals_concat :
    refusals (past ++ [e]) = refusals past + if e.isRefusal then 1 else 0 := by
  simp [refusals, List.countP_append, List.countP_singleton]

theorem timeouts_cons : timeouts (e :: events) = timeouts events + if e.isTimeout then 1 else 0 :=
  List.countP_cons

theorem replay?_concat (h : first.replay? past = some r) :
    first.replay? (past ++ [e]) = r.step? e := by
  induction past generalizing first with
  | nil =>
    cases h
    rw [List.nil_append, replay?]
    cases r.step? e <;> rfl
  | cons e rest ih =>
    obtain ⟨next, hnext, hrest⟩ := replay?_cons h
    rw [List.cons_append, replay?, hnext]
    exact ih hrest

theorem noticed_concat (h : first.replay? past = some r) :
    Noticed first (past ++ [e]) ↔ Noticed first past ∨ e.looks = true ∧ r.IsStopping := by
  constructor
  · rintro ⟨before, look, after, q, heq, hlooks, hq, hstop⟩
    rcases List.eq_nil_or_concat after with rfl | ⟨after, last, rfl⟩
    · obtain ⟨rfl, hlast⟩ := List.append_inj' heq rfl
      cases hlast
      rw [h] at hq
      cases hq
      exact .inr ⟨hlooks, hstop⟩
    · rw [List.concat_eq_append, ← List.cons_append, ← List.append_assoc] at heq
      obtain ⟨rfl, _⟩ := List.append_inj' heq rfl
      exact .inl ⟨before, look, after, q, rfl, hlooks, hq, hstop⟩
  · rintro (⟨before, look, after, q, rfl, hrest⟩ | ⟨hlooks, hstop⟩)
    · exact ⟨before, look, after ++ [e], q, by simp, hrest⟩
    · exact ⟨past, e, [], r, rfl, hlooks, h, hstop⟩

/-! ## Scopes -/

/-- Every analysis has a scope of its own, and none is missing once the supervisor is at work. -/
structure Housed (r : Race ρ) : Prop where
  portfolio : r.portfolio < r.scopes.size
  scopes : ∀ x ∈ r.runners, x.scope < r.scopes.size
  full : ∀ s, r.phase = .supervising s → r.runners.length = r.total

theorem Housed.start (scopes : Scopes) (caller : ScopeId) (total : Nat) :
    Housed (.start scopes caller total : Race ρ) where
  portfolio := by simp [Race.start]
  scopes x hx := by cases hx
  full s hs := by cases hs

theorem Housed.congr (h : Housed r) (hportfolio : r'.portfolio = r.portfolio)
    (hsize : r'.scopes.size = r.scopes.size)
    (hscopes : ∀ x ∈ r'.runners, ∃ y ∈ r.runners, y.scope = x.scope)
    (hfull : ∀ s, r'.phase = .supervising s → r'.runners.length = r'.total) : Housed r' := by
  refine ⟨by rw [hportfolio, hsize]; exact h.portfolio, fun x hx => ?_, hfull⟩
  obtain ⟨y, hy, hsame⟩ := hscopes x hx
  rw [hsize, ← hsame]
  exact h.scopes y hy

theorem Housed.enter (h : Housed r) (stage : Stage) {started : Nat}
    (hphase : r.phase = .settingUp started) : Housed (r.enter stage) := by
  have hlt : ∀ {id}, id < r.scopes.size → id < (r.enter stage).scopes.size := by
    intro id hid
    rw [Race.enter, Scopes.size_addChild]
    exact Nat.lt_succ_of_lt hid
  refine ⟨hlt h.portfolio, fun x hx => ?_, fun s hs => ?_⟩
  · rcases List.mem_append.1 hx with hx | hx
    · exact hlt (h.scopes x hx)
    · rw [List.mem_singleton.1 hx, Race.enter, Scopes.size_addChild]
      exact Nat.lt_succ_self _
  · cases hphase.symm.trans hs

theorem Housed.setStage (h : Housed r) (place : Nat) (stage : Stage) :
    Housed (r.setStage place stage) := by
  refine h.congr rfl rfl (fun x hx => mem_setStage hx) fun s hs => ?_
  rw [Race.setStage, List.length_modify]
  exact h.full s hs

theorem Housed.step (h : Housed r) (hm : Moves r e r') : Housed r' := by
  have hsame : ∀ x ∈ r.runners, ∃ y ∈ r.runners, y.scope = x.scope := fun x hx => ⟨x, hx, rfl⟩
  cases hm with
  | skip hphase _ => exact { h.enter .absent hphase with }
  | begin hphase _ =>
    exact { h.enter .running hphase with full := fun s hs => by cases hs }
  | refuse hphase _ => exact { h.enter .absent hphase with }
  | supervise _ hfull => exact { h with full := fun _ _ => hfull }
  | @win place => exact { h.setStage place .winning with }
  | @lose place => exact { h.setStage place .leaving with }
  | @announce place _ =>
    exact (h.setStage place .leaving).congr rfl Scopes.size_request
      (fun x hx => ⟨x, hx, rfl⟩) (h.setStage place .leaving).full
  | @depart place => exact { h.setStage place .gone with }
  | receive hphase _ => exact { h with full := fun _ _ => h.full _ hphase }
  | wait hphase => exact { h with full := fun _ _ => h.full _ hphase }
  | force hphase =>
    exact h.congr rfl Scopes.size_foldl_request hsame fun _ _ => h.full _ hphase
  | take _ _ => exact { h with full := fun s hs => by cases hs }
  | cancel _ => exact h.congr rfl Scopes.size_request hsame h.full

/-- A portfolio that is to stop goes on being so. -/
theorem IsStopping.step (hs : r.IsStopping) (h : Housed r) (hm : Moves r e r') :
    r'.IsStopping := by
  have henter : ∀ stage, (r.enter stage).IsStopping := fun _ =>
    (Scopes.isRequested_addChild h.portfolio).trans hs
  cases hm with
  | skip => exact henter .absent
  | begin => exact henter .running
  | refuse => exact henter .absent
  | announce => exact Scopes.isRequested_request hs
  | force => exact Scopes.isRequested_foldl_request hs
  | cancel => exact Scopes.isRequested_request hs
  | supervise => exact hs
  | win => exact hs
  | lose => exact hs
  | depart => exact hs
  | receive => exact hs
  | wait => exact hs
  | take => exact hs

/-! ## The count of the supervisor -/

structure Awaits (past : List (Event ρ)) (r : Race ρ) : Prop where
  counted : ∀ n, r.outstanding? = some n → n + receipts past = starts past
  gaveUp : ∀ n, r.givenUp? = some n → 0 < n ∧ n + receipts past = starts past

theorem outstanding?_await {n : Nat} {seen : Bool}
    (h : r.phase = .supervising (.await n seen)) : r.outstanding? = some n := by
  unfold Supervision.await at h
  split at h
  · rename_i hzero
    rw [outstanding?, h, hzero]
  · rw [outstanding?, h]

theorem givenUp?_await {n : Nat} {seen : Bool}
    (h : r.phase = .supervising (.await n seen)) : r.givenUp? = none := by
  unfold Supervision.await at h
  split at h <;> rw [givenUp?, h] <;> rfl

namespace Awaits

theorem start (scopes : Scopes) (caller : ScopeId) (total : Nat) :
    Awaits [] (.start scopes caller total : Race ρ) where
  counted n hn := by
    cases hn
    rfl
  gaveUp n hn := by cases hn

theorem keep (h : Awaits past r) (hphase : r'.phase = r.phase) (hs : e.isStart = false)
    (hr : e.isReceipt = false) : Awaits (past ++ [e]) r' := by
  have hstarts : starts (past ++ [e]) = starts past := by simp [starts_concat, hs]
  have hreceipts : receipts (past ++ [e]) = receipts past := by simp [receipts_concat, hr]
  have hout : r'.outstanding? = r.outstanding? := by rw [outstanding?, hphase, outstanding?]
  have hgave : r'.givenUp? = r.givenUp? := by rw [givenUp?, hphase, givenUp?]
  constructor <;> rw [hstarts, hreceipts]
  · rw [hout]
    exact h.counted
  · rw [hgave]
    exact h.gaveUp

/-- The supervisor does not give up, and what it counts is right. -/
theorem count {n : Nat} (hn : r'.outstanding? = some n) (hgave : r'.givenUp? = none)
    (hsum : n + receipts (past ++ [e]) = starts (past ++ [e])) : Awaits (past ++ [e]) r' where
  counted m hm := by
    rw [hn] at hm
    cases hm
    exact hsum
  gaveUp m hm := by
    rw [hgave] at hm
    cases hm

theorem step {refused : Nat} (h : Awaits past r) (hb : Balanced refused r)
    (hm : Moves r e r') : Awaits (past ++ [e]) r' := by
  cases hm with
  | skip => exact h.keep rfl rfl rfl
  | @begin started _ hphase _ =>
    have hcount := h.counted started (by rw [outstanding?, hphase])
    refine .count (n := started + 1) rfl rfl ?_
    simp only [starts_concat, receipts_concat, Event.isStart, Event.isReceipt, if_true,
      Bool.false_eq_true, if_false]
    omega
  | refuse => exact h.keep rfl rfl rfl
  | @supervise started hphase _ =>
    have hcount := h.counted started (by rw [outstanding?, hphase])
    refine .count (outstanding?_await rfl) (givenUp?_await rfl) ?_
    simpa [starts_concat, receipts_concat, Event.isStart, Event.isReceipt] using hcount
  | win => exact h.keep rfl rfl rfl
  | lose => exact h.keep rfl rfl rfl
  | announce => exact h.keep rfl rfl rfl
  | depart => exact h.keep rfl rfl rfl
  | @receive outstanding seen hphase _ =>
    have hcount := h.counted outstanding (by rw [outstanding?, hphase])
    have hpositive := hb.waits _ _ hphase
    refine .count (outstanding?_await rfl) (givenUp?_await rfl) ?_
    simp only [starts_concat, receipts_concat, Event.isStart, Event.isReceipt, if_true,
      Bool.false_eq_true, if_false]
    omega
  | @wait outstanding hphase =>
    have hcount := h.counted outstanding (by rw [outstanding?, hphase])
    refine .count (n := outstanding) rfl rfl ?_
    simpa [starts_concat, receipts_concat, Event.isStart, Event.isReceipt] using hcount
  | @force outstanding _ hphase =>
    have hcount := h.counted outstanding (by rw [outstanding?, hphase])
    refine ⟨fun n hn => (by cases hn), fun n hn => ?_⟩
    cases hn
    refine ⟨hb.waits _ _ hphase, ?_⟩
    simpa [starts_concat, receipts_concat, Event.isStart, Event.isReceipt] using hcount
  | take => exact ⟨fun n hn => (by cases hn), fun n hn => (by cases hn)⟩
  | cancel => exact h.keep rfl rfl rfl

end Awaits

/-! ## What the supervisor remembers -/

/-- The supervisor remembers whether it noticed that the portfolio is to stop, and it gives up only
if it did. -/
structure Remembers (first : Race ρ) (past : List (Event ρ)) (r : Race ρ) : Prop where
  early : ∀ started, r.phase = .settingUp started → ¬ Noticed first past
  seen : ∀ n seen, r.phase = .supervising (.waiting n seen) →
    (seen = true ↔ Noticed first past)
  gaveUp : ∀ n, r.givenUp? = some n → Noticed first past

namespace Remembers

theorem start (scopes : Scopes) (caller : ScopeId) (total : Nat) :
    Remembers (.start scopes caller total) [] (.start scopes caller total : Race ρ) where
  early started _ h := by
    obtain ⟨before, e, after, q, heq, _⟩ := h
    simp at heq
  seen n seen h := by cases h
  gaveUp n h := by cases h

theorem keep (h : Remembers first past r) (hrun : first.replay? past = some r)
    (hphase : r'.phase = r.phase) (he : e.looks = false) : Remembers first (past ++ [e]) r' := by
  have hsame : Noticed first (past ++ [e]) ↔ Noticed first past := by
    rw [noticed_concat hrun, he]
    simp
  constructor
  case early =>
    intro started hstarted
    rw [hsame]
    exact h.early started (hphase ▸ hstarted)
  case seen =>
    intro n seen hn
    rw [hsame]
    exact h.seen n seen (hphase ▸ hn)
  case gaveUp =>
    intro n hn
    rw [givenUp?, hphase] at hn
    exact hsame.2 (h.gaveUp n hn)

/-- The supervisor goes on waiting, unless nothing is outstanding. -/
theorem await {n : Nat} {seen : Bool} (hphase : r'.phase = .supervising (.await n seen))
    (hseen : seen = true ↔ Noticed first past) : Remembers first past r' := by
  have hgave : r'.givenUp? = none := givenUp?_await hphase
  unfold Supervision.await at hphase
  constructor
  case early =>
    intro started hstarted
    cases hphase.symm.trans hstarted
  case seen =>
    intro m other hm
    split at hphase
    · cases hphase.symm.trans hm
    · cases hphase.symm.trans hm
      exact hseen
  case gaveUp =>
    intro m hm
    cases hgave.symm.trans hm

theorem step (h : Remembers first past r) (hrun : first.replay? past = some r)
    (hm : Moves r e r') : Remembers first (past ++ [e]) r' := by
  cases hm with
  | skip => exact h.keep hrun rfl rfl
  | begin hphase _ =>
    have hsame := noticed_concat (e := .setUp .started) hrun
    refine ⟨fun started _ hn => ?_, fun n seen hn => (by cases hn), fun n hn => (by cases hn)⟩
    rcases hsame.1 hn with hn | ⟨hlooks, _⟩
    · exact h.early _ hphase hn
    · cases hlooks
  | refuse => exact h.keep hrun rfl rfl
  | supervise hphase _ =>
    refine .await rfl ?_
    rw [noticed_concat hrun]
    constructor
    · exact fun hstop => .inr ⟨rfl, hstop⟩
    · rintro (hn | ⟨_, hstop⟩)
      · exact absurd hn (h.early _ hphase)
      · exact hstop
  | win => exact h.keep hrun rfl rfl
  | lose => exact h.keep hrun rfl rfl
  | announce => exact h.keep hrun rfl rfl
  | depart => exact h.keep hrun rfl rfl
  | receive hphase _ =>
    refine .await rfl ?_
    rw [noticed_concat hrun, h.seen _ _ hphase]
    simp [Event.looks]
  | wait hphase =>
    have hold : ¬ Noticed first past := by simp [← h.seen _ _ hphase]
    refine ⟨fun _ hs => (by cases hs), fun n seen hn => ?_, fun n hn => (by cases hn)⟩
    cases hn
    rw [noticed_concat hrun]
    simp [Event.looks, hold, IsStopping]
  | force hphase =>
    refine ⟨fun _ hs => (by cases hs), fun n seen hn => (by cases hn), fun n _ => ?_⟩
    exact (noticed_concat hrun).2 (.inl ((h.seen _ _ hphase).1 rfl))
  | take =>
    exact ⟨fun _ hs => (by cases hs), fun _ _ hn => (by cases hn), fun _ hn => (by cases hn)⟩
  | cancel => exact h.keep hrun rfl rfl

end Remembers

/-! ## Waits that are over -/

theorem waitsLeft_await (n : Nat) (seen : Bool) :
    (Phase.supervising (.await n seen) : Phase ρ).waitsLeft ≤
      (Phase.supervising (.waiting n seen) : Phase ρ).waitsLeft := by
  unfold Supervision.await
  split
  · exact Nat.zero_le _
  · exact Nat.le_refl _

/-- Once the portfolio is to stop, every timeout brings the supervisor closer to its end. -/
theorem waitsLeft_of_moves (hs : r.IsStopping) (hm : Moves r e r') :
    (if e.isTimeout then 1 else 0) + r'.phase.waitsLeft ≤ r.phase.waitsLeft := by
  have hkeep : ∀ {p : Phase ρ}, (if false = true then 1 else 0) + p.waitsLeft ≤ p.waitsLeft :=
    fun {p} => Nat.le_of_eq (Nat.zero_add _)
  cases hm with
  | skip => exact hkeep
  | begin hphase _ =>
    rw [hphase]
    exact hkeep
  | refuse => exact hkeep
  | @supervise started hphase _ =>
    have hle := waitsLeft_await (ρ := ρ) started true
    rw [hphase, show r.scopes.isRequested r.portfolio = true from hs]
    simpa [Event.isTimeout, Phase.waitsLeft] using hle
  | win => exact hkeep
  | lose => exact hkeep
  | announce => exact hkeep
  | depart => exact hkeep
  | @receive outstanding seen hphase _ =>
    have hle := waitsLeft_await (ρ := ρ) (outstanding - 1) seen
    rw [hphase]
    cases seen <;> simpa [Event.isTimeout, Phase.waitsLeft] using hle
  | wait hphase =>
    rw [hphase, show r.scopes.isRequested r.portfolio = true from hs]
    exact Nat.le_refl 2
  | force hphase =>
    rw [hphase]
    exact Nat.le_refl 1
  | take hphase _ =>
    exact Nat.zero_le _
  | cancel => exact hkeep

theorem timeouts_add_waitsLeft_le (h : Housed r) (hs : r.IsStopping)
    (hr : r.replay? events = some r') :
    timeouts events + r'.phase.waitsLeft ≤ r.phase.waitsLeft := by
  induction events generalizing r with
  | nil =>
    cases hr
    exact Nat.le_of_eq (Nat.zero_add _)
  | cons e rest ih =>
    obtain ⟨next, hnext, hrest⟩ := replay?_cons hr
    have hmove := moves_of_step? hnext
    have hstep := waitsLeft_of_moves hs hmove
    have hle := ih (h.step hmove) (hs.step h hmove) hrest
    rw [timeouts_cons]
    omega

/-! ## Runs -/

/-- All of this together, after some steps. -/
structure Attended (first : Race ρ) (past : List (Event ρ)) (r : Race ρ) : Prop where
  run : first.replay? past = some r
  housed : Housed r
  balanced : Balanced (refusals past) r
  awaits : Awaits past r
  remembers : Remembers first past r

theorem Attended.start (scopes : Scopes) (caller : ScopeId) (total : Nat) :
    Attended (.start scopes caller total) [] (.start scopes caller total : Race ρ) :=
  ⟨rfl, .start scopes caller total, .start scopes caller total, .start scopes caller total,
    .start scopes caller total⟩

theorem Attended.step (h : Attended first past r) (hs : r.step? e = some r') :
    Attended first (past ++ [e]) r' := by
  have hm := moves_of_step? hs
  refine ⟨(replay?_concat h.run).trans hs, h.housed.step hm, ?_, h.awaits.step h.balanced hm,
    h.remembers.step h.run hm⟩
  rw [refusals_concat]
  exact h.balanced.step hm

theorem Attended.replay (h : Attended first past r) (hr : r.replay? events = some r') :
    Attended first (past ++ events) r' :=
  replay?_induction (fun _ _ _ _ h hs => h.step hs) past h hr

theorem IsStopping.replay (hs : r.IsStopping) (h : Housed r) (hr : r.replay? events = some r') :
    r'.IsStopping := by
  have hboth := replay?_induction (P := fun _ r => r.IsStopping ∧ Housed r)
    (fun _ _ _ _ h hs => ⟨h.1.step h.2 (moves_of_step? hs), h.2.step (moves_of_step? hs)⟩)
    [] ⟨hs, h⟩ hr
  exact hboth.1

/-- What was noticed once is still so. -/
theorem isStopping_of_noticed {scopes : Scopes} {caller : ScopeId} {total : Nat}
    (hr : (Race.start scopes caller total).replay? events = some r)
    (h : Noticed (Race.start scopes caller total) events) : r.IsStopping := by
  obtain ⟨before, e, after, q, rfl, _, hq, hstop⟩ := h
  obtain ⟨q', hq', hafter⟩ := replay?_append hr
  rw [hq, Option.some.injEq] at hq'
  subst hq'
  exact hstop.replay ((Attended.start scopes caller total).replay hq).housed hafter

/-! ## Losing patience -/

/-- The supervisor loses patience, with some completions outstanding. -/
structure GivesUp (r r' : Race ρ) (outstanding : Nat) : Prop where
  before : r.givenUp? = none
  after : r'.givenUp? = some outstanding

theorem GivesUp.of_moves {n : Nat} (h : GivesUp r r' n) (hm : Moves r e r') :
    e = .timeout ∧ r.phase = .supervising (.waiting n true) ∧ r'.scopes = r.cancelAll.scopes ∧
      r'.runners = r.runners := by
  have hnot : r'.givenUp? ≠ r.givenUp? := by
    rw [h.before, h.after]
    simp
  have hsome : r'.givenUp? ≠ none := by simp [h.after]
  cases hm with
  | force hphase =>
    cases h.after
    exact ⟨rfl, hphase, rfl, rfl⟩
  | begin => exact absurd rfl hsome
  | supervise => exact absurd (givenUp?_await rfl) hsome
  | receive => exact absurd (givenUp?_await rfl) hsome
  | wait => exact absurd rfl hsome
  | take => exact absurd rfl hsome
  | skip => exact absurd rfl hnot
  | refuse => exact absurd rfl hnot
  | win => exact absurd rfl hnot
  | lose => exact absurd rfl hnot
  | announce => exact absurd rfl hnot
  | depart => exact absurd rfl hnot
  | cancel => exact absurd rfl hnot

theorem scopes_of_supervises (hm : Moves r e r') (he : e.supervises = true)
    (hpatient : ∀ n, ¬ GivesUp r r' n) : r'.scopes = r.scopes := by
  cases hm with
  | force hphase => exact absurd ⟨by rw [givenUp?, hphase]; rfl, rfl⟩ (hpatient _)
  | supervise => rfl
  | receive => rfl
  | wait => rfl
  | take => rfl
  | _ => cases he

/-! ## The rules of the supervisor -/

def IsWaiting (r : Race ρ) : Prop := ∃ n seen, r.phase = .supervising (.waiting n seen)

theorem IsWaiting.one_le_waitsLeft (h : r.IsWaiting) : 1 ≤ r.phase.waitsLeft := by
  obtain ⟨n, seen, hphase⟩ := h
  rw [hphase]
  cases seen <;> simp [Phase.waitsLeft]

structure Supervised (first : Race ρ) (events : List (Event ρ)) (r : Race ρ) : Prop where
  /-- The supervisor loses patience only when a wait is over, having noticed a request before, and
  with completions outstanding. -/
  force : ∀ e r' n, r.step? e = some r' → GivesUp r r' n →
    e = .timeout ∧ Noticed first events ∧ 0 < n ∧ n + receipts events = starts events
  /-- Every analysis is then asked to stop, whatever became of it, and nobody else is. -/
  cancels : ∀ e r' n, r.step? e = some r' → GivesUp r r' n →
    r.runners.length = r.total ∧ r'.runners = r.runners ∧
      (∀ x ∈ r.runners, r'.scopes.ownReason? x.scope =
        (r.scopes.ownReason? x.scope).or (some forcedReason)) ∧
      ∀ id, (∀ x ∈ r.runners, x.scope ≠ id) → r'.scopes.ownReason? id = r.scopes.ownReason? id
  /-- Apart from that the supervisor asks nobody to stop. -/
  silent : ∀ e r', r.step? e = some r' → e.supervises = true → (∀ n, ¬ GivesUp r r' n) →
    r'.scopes = r.scopes
  /-- After a request it waits in vain twice at most, whatever comes in between. -/
  patience : ∀ before after q, events = before ++ after → first.replay? before = some q →
    q.IsStopping → timeouts after ≤ 2 ∧ (timeouts after = 2 → ¬ r.IsWaiting)
  /-- If the request came before it started, it waits in vain once at most. -/
  prompt : ∀ before after q started, events = before ++ after → first.replay? before = some q →
    q.IsStopping → q.phase = .settingUp started →
      timeouts after ≤ 1 ∧ (timeouts after = 1 → ¬ r.IsWaiting)
  /-- It never waits for ever, nor for a notice that nobody is going to leave. -/
  progress : r.IsWaiting → (∃ r', r.step? .timeout = some r') ∧ 0 < r.notices + r.active
  /-- Without a request it ends only when no completion is outstanding. -/
  complete : ∀ s, r.phase = .supervising s → s.isWaiting = false → ¬ r.IsStopping →
    s = .complete ∧ receipts events = starts events

/-- The supervisor keeps to its rules in every run. -/
theorem supervised_of_replay {scopes : Scopes} {caller : ScopeId} {total : Nat}
    (h : (Race.start scopes caller total).replay? events = some r) :
    Supervised (.start scopes caller total) events r := by
  have hstart : Attended (.start scopes caller total) [] (.start scopes caller total : Race ρ) :=
    .start scopes caller total
  have hattended : Attended (.start scopes caller total) events r := hstart.replay h
  have hleft : ∀ before after q, events = before ++ after →
      (Race.start scopes caller total).replay? before = some q → q.IsStopping →
        timeouts after + r.phase.waitsLeft ≤ q.phase.waitsLeft := by
    intro before after q hevents hq hstop
    subst hevents
    obtain ⟨q', hq', hafter⟩ := replay?_append h
    rw [hq, Option.some.injEq] at hq'
    subst hq'
    exact timeouts_add_waitsLeft_le (hstart.replay hq).housed hstop hafter
  constructor
  case force =>
    intro e r' n hs hgives
    obtain ⟨rfl, hphase, _⟩ := hgives.of_moves (moves_of_step? hs)
    exact ⟨rfl, (hattended.remembers.seen _ _ hphase).1 rfl, hattended.balanced.waits _ _ hphase,
      hattended.awaits.counted n (by rw [outstanding?, hphase])⟩
  case cancels =>
    intro e r' n hs hgives
    obtain ⟨_, hphase, hscopes, hrunners⟩ := hgives.of_moves (moves_of_step? hs)
    refine ⟨hattended.housed.full _ hphase, hrunners, fun x hx => ?_, fun id hid => ?_⟩
    · rw [hscopes]
      exact Scopes.ownReason?_foldl_request_of_mem ⟨x, hx, rfl⟩ (hattended.housed.scopes x hx)
    · rw [hscopes]
      exact Scopes.ownReason?_foldl_request_of_ne hid
  case silent => exact fun e r' hs => scopes_of_supervises (moves_of_step? hs)
  case patience =>
    intro before after q hevents hq hstop
    have hle := hleft before after q hevents hq hstop
    have htwo : q.phase.waitsLeft ≤ 2 := by
      unfold Phase.waitsLeft
      split <;> omega
    refine ⟨by omega, fun htimeouts hwaiting => ?_⟩
    have hone := hwaiting.one_le_waitsLeft
    omega
  case prompt =>
    intro before after q started hevents hq hstop hphase
    have hle := hleft before after q hevents hq hstop
    rw [hphase] at hle
    have hone : (Phase.settingUp started : Phase ρ).waitsLeft = 1 := rfl
    refine ⟨by omega, fun htimeouts hwaiting => ?_⟩
    have hmore := hwaiting.one_le_waitsLeft
    omega
  case progress =>
    rintro ⟨n, seen, hphase⟩
    have hpositive := hattended.balanced.waits n seen hphase
    have hsum := hattended.balanced.sums n (by rw [outstanding?, hphase])
    refine ⟨⟨r.expire (.waiting n seen), ?_⟩, by omega⟩
    simp [step?, hphase, Supervision.isWaiting]
  case complete =>
    intro s hphase hwaiting hstop
    cases s with
    | waiting => cases hwaiting
    | complete =>
      have hcount := hattended.awaits.counted 0 (by rw [outstanding?, hphase])
      exact ⟨rfl, by omega⟩
    | forced n =>
      have hgave : r.givenUp? = some n := by rw [givenUp?, hphase]; rfl
      exact absurd (isStopping_of_noticed h (hattended.remembers.gaveUp n hgave)) hstop

/-- The caller asks to stop while two analyses are at work. One of them ends, the other one does
not; a third one was skipped. -/
def losingPatience : List (Event Nat) :=
  [.setUp .started, .setUp (.skipped (.interrupted ⟨"limit"⟩)), .setUp .started, .supervise,
    .timeout, .cancel 0 "enough", .timeout, .finish 0 .crashed 10, .depart 0, .receive, .timeout]

theorem supervised_of_replay_losingPatience :
    ∃ r, (start (.addRoot .empty) 0 3).replay? losingPatience = some r ∧ r.givenUp? = some 1 ∧
      r.runners.map (fun x => r.scopes.ownReason? x.scope) =
        [some forcedReason, some forcedReason, some forcedReason] ∧
      Supervised (start (.addRoot .empty) 0 3) losingPatience r :=
  ⟨_, rfl, rfl, rfl, supervised_of_replay rfl⟩

end Race
end Portfolio
end StateSpace
