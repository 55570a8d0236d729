import Mathlib.Data.List.Nodup
import StateSpace.Proofs.Portfolio.Outcome
import StateSpace.Proofs.Portfolio.Patience

/-!
# StateSpace.Proofs.Portfolio.Notices

Whose notices the supervisor of a portfolio has received.

A notice says which analysis it comes from, and notices are received in the order in which they
were left. An analysis that nobody could do the work of leaves one too, as its work is given up
before it began. The supervisor does not wait for such a notice, but it counts it when it comes.

* `begun`, `left`, `received`, `awaited`, `strays`: the analyses that were started, the notices that
  were left and received, the started analyses that no notice was received of, and the received
  notices of analyses that were not started.
* `Ledger`: these agree with the stages of the analyses. Every step keeps this (`Ledger.step`).
* `Recorded`: the ledger of a run, with what the supervisor counts.
* `Accounted`: the count of the supervisor falls short of the awaited analyses by the strays. Where
  there are none it is exact, and no result is missed.
* `strayed_miscounts`: with a stray notice the supervisor ends too early, and a result is lost.
-/

namespace StateSpace
namespace Portfolio
namespace Race

variable {ρ : Type} {first r r' q : Race ρ} {e : Event ρ} {past events : List (Event ρ)}

/-- The analysis that is started. -/
def started? (r : Race ρ) : Event ρ → Option Nat
  | .setUp .started => some r.runners.length
  | _ => none

/-- The analysis that leaves its notice. -/
def leaver? (r : Race ρ) : Event ρ → Option Nat
  | .setUp (.refused _) => some r.runners.length
  | .depart place => some place
  | _ => none

/-- What the steps of a run tell, in order. -/
def collect (tell : Race ρ → Event ρ → Option Nat) (r : Race ρ) : List (Event ρ) → List Nat
  | [] => []
  | e :: rest =>
    match r.step? e with
    | some r' => (tell r e).toList ++ collect tell r' rest
    | none => []

def begun (first : Race ρ) (events : List (Event ρ)) : List Nat := first.collect started? events

def left (first : Race ρ) (events : List (Event ρ)) : List Nat := first.collect leaver? events

/-- Notices are received in the order in which they were left. -/
def received (first : Race ρ) (events : List (Event ρ)) : List Nat :=
  (first.left events).take (receipts events)

/-- The analyses that were started and that no notice was received of. -/
def awaited (first : Race ρ) (events : List (Event ρ)) : List Nat :=
  (first.begun events).filter (· ∉ first.received events)

/-- The received notices of analyses that were not started. -/
def strays (first : Race ρ) (events : List (Event ρ)) : List Nat :=
  (first.received events).filter (· ∉ first.begun events)

theorem collect_concat {tell : Race ρ → Event ρ → Option Nat}
    (h : first.replay? past = some r) (hs : r.step? e = some r') :
    first.collect tell (past ++ [e]) = first.collect tell past ++ (tell r e).toList := by
  induction past generalizing first with
  | nil =>
    cases h
    simp [collect, hs]
  | cons e' rest ih =>
    obtain ⟨next, hnext, hrest⟩ := replay?_cons h
    simp only [List.cons_append, collect, hnext, ih hrest, List.append_assoc]

/-! ## Lists without repetition -/

theorem nodup_concat {l : List Nat} {place : Nat} (h : l.Nodup) (hnew : place ∉ l) :
    (l ++ [place]).Nodup := by
  rw [← List.concat_eq_append]
  exact List.Nodup.concat hnew h

/-- What two lists have beyond each other makes up for the difference of their lengths. -/
theorem length_filter_not_mem {a b : List Nat} (ha : a.Nodup) (hb : b.Nodup) :
    (a.filter (· ∉ b)).length + b.length = (b.filter (· ∉ a)).length + a.length := by
  have hcommon : (a.filter (· ∈ b)).Perm (b.filter (· ∈ a)) := by
    rw [List.perm_ext_iff_of_nodup (ha.filter _) (hb.filter _)]
    intro x
    simp [and_comm]
  have hsplit : ∀ l l' : List Nat,
      l.length = (l.filter (· ∈ l')).length + (l.filter (· ∉ l')).length := by
    intro l l'
    rw [List.length_eq_length_filter_add (· ∈ l')]
    simp
  have hleft := hsplit a b
  have hright := hsplit b a
  have hlength := hcommon.length_eq
  omega

/-! ## The ledger -/

/-- The analysis was started. -/
def HasBegun (r : Race ρ) (place : Nat) : Prop :=
  ∃ stage, r.stage? place = some stage ∧ stage ≠ .absent

/-- What was begun and left agrees with the stages of the analyses. -/
structure Ledger (begun left : List Nat) (received refused : Nat) (r : Race ρ) : Prop where
  begunOnce : begun.Nodup
  begun_iff : ∀ place, place ∈ begun ↔ r.HasBegun place
  leftOnce : left.Nodup
  left_iff : ∀ place ∈ begun, place ∈ left ↔ r.stage? place = some .gone
  known : ∀ place ∈ left, place < r.runners.length
  queued : left.length = received + r.notices
  faithful : refused = 0 → ∀ place ∈ left, place ∈ begun

namespace Ledger

variable {begun left : List Nat} {received refused place : Nat} {before after stage : Stage}

theorem hasBegun_enter {other : Nat} :
    (r.enter stage).HasBegun other ↔
      (other = r.runners.length ∧ stage ≠ .absent) ∨ r.HasBegun other := by
  simp only [HasBegun, stage?_enter]
  by_cases heq : other = r.runners.length
  · subst heq
    simp [stage?]
  · simp [heq]

theorem hasBegun_setStage (h : r.stage? place = some before) (hbefore : before ≠ .absent)
    (hafter : after ≠ .absent) {other : Nat} :
    (r.setStage place after).HasBegun other ↔ r.HasBegun other := by
  simp only [HasBegun, stage?_setStage]
  by_cases heq : place = other
  · subst heq
    simp [h, hbefore, hafter]
  · simp [heq]

theorem start (scopes : Scopes) (caller : ScopeId) (total : Nat) :
    Ledger [] [] 0 0 (.start scopes caller total : Race ρ) where
  begunOnce := .nil
  begun_iff place := by simp [HasBegun, Race.start, stage?]
  leftOnce := .nil
  left_iff place h := by cases h
  known place h := by cases h
  queued := rfl
  faithful _ place h := by cases h

theorem congr (h : Ledger begun left received refused r) (hrunners : r'.runners = r.runners)
    (hnotices : r'.notices = r.notices) : Ledger begun left received refused r' := by
  have hstage : r'.stage? = r.stage? := by
    funext place
    rw [stage?, hrunners, stage?]
  have hbegun : r'.HasBegun = r.HasBegun := by
    funext place
    rw [HasBegun, hstage, HasBegun]
  exact { h with
    begun_iff := by rw [hbegun]; exact h.begun_iff
    left_iff := by rw [hstage]; exact h.left_iff
    known := by rw [hrunners]; exact h.known
    queued := by rw [hnotices]; exact h.queued }

theorem not_hasBegun_length : ¬ r.HasBegun r.runners.length := by
  simp [HasBegun, stage?]

theorem length_not_mem_begun (h : Ledger begun left received refused r) :
    r.runners.length ∉ begun := fun hmem => not_hasBegun_length ((h.begun_iff _).1 hmem)

theorem length_not_mem_left (h : Ledger begun left received refused r) :
    r.runners.length ∉ left := fun hmem => Nat.lt_irrefl _ (h.known _ hmem)

/-- The analysis that is set up next has left nothing before. -/
theorem left_iff_enter (h : Ledger begun left received refused r) {other : Nat}
    (hother : other ∈ begun) : other ∈ left ↔ (r.enter stage).stage? other = some .gone := by
  have hne : other ≠ r.runners.length := fun heq => h.length_not_mem_begun (heq ▸ hother)
  rw [stage?_enter, if_neg hne]
  exact h.left_iff other hother

theorem known_enter (h : Ledger begun left received refused r) {other : Nat}
    (hother : other ∈ left) : other < (r.enter stage).runners.length := by
  rw [enter, List.length_append]
  exact Nat.lt_succ_of_lt (h.known other hother)

/-- An analysis is set up that is not started, and that leaves no notice. -/
theorem skip (h : Ledger begun left received refused r) :
    Ledger begun left received refused (r.enter .absent) := { h with
  begun_iff := by simpa [hasBegun_enter] using h.begun_iff
  left_iff := fun _ => h.left_iff_enter
  known := fun _ => h.known_enter }

theorem begin (h : Ledger begun left received refused r) :
    Ledger (begun ++ [r.runners.length]) left received refused (r.enter .running) where
  begunOnce := nodup_concat h.begunOnce h.length_not_mem_begun
  begun_iff other := by simp [hasBegun_enter, h.begun_iff other, or_comm]
  leftOnce := h.leftOnce
  left_iff other hother := by
    rcases List.mem_append.1 hother with hother | hother
    · exact h.left_iff_enter hother
    · rw [List.mem_singleton.1 hother, stage?_enter, if_pos rfl]
      simp [h.length_not_mem_left]
  known _ := h.known_enter
  queued := h.queued
  faithful hnone other hother := List.mem_append_left _ (h.faithful hnone other hother)

/-- The notice of an analysis that was not started. -/
theorem refuse (h : Ledger begun left received refused r) :
    Ledger begun (left ++ [r.runners.length]) received (refused + 1)
      { r.enter .absent with notices := r.notices + 1 } where
  begunOnce := h.begunOnce
  begun_iff := h.skip.begun_iff
  leftOnce := nodup_concat h.leftOnce h.length_not_mem_left
  left_iff other hother := by
    have hne : other ≠ r.runners.length := fun heq => h.length_not_mem_begun (heq ▸ hother)
    rw [List.mem_append, List.mem_singleton, or_iff_left hne]
    exact h.left_iff_enter hother
  known other hother := by
    rcases List.mem_append.1 hother with hother | hother
    · exact h.known_enter hother
    · rw [List.mem_singleton.1 hother]
      simp [enter]
  queued := by rw [List.length_append, h.queued]; rfl
  faithful hnone := by cases hnone

theorem known_setStage (h : Ledger begun left received refused r) {other : Nat}
    (hother : other ∈ left) : other < (r.setStage place after).runners.length := by
  rw [setStage, List.length_modify]
  exact h.known other hother

/-- An analysis at work that stays so. -/
theorem move (h : Ledger begun left received refused r) (after : Stage)
    (hstage : r.stage? place = some before) (hbefore : before.isActive = true)
    (hafter : after.isActive = true) :
    Ledger begun left received refused (r.setStage place after) := { h with
  begun_iff := by
    intro other
    rw [hasBegun_setStage hstage (by rintro rfl; cases hbefore) (by rintro rfl; cases hafter)]
    exact h.begun_iff other
  left_iff := by
    intro other hother
    rw [h.left_iff other hother, stage?_setStage]
    split
    · rename_i heq
      subst heq
      rw [hstage]
      cases before <;> cases after <;> simp_all [Stage.isActive]
    · rfl
  known := fun _ => h.known_setStage }

theorem depart (h : Ledger begun left received refused r)
    (hstage : r.stage? place = some .leaving) :
    Ledger begun (left ++ [place]) received refused
      { r.setStage place .gone with notices := r.notices + 1 } := by
  have hbegun : place ∈ begun := (h.begun_iff place).2 ⟨.leaving, hstage, by decide⟩
  have hnew : place ∉ left := by
    rw [h.left_iff place hbegun, hstage]
    decide
  have hknown : place < r.runners.length := by
    rw [stage?, Option.map_eq_some_iff] at hstage
    obtain ⟨x, hx, _⟩ := hstage
    exact (List.getElem?_eq_some_iff.1 hx).1
  constructor
  case begunOnce => exact h.begunOnce
  case begun_iff =>
    intro other
    rw [h.begun_iff other]
    exact (hasBegun_setStage hstage (by decide) (by decide)).symm
  case leftOnce => exact nodup_concat h.leftOnce hnew
  case left_iff =>
    intro other hother
    have hsame : other ∈ left ↔ r.stage? other = some .gone := h.left_iff other hother
    show _ ↔ (r.setStage place .gone).stage? other = some .gone
    rw [List.mem_append, List.mem_singleton, hsame, stage?_setStage]
    by_cases heq : place = other
    · subst heq
      simp [hstage]
    · simp [heq, Ne.symm heq]
  case known =>
    intro other hother
    rcases List.mem_append.1 hother with hother | hother
    · exact h.known_setStage hother
    · rw [List.mem_singleton.1 hother]
      simpa [setStage] using hknown
  case queued => rw [List.length_append, h.queued]; rfl
  case faithful =>
    intro hnone other hother
    rcases List.mem_append.1 hother with hother | hother
    · exact h.faithful hnone other hother
    · rw [List.mem_singleton.1 hother]
      exact hbegun

theorem receive (h : Ledger begun left received refused r) (hnotices : 0 < r.notices)
    {phase : Phase ρ} :
    Ledger begun left (received + 1) refused
      { r with notices := r.notices - 1, phase } := { h with
  queued := by
    have hqueued := h.queued
    show left.length = received + 1 + (r.notices - 1)
    omega }

theorem step (h : Ledger begun left received refused r) (hm : Moves r e r') :
    Ledger (begun ++ (r.started? e).toList) (left ++ (r.leaver? e).toList)
      (received + if e.isReceipt then 1 else 0) (refused + if e.isRefusal then 1 else 0) r' := by
  -- A step that starts nobody, and that no notice is left or received with.
  have hplain : ∀ {r' : Race ρ}, r.started? e = none → r.leaver? e = none → e.isReceipt = false →
      e.isRefusal = false → Ledger begun left received refused r' →
        Ledger (begun ++ (r.started? e).toList) (left ++ (r.leaver? e).toList)
          (received + if e.isReceipt then 1 else 0)
          (refused + if e.isRefusal then 1 else 0) r' := by
    intro r' hstarted hleaver hreceipt hrefusal h'
    simpa [hstarted, hleaver, hreceipt, hrefusal] using h'
  cases hm with
  | skip => exact hplain rfl rfl rfl rfl (h.skip.congr rfl rfl)
  | begin =>
    simp only [started?, leaver?, Option.toList_none, Option.toList_some, List.append_nil]
    exact h.begin.congr rfl rfl
  | refuse =>
    simp only [started?, leaver?, Option.toList_none, Option.toList_some, List.append_nil]
    exact h.refuse.congr rfl rfl
  | supervise => exact hplain rfl rfl rfl rfl (h.congr rfl rfl)
  | win hstage =>
    have hmove := h.move .winning hstage rfl rfl
    exact hplain rfl rfl rfl rfl (hmove.congr rfl rfl)
  | lose hstage =>
    have hmove := h.move .leaving hstage rfl rfl
    exact hplain rfl rfl rfl rfl (hmove.congr rfl rfl)
  | announce hstage =>
    have hmove := h.move .leaving hstage rfl rfl
    exact hplain rfl rfl rfl rfl (hmove.congr rfl rfl)
  | depart hstage =>
    simp only [started?, leaver?, Option.toList_none, Option.toList_some, List.append_nil]
    exact h.depart hstage
  | receive _ hnotices =>
    simp only [started?, leaver?, Option.toList_none, List.append_nil]
    exact h.receive hnotices
  | wait => exact hplain rfl rfl rfl rfl (h.congr rfl rfl)
  | force => exact hplain rfl rfl rfl rfl (h.congr rfl rfl)
  | take => exact hplain rfl rfl rfl rfl (h.congr rfl rfl)
  | cancel => exact hplain rfl rfl rfl rfl (h.congr rfl rfl)

end Ledger

/-! ## Runs -/

/-- A run with its ledger. -/
structure Recorded (first : Race ρ) (past : List (Event ρ)) (r : Race ρ) : Prop where
  attended : Attended first past r
  ledger : Ledger (first.begun past) (first.left past) (receipts past) (refusals past) r
  counted : (first.begun past).length = starts past

namespace Recorded

theorem start (scopes : Scopes) (caller : ScopeId) (total : Nat) :
    Recorded (.start scopes caller total) [] (.start scopes caller total : Race ρ) :=
  ⟨.start scopes caller total, .start scopes caller total, rfl⟩

theorem length_started? : (r.started? e).toList.length = if e.isStart then 1 else 0 := by
  cases e with
  | setUp outcome => cases outcome <;> rfl
  | _ => rfl

theorem step (h : Recorded first past r) (hs : r.step? e = some r') :
    Recorded first (past ++ [e]) r' := by
  have hrun := h.attended.run
  refine ⟨h.attended.step hs, ?_, ?_⟩
  · rw [begun, left, collect_concat hrun hs, collect_concat hrun hs, receipts_concat,
      refusals_concat]
    exact h.ledger.step (moves_of_step? hs)
  · rw [begun, collect_concat hrun hs, List.length_append, length_started?, starts_concat]
    exact congrArg (· + _) h.counted

theorem replay (h : Recorded first past r) (hr : r.replay? events = some r') :
    Recorded first (past ++ events) r' :=
  replay?_induction (fun _ _ _ _ h hs => h.step hs) past h hr

/-! ## The count -/

theorem length_received (h : Recorded first past r) :
    (first.received past).length = receipts past := by
  have hqueued := h.ledger.queued
  rw [received, List.length_take]
  omega

theorem count (h : Recorded first past r) {n : Nat} (hn : n + receipts past = starts past) :
    n + (first.strays past).length = (first.awaited past).length := by
  have hreceived : (first.received past).Nodup :=
    h.ledger.leftOnce.sublist (List.take_sublist _ _)
  have hdifference : (first.awaited past).length + (first.received past).length =
      (first.strays past).length + (first.begun past).length :=
    length_filter_not_mem h.ledger.begunOnce hreceived
  have hlength := h.length_received
  have hcounted := h.counted
  omega

theorem strays_eq_nil (h : Recorded first past r) (hnone : refusals past = 0) :
    first.strays past = [] := by
  rw [strays, List.filter_eq_nil_iff]
  intro place hplace
  have hbegun := h.ledger.faithful hnone place (List.mem_of_mem_take hplace)
  simpa using hbegun

/-- Once nothing is outstanding, as many analyses are awaited as there were strays. -/
theorem length_awaited (h : Recorded first past r) (hphase : r.phase = .supervising .complete) :
    (first.awaited past).length = (first.strays past).length := by
  have hcount := h.count (h.attended.awaits.counted 0 (by rw [outstanding?, hphase]))
  omega

theorem gone_of_complete (h : Recorded first past r) (hphase : r.phase = .supervising .complete)
    (hnone : first.strays past = []) :
    ∀ place ∈ first.begun past, r.stage? place = some .gone := by
  intro place hplace
  have hlength := h.length_awaited hphase
  rw [hnone, List.length_nil, List.length_eq_zero_iff, awaited, List.filter_eq_nil_iff] at hlength
  have hreceived : place ∈ first.received past := by simpa using hlength place hplace
  exact (h.ledger.left_iff place hplace).1 (List.mem_of_mem_take hreceived)

theorem deserted (h : Recorded first past r) (hphase : r.phase = .supervising .complete)
    (hnone : first.strays past = []) : Deserted r := by
  refine ⟨List.countP_eq_zero.2 fun x hx => ?_, fun started hs => ?_⟩
  · obtain ⟨place, hplace⟩ := List.mem_iff_getElem?.1 hx
    have hstage : r.stage? place = some x.stage := by rw [stage?, hplace]; rfl
    by_cases habsent : x.stage = .absent
    · simp [habsent, Stage.isActive]
    · have hbegun := (h.ledger.begun_iff place).2 ⟨x.stage, hstage, habsent⟩
      have hgone := h.gone_of_complete hphase hnone place hbegun
      rw [hstage, Option.some.injEq] at hgone
      simp [hgone, Stage.isActive]
  · cases hphase.symm.trans hs

end Recorded

structure Accounted (first : Race ρ) (events : List (Event ρ)) (r : Race ρ) : Prop where
  /-- The count of the supervisor falls short of the awaited analyses by the strays. -/
  count : ∀ n, r.outstanding? = some n ∨ r.givenUp? = some n →
    n + (first.strays events).length = (first.awaited events).length
  /-- An analysis that could not be set up makes no difference, one that nobody could do the work
  of may. -/
  faithful : refusals events = 0 → first.strays events = []
  /-- Where no stray was received, the supervisor that does not lose patience ends only after every
  started analysis. -/
  gone : r.phase = .supervising .complete → first.strays events = [] →
    ∀ place, r.HasBegun place → r.stage? place = some .gone
  /-- It then misses no result. -/
  winner : ∀ before after q, events = before ++ .take :: after → first.replay? before = some q →
    q.phase = .supervising .complete → first.strays before = [] →
      r.winner? = events.findSome? Event.offer?
  /-- Otherwise it leaves behind as many analyses as there were strays. -/
  behind : r.phase = .supervising .complete →
    (first.awaited events).length = (first.strays events).length

theorem accounted_of_replay {scopes : Scopes} {caller : ScopeId} {total : Nat}
    (h : (Race.start scopes caller total).replay? events = some r) :
    Accounted (.start scopes caller total) events r := by
  have hstart : Recorded (.start scopes caller total) [] (.start scopes caller total : Race ρ) :=
    .start scopes caller total
  have hrecorded : Recorded (.start scopes caller total) events r := hstart.replay h
  constructor
  case count =>
    rintro n (hn | hn)
    · exact hrecorded.count (hrecorded.attended.awaits.counted n hn)
    · exact hrecorded.count (hrecorded.attended.awaits.gaveUp n hn).2
  case faithful => exact hrecorded.strays_eq_nil
  case gone =>
    intro hphase hnone place hplace
    have hbegun := (hrecorded.ledger.begun_iff place).2 hplace
    exact hrecorded.gone_of_complete hphase hnone place hbegun
  case winner =>
    intro before after q hevents hq hphase hnone
    subst hevents
    obtain ⟨q', hq', hr⟩ := replay?_append h
    rw [hq, Option.some.injEq] at hq'
    subst hq'
    have htracks : Tracks (before ++ .take :: after) r :=
      (Tracks.start scopes caller total).replay h
    rw [winner?, (htracks.finished (List.mem_append_right _ List.mem_cons_self)).2]
    exact firstOffer?_of_deserted hq hr hphase ((hstart.replay hq).deserted hphase hnone)
  case behind => exact hrecorded.length_awaited

/-- An analysis has ended before nobody can do the work of the other one. The notice of the former
is received, that of the latter is not. -/
def endedInTime : List (Event Nat) :=
  [.setUp .started, .finish 0 (.finished .soundAndPrecise) 10, .announce 0, .depart 0,
    .setUp (.refused "no thread"), .supervise, .receive, .take]

theorem accounted_of_replay_endedInTime :
    ∃ r, (start .empty 0 2).replay? endedInTime = some r ∧
      (start .empty 0 2).left endedInTime = [0, 1] ∧
      r.winner? = some ⟨1, "Parallel analysis 1", 10⟩ ∧
      Accounted (start .empty 0 2) endedInTime r :=
  ⟨_, rfl, rfl, rfl, accounted_of_replay rfl⟩

/-- Nobody can do the work of the second analysis, and its notice is received while the first one
is at work. -/
def strayed : List (Event Nat) :=
  [.setUp .started, .setUp (.refused "no thread"), .supervise, .receive, .take,
    .finish 0 (.finished .soundAndPrecise) 10, .depart 0]

/-- The supervisor ends although it awaits the first analysis, and its result is lost. -/
theorem strayed_miscounts :
    (∃ q, (start .empty 0 2).replay? (strayed.take 4) = some q ∧
      q.phase = .supervising .complete ∧ q.outstanding? = some 0 ∧
      (start .empty 0 2).awaited (strayed.take 4) = [0] ∧ q.stage? 0 = some .running) ∧
    ∃ r, (start .empty 0 2).replay? strayed = some r ∧ r.winner? = none ∧
      strayed.findSome? Event.offer? = some ⟨1, "Parallel analysis 1", 10⟩ :=
  ⟨⟨_, rfl, rfl, rfl, by decide, rfl⟩, _, rfl, rfl, rfl⟩

end Race
end Portfolio
end StateSpace
