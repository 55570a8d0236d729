import StateSpace.Proofs.Portfolio.Accounting

/-!
# StateSpace.Proofs.Portfolio.Outcome

Who wins a portfolio, whatever the order in which its parties take their steps.

* `firstOffer?`: the first result that is offered before the winner is taken.
* `Tracks`: the podium, the phase and the scope of the portfolio follow from the steps that were
  taken. Every step keeps this (`Tracks.step`).
* `commits`: the results that are committed in the course of a run.
* `Decided`: the first result that is offered in time is the only one that is committed; it is the
  winner, and only the analysis it belongs to asks the portfolio to stop.
-/

namespace StateSpace
namespace Portfolio
namespace Race

variable {ρ : Type} {r r' : Race ρ} {e : Event ρ} {events : List (Event ρ)}

def Event.isTake : Event ρ → Bool
  | .take => true
  | _ => false

/-- The first result that is offered before the winner is taken. -/
def firstOffer? (events : List (Event ρ)) : Option (Winner ρ) :=
  (events.takeWhile fun e => !e.isTake).findSome? Event.offer?

def podiumOf : Option (Winner ρ) → Podium ρ
  | none => .vacant
  | some w => .held w

/-- What the analysis at a place asks the portfolio to stop with. -/
def farewell (place : Nat) : String := s!"{nameOf (place + 1)} finished successfully."

/-! ## The first result -/

section Offers

theorem isTake_eq_true_iff : e.isTake = true ↔ e = .take := by
  cases e <;> simp [Event.isTake]

theorem firstOffer?_append (h : .take ∉ events) (late : List (Event ρ)) :
    firstOffer? (events ++ late) = (events.findSome? Event.offer?).or (firstOffer? late) := by
  have hall : ∀ e ∈ events, (!e.isTake) = true := by
    intro e he
    rw [Bool.not_eq_true', ← Bool.not_eq_true, isTake_eq_true_iff]
    rintro rfl
    exact h he
  rw [firstOffer?, List.takeWhile_append_of_pos hall, List.findSome?_append]
  rfl

theorem firstOffer?_of_not_taken (h : .take ∉ events) :
    firstOffer? events = events.findSome? Event.offer? := by
  have hfirst := firstOffer?_append h []
  rw [List.append_nil] at hfirst
  rw [hfirst]
  exact Option.or_none

/-- Only the steps before the first take count. -/
theorem firstOffer?_of_taken (h : .take ∈ events) (late : List (Event ρ)) :
    firstOffer? (events ++ late) = firstOffer? events := by
  induction events with
  | nil => cases h
  | cons e rest ih =>
    cases he : e.isTake with
    | true => simp [firstOffer?, he]
    | false =>
      have hne : Event.take ≠ e := by
        rintro rfl
        cases he
      have hrest := ih ((List.mem_cons.1 h).resolve_left hne)
      simp only [firstOffer?, List.cons_append, List.takeWhile_cons, he, Bool.not_false, if_true,
        List.findSome?_cons] at hrest ⊢
      rw [hrest]

/-- A step that offers nothing, or comes too late, makes no difference. -/
theorem firstOffer?_late
    (h : .take ∈ events ∨ e.offer? = none ∨ (firstOffer? events).isSome = true) :
    firstOffer? (events ++ [e]) = firstOffer? events := by
  by_cases ht : .take ∈ events
  · exact firstOffer?_of_taken ht [e]
  · rw [firstOffer?_append ht, firstOffer?_of_not_taken ht]
    rcases h.resolve_left ht with hnone | hsome
    · cases he : e.isTake <;> simp [firstOffer?, he, hnone]
    · rw [firstOffer?_of_not_taken ht] at hsome
      obtain ⟨w, hw⟩ := Option.isSome_iff_exists.1 hsome
      rw [hw]
      rfl

theorem firstOffer?_win {w : Winner ρ} (h : .take ∉ events) (hnone : firstOffer? events = none)
    (hw : e.offer? = some w) : firstOffer? (events ++ [e]) = some w := by
  have hne : e.isTake = false := by
    cases e with
    | finish place ending reached => rfl
    | _ => cases hw
  rw [firstOffer?_of_not_taken h] at hnone
  rw [firstOffer?_append h, hnone]
  simp [firstOffer?, hne, hw]

end Offers

/-! ## What every step keeps -/

structure Tracks (events : List (Event ρ)) (r : Race ρ) : Prop where
  placed : r.portfolio < r.scopes.size
  apart : ∀ x ∈ r.runners, x.scope ≠ r.portfolio
  ongoing : .take ∉ events →
    r.podium = podiumOf (firstOffer? events) ∧ ∀ w, r.phase ≠ .finished w
  finished : .take ∈ events → r.podium = .closed ∧ r.phase = .finished (firstOffer? events)
  winning : ∀ place, r.stage? place = some .winning →
    ∃ reached, firstOffer? events = some (result place reached)
  announced : ∀ place, .announce place ∈ events →
    ∃ reached, firstOffer? events = some (result place reached)
  reason : ∀ text, r.scopes.ownReason? r.portfolio = some text →
    ∃ place reached, firstOffer? events = some (result place reached) ∧ text = farewell place

/-- What a step leaves alone that neither commits a result nor takes the winner. -/
structure Keeps (r r' : Race ρ) : Prop where
  portfolio : r'.portfolio = r.portfolio
  placed : r.portfolio < r.scopes.size → r.portfolio < r'.scopes.size
  apart : ∀ x ∈ r'.runners, x.scope = r.scopes.size ∨ ∃ y ∈ r.runners, y.scope = x.scope
  podium : r'.podium = r.podium
  phase : ∀ w, r'.phase = .finished w ↔ r.phase = .finished w
  winning : ∀ place, r'.stage? place = some .winning → r.stage? place = some .winning
  reason : ∀ text, r'.scopes.ownReason? r.portfolio = some text →
    r.scopes.ownReason? r.portfolio = some text ∨
      ∃ place, r.stage? place = some .winning ∧ text = farewell place

/-- Such a step needs no more than that the first result stays the same. -/
theorem Tracks.keep (h : Tracks events r) (hk : Keeps r r') (hne : e ≠ .take)
    (ha : ∀ place, e = .announce place → r.stage? place = some .winning)
    (hfirst : firstOffer? (events ++ [e]) = firstOffer? events) : Tracks (events ++ [e]) r' := by
  have htaken : .take ∈ events ++ [e] ↔ .take ∈ events := by
    simp [Ne.symm hne]
  constructor
  case placed =>
    rw [hk.portfolio]
    exact hk.placed h.placed
  case apart =>
    intro x hx
    rw [hk.portfolio]
    rcases hk.apart x hx with hnew | ⟨y, hy, hscope⟩
    · rw [hnew]
      exact Nat.ne_of_gt h.placed
    · rw [← hscope]
      exact h.apart y hy
  case ongoing =>
    intro ht
    obtain ⟨hpodium, hphase⟩ := h.ongoing (mt htaken.2 ht)
    rw [hk.podium, hfirst]
    exact ⟨hpodium, fun w hw => hphase w ((hk.phase w).1 hw)⟩
  case finished =>
    intro ht
    obtain ⟨hpodium, hphase⟩ := h.finished (htaken.1 ht)
    rw [hk.podium, hfirst]
    exact ⟨hpodium, (hk.phase _).2 hphase⟩
  case winning =>
    intro place hplace
    rw [hfirst]
    exact h.winning place (hk.winning place hplace)
  case announced =>
    intro place hplace
    rw [hfirst]
    rcases List.mem_append.1 hplace with hplace | hlast
    · exact h.announced place hplace
    · exact h.winning place (ha place (List.mem_singleton.1 hlast).symm)
  case reason =>
    intro text htext
    rw [hk.portfolio] at htext
    rw [hfirst]
    rcases hk.reason text htext with hold | ⟨place, hplace, hnew⟩
    · exact h.reason text hold
    · obtain ⟨reached, hreached⟩ := h.winning place hplace
      exact ⟨place, reached, hreached, hnew⟩

theorem Tracks.start (scopes : Scopes) (caller : ScopeId) (total : Nat) :
    Tracks [] (.start scopes caller total : Race ρ) where
  placed := by simp [Race.start]
  apart x hx := by cases hx
  ongoing _ := ⟨rfl, fun w hw => by cases hw⟩
  finished ht := by cases ht
  winning place hplace := by simp [stage?, Race.start] at hplace
  announced place hplace := by cases hplace
  reason text htext := by
    have hnone : scopes.ownReason? scopes.size = none :=
      Scopes.ownReason?_of_size_le (Nat.le_refl _)
    rw [Race.start, Scopes.ownReason?_addChild, hnone] at htext
    cases htext

/-! ## Steps that keep everything -/

section Keeping

variable {place : Nat} {stage : Stage}

theorem Keeps.refl (r : Race ρ) : Keeps r r where
  portfolio := rfl
  placed h := h
  apart x hx := .inr ⟨x, hx, rfl⟩
  podium := rfl
  phase _ := Iff.rfl
  winning _ h := h
  reason _ h := .inl h

theorem winning_of_setStage {other : Nat} (hs : stage ≠ .winning)
    (h : (r.setStage place stage).stage? other = some .winning) :
    r.stage? other = some .winning := by
  rw [stage?_setStage] at h
  split at h
  · obtain ⟨_, _, heq⟩ := Option.map_eq_some_iff.1 h
    exact absurd heq hs
  · exact h

theorem keeps_setStage (hs : stage ≠ .winning) : Keeps r (r.setStage place stage) :=
  { Keeps.refl r with
    apart := fun _ hx => .inr (mem_setStage hx)
    winning := fun _ => winning_of_setStage hs }

theorem keeps_enter (hs : stage ≠ .winning) : Keeps r (r.enter stage) where
  portfolio := rfl
  placed h := by
    rw [enter, Scopes.size_addChild]
    exact Nat.lt_succ_of_lt h
  apart x hx := by
    rcases List.mem_append.1 hx with hx | hx
    · exact .inr ⟨x, hx, rfl⟩
    · rw [List.mem_singleton.1 hx]
      exact .inl rfl
  podium := rfl
  phase _ := Iff.rfl
  winning place h := by
    rw [stage?_enter] at h
    split at h
    · exact absurd (Option.some.inj h) hs
    · exact h
  reason text h := by
    simp only [enter, Scopes.ownReason?_addChild] at h
    exact .inl h

theorem keeps_request {scope : ScopeId} {reason : String} (h : scope ≠ r.portfolio) :
    Keeps r { r with scopes := r.scopes.request scope reason } :=
  { Keeps.refl r with
    placed := by
      intro hlt
      rw [Scopes.size_request]
      exact hlt
    reason := by
      intro text htext
      rw [Scopes.ownReason?_request_of_ne (Ne.symm h)] at htext
      exact .inl htext }

theorem keeps_cancelAll (h : ∀ x ∈ r.runners, x.scope ≠ r.portfolio) : Keeps r r.cancelAll :=
  { Keeps.refl r with
    placed := by
      intro hlt
      rw [cancelAll, Scopes.size_foldl_request]
      exact hlt
    reason := by
      intro text htext
      rw [cancelAll, Scopes.ownReason?_foldl_request_of_ne h] at htext
      exact .inl htext }

theorem keeps_announce (h : r.stage? place = some .winning) :
    Keeps r { r.setStage place .leaving with
      scopes := r.scopes.request r.portfolio (farewell place) } :=
  { Keeps.refl r with
    placed := by
      intro hlt
      rw [Scopes.size_request]
      exact hlt
    apart := fun _ hx => .inr (mem_setStage hx)
    winning := fun _ => winning_of_setStage (by decide)
    reason := fun text htext =>
      (Scopes.ownReason?_request htext).imp_right fun heq => ⟨place, h, heq⟩ }

end Keeping

/-! ## Runs -/

theorem Tracks.podium_of_offer (h : Tracks events r) (hlate : r.podium ≠ .vacant) :
    .take ∈ events ∨ (firstOffer? events).isSome = true := by
  by_cases ht : .take ∈ events
  · exact .inl ht
  · right
    rw [(h.ongoing ht).1] at hlate
    cases hfirst : firstOffer? events with
    | none =>
      rw [hfirst] at hlate
      exact absurd rfl hlate
    | some w => rfl

theorem Tracks.win {place : Nat} {ending : Analysis.Ending} {reached : ρ}
    {messages : List Message} (h : Tracks events r)
    (hoffer : Event.offer? (.finish place ending reached) = some (result place reached))
    (hvacant : r.podium = .vacant) :
    Tracks (events ++ [.finish place ending reached])
      { r.setStage place .winning with podium := .held (result place reached), messages } := by
  have ht : .take ∉ events := by
    intro ht
    rw [(h.finished ht).1] at hvacant
    cases hvacant
  obtain ⟨hpodium, hphase⟩ := h.ongoing ht
  have hnone : firstOffer? events = none := by
    cases hfirst : firstOffer? events with
    | none => rfl
    | some w =>
      rw [hvacant, hfirst] at hpodium
      cases hpodium
  have hfirst := firstOffer?_win ht hnone hoffer
  constructor
  case placed => exact h.placed
  case apart =>
    intro x hx
    obtain ⟨y, hy, hscope⟩ := mem_setStage hx
    rw [← hscope]
    exact h.apart y hy
  case ongoing =>
    intro _
    rw [hfirst]
    exact ⟨rfl, hphase⟩
  case finished =>
    intro ht'
    exact absurd ht' (by simp [ht])
  case winning =>
    intro other hother
    rw [hfirst]
    by_cases heq : other = place
    · exact ⟨reached, by rw [heq]⟩
    · have hold : r.stage? other = some .winning := by
        have hstage : (r.setStage place .winning).stage? other = some .winning := hother
        rwa [stage?_setStage, if_neg (Ne.symm heq)] at hstage
      obtain ⟨_, hw⟩ := h.winning other hold
      rw [hnone] at hw
      cases hw
  case announced =>
    intro other hother
    have hold : .announce other ∈ events := by simpa using hother
    obtain ⟨_, hw⟩ := h.announced other hold
    rw [hnone] at hw
    cases hw
  case reason =>
    intro text htext
    obtain ⟨_, _, hw, _⟩ := h.reason text htext
    rw [hnone] at hw
    cases hw

theorem Tracks.take {messages : List Message} {s : Supervision} (h : Tracks events r)
    (hphase : r.phase = .supervising s) :
    Tracks (events ++ [.take])
      { r with podium := .closed, phase := .finished r.podium.winner?, messages } := by
  have ht : .take ∉ events := by
    intro ht
    rw [(h.finished ht).2] at hphase
    cases hphase
  have hfirst : firstOffer? (events ++ [.take]) = firstOffer? events :=
    firstOffer?_late (.inr (.inl rfl))
  have hwinner : r.podium.winner? = firstOffer? events := by
    rw [(h.ongoing ht).1]
    cases firstOffer? events <;> rfl
  constructor
  case placed => exact h.placed
  case apart => exact h.apart
  case ongoing =>
    intro hnone
    simp at hnone
  case finished =>
    intro _
    rw [hfirst, hwinner]
    exact ⟨rfl, rfl⟩
  case winning =>
    rw [hfirst]
    exact h.winning
  case announced =>
    intro place hplace
    rw [hfirst]
    exact h.announced place (by simpa using hplace)
  case reason =>
    rw [hfirst]
    exact h.reason

theorem Tracks.step (h : Tracks events r) (hm : Moves r e r') : Tracks (events ++ [e]) r' := by
  have hsilent : e.offer? = none → firstOffer? (events ++ [e]) = firstOffer? events :=
    fun hnone => firstOffer?_late (.inr (.inl hnone))
  cases hm with
  | skip hphase _ =>
    have hk : Keeps r (r.enter .absent) := keeps_enter (by decide)
    exact h.keep { hk with } (by simp) (by simp) (hsilent rfl)
  | begin hphase _ =>
    have hk : Keeps r (r.enter .running) := keeps_enter (by decide)
    exact h.keep { hk with phase := by simp [hphase] } (by simp) (by simp) (hsilent rfl)
  | refuse hphase _ =>
    have hk : Keeps r (r.enter .absent) := keeps_enter (by decide)
    exact h.keep { hk with } (by simp) (by simp) (hsilent rfl)
  | supervise hphase _ =>
    exact h.keep { Keeps.refl r with phase := by simp [hphase] } (by simp) (by simp) (hsilent rfl)
  | win _ hoffer hvacant => exact h.win hoffer hvacant
  | @lose place ending reached _ hstage hlate =>
    have hk : Keeps r (r.setStage place .leaving) := keeps_setStage (by decide)
    refine h.keep { hk with } (by simp) (by simp) (firstOffer?_late ?_)
    cases hoffer : Event.offer? (.finish place ending reached) with
    | none => exact .inr (.inl rfl)
    | some w => exact (h.podium_of_offer (hlate w hoffer)).imp_right .inr
  | announce hstage =>
    refine h.keep (keeps_announce hstage) (by simp) ?_ (hsilent rfl)
    intro other heq
    cases heq
    exact hstage
  | @depart place hstage =>
    have hk : Keeps r (r.setStage place .gone) := keeps_setStage (by decide)
    exact h.keep { hk with } (by simp) (by simp) (hsilent rfl)
  | receive hphase _ =>
    exact h.keep { Keeps.refl r with phase := by simp [hphase] } (by simp) (by simp) (hsilent rfl)
  | wait hphase =>
    exact h.keep { Keeps.refl r with phase := by simp [hphase] } (by simp) (by simp) (hsilent rfl)
  | force hphase =>
    have hk : Keeps r r.cancelAll := keeps_cancelAll h.apart
    refine h.keep { hk with phase := ?_ } (by simp) (by simp) (hsilent rfl)
    simp [hphase, cancelAll]
  | take hphase _ => exact h.take hphase
  | cancel hne => exact h.keep (keeps_request hne) (by simp) (by simp) (hsilent rfl)

theorem Tracks.replay {past : List (Event ρ)} (h : Tracks past r)
    (hr : r.replay? events = some r') : Tracks (past ++ events) r' :=
  replay?_induction (fun _ _ _ _ h hs => h.step (moves_of_step? hs)) past h hr

/-! ## The outcome -/

/-- The result that came onto the vacant podium. -/
def committed? (r r' : Race ρ) : Option (Winner ρ) :=
  match r.podium, r'.podium with
  | .vacant, .held w => some w
  | _, _ => none

/-- The results that come onto the podium in the course of several steps, in order. -/
def commits (r : Race ρ) : List (Event ρ) → List (Winner ρ)
  | [] => []
  | e :: rest =>
    match r.step? e with
    | some r' => (r.committed? r').toList ++ r'.commits rest
    | none => []

structure Decided (start : Race ρ) (events : List (Event ρ)) (r : Race ρ) : Prop where
  /-- At most one result is committed: the first one that is offered in time. -/
  commits : start.commits events = (firstOffer? events).toList
  winner : .take ∈ events → r.phase = .finished (firstOffer? events)
  status : .take ∈ events → statusOf r.winner? =
    if (firstOffer? events).isSome then .soundAndPrecise else .unsoundAndPrecise
  /-- Only the analysis whose result was committed asks the portfolio to stop. -/
  announced : ∀ place, .announce place ∈ events →
    ∃ w ∈ start.commits events, w.position = place + 1
  reason : ∀ text, r.scopes.ownReason? r.portfolio = some text →
    ∃ w ∈ start.commits events, text = s!"{w.name} finished successfully."
  /-- An analysis that ends after the winner was taken changes nothing but its own stage. -/
  late : .take ∈ events → ∀ place ending reached r',
    r.step? (.finish place ending reached) = some r' →
      r' = { r with runners := r'.runners, messages := r'.messages } ∧
        r'.stage? place = some .leaving
  /-- A supervisor that never lost patience misses no result. -/
  complete : ∀ before after q, events = before ++ .take :: after →
    start.replay? before = some q → q.phase = .supervising .complete → refusals before = 0 →
      (∀ x ∈ q.runners, x.stage = .absent ∨ x.stage = .gone) ∧
        r.winner? = events.findSome? Event.offer?

section Outcome

variable {start : Race ρ} {past : List (Event ρ)}

theorem Tracks.committed (h : Tracks past r) (h' : Tracks (past ++ [e]) r') :
    (firstOffer? past).toList ++ (r.committed? r').toList =
      (firstOffer? (past ++ [e])).toList := by
  by_cases ht' : .take ∈ past ++ [e]
  · have hfirst : firstOffer? (past ++ [e]) = firstOffer? past := by
      rcases List.mem_append.1 ht' with ht | he
      · exact firstOffer?_late (.inl ht)
      · rw [← List.mem_singleton.1 he]
        exact firstOffer?_late (.inr (.inl rfl))
    have hclosed : r.committed? r' = none := by
      rw [committed?, (h'.finished ht').1]
      cases r.podium <;> rfl
    rw [hfirst, hclosed]
    exact List.append_nil _
  · have ht : .take ∉ past := fun ht => ht' (List.mem_append_left _ ht)
    cases hfirst : firstOffer? past with
    | none =>
      rw [committed?, (h.ongoing ht).1, (h'.ongoing ht').1, hfirst]
      cases firstOffer? (past ++ [e]) <;> rfl
    | some w =>
      have hsame := firstOffer?_late (e := e) (.inr (.inr (by rw [hfirst]; rfl)))
      rw [hsame, hfirst, committed?, (h.ongoing ht).1, hfirst]
      rfl

theorem Tracks.commits (h : Tracks past r) (hr : r.replay? events = some r') :
    (firstOffer? past).toList ++ r.commits events = (firstOffer? (past ++ events)).toList := by
  induction events generalizing r past with
  | nil => rw [Race.commits, List.append_nil, List.append_nil]
  | cons e rest ih =>
    obtain ⟨next, hnext, hrest⟩ := replay?_cons hr
    have hstep := h.step (moves_of_step? hnext)
    have hcommits := ih hstep hrest
    rw [← h.committed hstep, List.append_assoc, List.append_assoc] at hcommits
    simp only [Race.commits, hnext]
    exact hcommits

theorem Tracks.late (h : Tracks events r) (ht : .take ∈ events) {place : Nat}
    {ending : Analysis.Ending} {reached : ρ}
    (hs : r.step? (.finish place ending reached) = some r') :
    r' = { r with runners := r'.runners, messages := r'.messages } ∧
      r'.stage? place = some .leaving := by
  cases moves_of_step? hs with
  | win _ _ hvacant =>
    rw [(h.finished ht).1] at hvacant
    cases hvacant
  | lose hstage _ =>
    refine ⟨rfl, ?_⟩
    show (r.setStage place .leaving).stage? place = some .leaving
    rw [stage?_setStage, if_pos rfl, hstage]
    rfl

theorem firstOffer?_of_deserted {scopes : Scopes} {caller : ScopeId} {total : Nat}
    {before after : List (Event ρ)} {q : Race ρ}
    (hq : (Race.start scopes caller total).replay? before = some q)
    (hr : q.replay? (.take :: after) = some r) (hphase : q.phase = .supervising .complete)
    (hdeserted : Deserted q) :
    firstOffer? (before ++ .take :: after) =
      (before ++ .take :: after).findSome? Event.offer? := by
  have htracks := (Tracks.start scopes caller total).replay hq
  have ht : .take ∉ before := by
    intro ht
    have hfinished := (htracks.finished ht).2
    rw [hphase] at hfinished
    cases hfinished
  have hnone : (Event.take :: after).findSome? Event.offer? = none :=
    List.findSome?_eq_none_iff.2 (hdeserted.replay hr)
  rw [firstOffer?_append ht, List.findSome?_append, hnone]
  rfl

theorem complete_of_replay {scopes : Scopes} {caller : ScopeId} {total : Nat}
    {before after : List (Event ρ)} {q : Race ρ}
    (hq : (Race.start scopes caller total).replay? before = some q)
    (hr : q.replay? (.take :: after) = some r) (hphase : q.phase = .supervising .complete)
    (hrefused : refusals before = 0) :
    (∀ x ∈ q.runners, x.stage = .absent ∨ x.stage = .gone) ∧
      firstOffer? (before ++ .take :: after) =
        (before ++ .take :: after).findSome? Event.offer? := by
  have hbalanced := (Balanced.start scopes caller total).replay hq
  rw [hrefused] at hbalanced
  have hdeserted : Deserted q := hbalanced.deserted hphase
  exact ⟨stage_of_active hdeserted.idle, firstOffer?_of_deserted hq hr hphase hdeserted⟩

/-- In every run of a portfolio the first result that is offered in time wins. -/
theorem decided_of_replay {scopes : Scopes} {caller : ScopeId} {total : Nat}
    (h : (Race.start scopes caller total).replay? events = some r) :
    Decided (Race.start scopes caller total) events r := by
  have hstart : Tracks [] (Race.start scopes caller total : Race ρ) :=
    .start scopes caller total
  have htracks : Tracks events r := hstart.replay h
  have hcommits : (Race.start scopes caller total).commits events =
      (firstOffer? events).toList := hstart.commits h
  have hwinner : .take ∈ events → r.winner? = firstOffer? events := by
    intro ht
    rw [winner?, (htracks.finished ht).2]
  constructor
  case commits => exact hcommits
  case winner => exact fun ht => (htracks.finished ht).2
  case status =>
    intro ht
    rw [hwinner ht, statusOf]
  case announced =>
    intro place hplace
    obtain ⟨reached, hfirst⟩ := htracks.announced place hplace
    rw [hcommits, hfirst]
    exact ⟨_, List.mem_singleton_self _, rfl⟩
  case reason =>
    intro text htext
    obtain ⟨place, reached, hfirst, heq⟩ := htracks.reason text htext
    rw [hcommits, hfirst]
    exact ⟨_, List.mem_singleton_self _, heq⟩
  case late => exact fun ht _ _ _ _ hs => htracks.late ht hs
  case complete =>
    intro before after q hevents hq hphase hrefused
    subst hevents
    obtain ⟨q', hq', hr⟩ := replay?_append h
    rw [hq, Option.some.injEq] at hq'
    subst hq'
    rw [hwinner (List.mem_append_right _ List.mem_cons_self)]
    exact complete_of_replay hq hr hphase hrefused

end Outcome

/-- Two analyses come up with a result; the one that was set up last is faster. The second one of
four cannot be set up. -/
def photoFinish : List (Event Nat) :=
  [.setUp .started, .finish 0 (.finished .unsoundAndPrecise) 10,
    .setUp (.skipped (.interrupted ⟨"limit"⟩)), .setUp .started, .setUp .started, .supervise,
    .finish 3 (.finished .soundAndPrecise) 40, .finish 2 (.finished .soundAndPrecise) 30,
    .depart 0, .receive, .timeout, .announce 3, .depart 2, .receive, .depart 3, .receive, .take]

theorem decided_of_replay_photoFinish :
    ∃ r, (start .empty 0 4).replay? photoFinish = some r ∧
      r.winner? = some ⟨4, "Parallel analysis 4", 40⟩ ∧
      Decided (start .empty 0 4) photoFinish r :=
  ⟨_, rfl, rfl, decided_of_replay rfl⟩

end Race
end Portfolio
end StateSpace
