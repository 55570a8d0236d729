import StateSpace.Analysis
import StateSpace.Portfolio.Podium
import StateSpace.Portfolio.Supervision

/-!
# StateSpace.Portfolio.Race

A run of a portfolio, step by step. Its analyses, the supervisor and the world around take turns in
any order.

* `Race` — the state of a run; `Race.Event` — the steps that somebody takes;
* `Race.step?` — what a step leads to, if it can be taken. The portfolio sets up its analyses one
  after the other, then supervises them, and then takes the winner from the podium. Each analysis
  ends, offers its result if that is conclusive, asks the portfolio to stop if the podium was
  vacant, and leaves a notice;
* `Race.replay?` — what several steps lead to.
-/

namespace StateSpace
namespace Portfolio

/-- The name of the analysis at a position, counted from one. -/
def nameOf (position : Nat) : String := s!"Parallel analysis {position}"

inductive Level where
  | info
  | warn
deriving DecidableEq, Repr

def Level.text : Level → String
  | .info => "info"
  | .warn => "warn"

structure Message where
  level : Level
  /-- The position of the analysis that the message is about. -/
  about? : Option Nat
  body : String
deriving DecidableEq, Repr

def Message.text (m : Message) : String := s!"{m.level.text}: {m.body}"

/-- How far an analysis has come. -/
inductive Stage where
  | absent
  | running
  /-- Its result was committed, and it has not asked the others to stop yet. -/
  | winning
  /-- It is done and has not left its notice yet. -/
  | leaving
  | gone
deriving DecidableEq, Repr

structure Runner where
  scope : ScopeId
  stage : Stage
deriving DecidableEq, Repr

/-- What the portfolio itself is doing. -/
inductive Phase (ρ : Type) where
  /-- Sets up analyses, of which some are started. -/
  | settingUp (started : Nat)
  | supervising (s : Supervision)
  /-- The run is over, with or without a winner. -/
  | finished (winner? : Option (Winner ρ))
deriving DecidableEq, Repr

structure Race (ρ : Type) where
  total : Nat
  scopes : Scopes
  /-- The scope of the portfolio, around those of its analyses. -/
  portfolio : ScopeId
  /-- The analyses that were set up or skipped, in the order of their positions. -/
  runners : List Runner
  podium : Podium ρ
  /-- Notices that were left and not received. -/
  notices : Nat
  phase : Phase ρ
  messages : List Message

namespace Race

variable {ρ : Type}

def start (scopes : Scopes) (caller : ScopeId) (total : Nat) : Race ρ where
  total
  scopes := scopes.addChild caller
  portfolio := scopes.size
  runners := []
  podium := .vacant
  notices := 0
  phase := .settingUp 0
  messages := []

/-- How setting up an analysis turned out. -/
inductive SetUp where
  | skipped (e : Analysis.Error)
  | started
  /-- Everything was ready, but there was nobody to do the work. -/
  | refused (text : String)
deriving DecidableEq, Repr

inductive Event (ρ : Type) where
  | setUp (outcome : SetUp)
  | supervise
  /-- The analysis at a place ends. A conclusive result is offered at once. -/
  | finish (place : Nat) (ending : Analysis.Ending) (reached : ρ)
  /-- The analysis whose result was committed asks the portfolio to stop. -/
  | announce (place : Nat)
  | depart (place : Nat)
  | receive
  | timeout
  | take
  /-- Somebody else asks a scope to stop: the world around, or a limit. -/
  | cancel (scope : ScopeId) (reason : String)

def say (r : Race ρ) (level : Level) (about? : Option Nat) (body : String) : Race ρ :=
  { r with messages := r.messages ++ [⟨level, about?, body⟩] }

def setStage (r : Race ρ) (place : Nat) (stage : Stage) : Race ρ :=
  { r with runners := r.runners.modify place fun x => { x with stage } }

def stage? (r : Race ρ) (place : Nat) : Option Stage := r.runners[place]?.map (·.stage)

/-- Sets up the next analysis, in a scope of its own. -/
def setUp (r : Race ρ) (started : Nat) (outcome : SetUp) : Race ρ :=
  let position := r.runners.length + 1
  let enter (stage : Stage) : Race ρ := { r with
    scopes := r.scopes.addChild r.portfolio
    runners := r.runners ++ [⟨r.scopes.size, stage⟩] }
  match outcome with
  | .skipped e =>
    (enter .absent).say .warn (some position)
      s!"skipping analysis, it could not be set up: {e.message}"
  | .started =>
    { (enter .running).say .info (some position) "starting analysis" with
      phase := .settingUp (started + 1) }
  | .refused text =>
    let absent := (enter .absent).say .warn (some position)
      s!"could not start worker thread: {text}"
    { absent with notices := r.notices + 1 }

def finish (r : Race ρ) (place : Nat) (ending : Analysis.Ending) (reached : ρ) : Race ρ :=
  let position := place + 1
  let say (level : Level) (body : String) : Race ρ :=
    (r.setStage place .leaving).say level (some position) body
  match ending with
  | .finished status =>
    if status.isConclusive then
      let winner : Winner ρ := { position, name := nameOf position, reached }
      if r.podium.isVacant then
        { (r.setStage place .winning).say .info (some position) "finished successfully" with
          podium := r.podium.commit winner }
      else say .info "finished successfully, but another analysis was faster"
    else say .info s!"finished {status.text}, discarding its result"
  | .failed (.interrupted i) => say .info s!"analysis terminated ({i.reason})"
  | .failed e => say .warn s!"analysis failed: {e.message}"
  | .crashed => r.setStage place .leaving

/-- What every analysis is told when the supervisor has lost patience. -/
def forcedReason : String := "The parallel portfolio was forced to shut down."

/-- Asks every analysis to stop, also those that were skipped or are done. -/
def cancelAll (r : Race ρ) : Race ρ :=
  { r with scopes := r.runners.foldl (fun f x => f.request x.scope forcedReason) r.scopes }

def expire (r : Race ρ) (s : Supervision) : Race ρ :=
  let next := s.timeout (r.scopes.isRequested r.portfolio)
  let waited := { r with phase := .supervising next }
  match next.givenUp? with
  | some n =>
    (waited.say .warn none
      s!"Shutdown requested, but {n} analyses did not stop in time; cancelling them").cancelAll
  | none => waited

def take (r : Race ρ) : Race ρ :=
  let body := match r.podium.winner? with
    | some w => s!"{w.name} won the portfolio"
    | none => "No analysis of the portfolio finished with a sound result"
  { r.say .info none body with podium := .closed, phase := .finished r.podium.winner? }

def step? (r : Race ρ) : Event ρ → Option (Race ρ)
  | .setUp outcome =>
    match r.phase with
    | .settingUp started =>
      if r.runners.length < r.total then some (r.setUp started outcome) else none
    | _ => none
  | .supervise =>
    match r.phase with
    | .settingUp started =>
      if r.runners.length = r.total then
        some { r with phase := .supervising (.await started (r.scopes.isRequested r.portfolio)) }
      else none
    | _ => none
  | .finish place ending reached =>
    if r.stage? place = some .running then some (r.finish place ending reached) else none
  | .announce place =>
    if r.stage? place = some .winning then
      some { r.setStage place .leaving with
        scopes := r.scopes.request r.portfolio s!"{nameOf (place + 1)} finished successfully." }
    else none
  | .depart place =>
    if r.stage? place = some .leaving then
      some { r.setStage place .gone with notices := r.notices + 1 }
    else none
  | .receive =>
    match r.phase with
    | .supervising s =>
      if s.isWaiting && 0 < r.notices then
        some { r with notices := r.notices - 1, phase := .supervising s.receive }
      else none
    | _ => none
  | .timeout =>
    match r.phase with
    | .supervising s => if s.isWaiting then some (r.expire s) else none
    | _ => none
  | .take =>
    match r.phase with
    | .supervising s => if s.isWaiting then none else some r.take
    | _ => none
  | .cancel scope reason =>
    if scope = r.portfolio then none else some { r with scopes := r.scopes.request scope reason }

def replay? (r : Race ρ) : List (Event ρ) → Option (Race ρ)
  | [] => some r
  | e :: rest =>
    match r.step? e with
    | some r' => r'.replay? rest
    | none => none

def winner? (r : Race ρ) : Option (Winner ρ) :=
  match r.phase with
  | .finished winner? => winner?
  | _ => none

/-- What a portfolio with or without a winner has shown. -/
def statusOf (winner? : Option (Winner ρ)) : Status :=
  if winner?.isSome then .soundAndPrecise else .unsoundAndPrecise

def messagesAbout (r : Race ρ) (position : Nat) : List String :=
  (r.messages.filter fun m => m.about? = some position).map Message.text

/-- What is said about no analysis in particular, in order. -/
def generalMessages (r : Race ρ) : List String :=
  (r.messages.filter fun m => m.about? = none).map Message.text

end Race

end Portfolio
end StateSpace
