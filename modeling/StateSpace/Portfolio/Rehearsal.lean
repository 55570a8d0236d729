import StateSpace.Portfolio.Race
import StateSpace.Portfolio.Script

/-!
# StateSpace.Portfolio.Rehearsal

Trying out a portfolio of scripted analyses. The analyses take turns in an order that their scripts
fix, so that everything has one answer.

* `Actor` — an analysis on stage;
* `Rehearsal` — several runs of one portfolio, one after the other: the exchange of invariants and
  the scopes are carried on from run to run;
* `Alarm` — what happens when time passes: a limit is over, or the supervisor has waited in vain;
* `Rehearsal.run` — one run: all analyses are set up; then those take their turn that may, and when
  none may, time passes until the next alarm; the winner is taken when all analyses are done or the
  supervisor has lost patience; and the stubborn ones come last.

A turn takes no time. All limits start when the analyses are set up, and each runs until its
analysis has ended, whatever the analysis does meanwhile.
-/

namespace StateSpace
namespace Portfolio

open Invariant

structure Actor where
  entrant : Entrant Script Nat String
  place : Nat
  scope : ScopeId
  /-- Watches over its time, if that is limited, until it has ended. -/
  limiter? : Option Limiter
  ended : Bool := false

/-- An analysis that was set up. Its time begins to count. -/
def Actor.begin (place : Nat) (scope : ScopeId) (entrant : Entrant Script Nat String) : Actor where
  entrant
  place
  scope
  limiter? := entrant.limit?.map fun limit => Limiter.start { limit, scope }

abbrev Actor.script (a : Actor) : Script := a.entrant.analysis

/-- What a rehearsal reports of one run. -/
structure Review where
  winner? : Option (Winner (Reached Nat String))
  status : Status
  /-- The messages about each reference. -/
  log : List (List String)
  general : List String

structure Rehearsal where
  setting : Setting Script Unit Nat String (Conjunction Nat)
  options : Options
  network : Network Unit (Conjunction Nat)
  scopes : Scopes
  caller : ScopeId
  /-- All analyses that were created, in the order of their creation. -/
  actors : List Actor := []
  /-- How many of them belong to earlier runs. -/
  settled : Nat := 0
  /-- What the factory was asked for, with the scope of the analysis. -/
  orders : List (Configuration × ScopeId) := []
  reviews : List Review := []

/-- A rehearsal with a run in progress. -/
structure Rehearsing where
  play : Rehearsal
  race : Race (Reached Nat String)
  /-- How many nanoseconds have passed since the analyses were set up. -/
  now : Nat := 0
  /-- When the supervisor began its present wait. -/
  since : Nat := 0
  returned : Bool := false

/-- What happens when time passes. -/
inductive Alarm where
  | limit (number : Nat) (l : Limiter)
  | poll

namespace Rehearsing

def take (x : Rehearsing) (e : Race.Event (Reached Nat String)) : Rehearsing :=
  { x with race := (x.race.step? e).getD x.race }

def takeAll (x : Rehearsing) (l : List (Race.Event (Reached Nat String))) : Rehearsing :=
  l.foldl take x

/-- Brings the analysis on stage that a reference stands for, if there is one. -/
def enter (x : Rehearsing) (seat : Seat Script Nat String) : Rehearsing :=
  let place := x.race.runners.length
  let scope := x.race.scopes.size
  let play := { x.play with
    orders := x.play.orders ++ (seat.asked?.map fun c => (c, scope)).toList
    actors := x.play.actors ++ (seat.result.toOption.map (Actor.begin place scope)).toList }
  { x with play }.take (.setUp seat.outcome)

def setUpAll (x : Rehearsing) (references : List String) : Except Fault Rehearsing :=
  match x.play.setting.addAll ⟨x.play.network, []⟩ references with
  | .error f => .error f
  | .ok roster =>
    .ok (roster.seats.foldl enter { x with play := { x.play with network := roster.network } })

/-- The analyses that an analysis follows have ended. -/
def followed (x : Rehearsing) (number : Nat) (a : Actor) : Bool :=
  match a.script.after? with
  | some numbers => numbers.all fun n => 0 < n && (x.play.actors[n - 1]?).any (·.ended)
  | none => (x.play.actors.take number).all fun b => b.ended || !b.script.mode.endsAlone

/-- The analysis may take its turn now. -/
def isReady (x : Rehearsing) (number : Nat) (a : Actor) : Bool :=
  x.followed number a && match a.script.mode with
    | .idle => x.race.scopes.isRequested a.scope
    | .stubborn => x.returned
    | _ => true

/-- The analyses of this run that have not ended, with their places in the order of creation. -/
def pending (x : Rehearsing) : List (Actor × Nat) :=
  (x.play.actors.zipIdx.drop x.play.settled).filter fun (a, _) => !a.ended

def next? (x : Rehearsing) : Option (Actor × Nat) :=
  x.pending.find? fun (a, number) => x.isReady number a

/-- The limiters that are running, with the times at which they are over. -/
def limits (x : Rehearsing) : List (Nat × Alarm) :=
  x.play.actors.zipIdx.filterMap fun (a, number) =>
    match a.limiter? with
    | some l => if l.running then some (l.limit.time.nanoseconds, .limit number l) else none
    | none => none

/-- The end of the supervisor's present wait. Without a request nothing comes of it. -/
def polls (x : Rehearsing) : List (Nat × Alarm) :=
  if x.race.scopes.isRequested x.race.portfolio then
    [(x.since + x.play.options.poll.nanoseconds, .poll)]
  else []

def isSupervised (x : Rehearsing) : Bool :=
  match x.race.phase with
  | .supervising s => s.isWaiting
  | _ => false

/-- What will happen, with the times of it, while the supervisor is waiting. -/
def alarms (x : Rehearsing) : List (Nat × Alarm) :=
  if x.isSupervised then x.limits ++ x.polls else []

/-- The soonest of some alarms; of two at the same time, the first. -/
def soonest? : List (Nat × Alarm) → Option (Nat × Alarm)
  | [] => none
  | first :: rest =>
    match soonest? rest with
    | some other => some (if other.1 < first.1 then other else first)
    | none => some first

def ring (x : Rehearsing) (time : Nat) : Alarm → Rehearsing
  | .limit number l =>
    let play := { x.play with
      actors := x.play.actors.modify number fun a => { a with limiter? := some l.stop } }
    { x with play, now := time }.take (.cancel l.scope l.limit.reason)
  | .poll => { x with now := time, since := time }.take .timeout

/-- The facts that an analysis receives from the others. -/
def received (x : Rehearsing) (a : Actor) : List Nat :=
  match a.entrant.reads? with
  | some pool =>
    (x.play.network.ask (.pool pool) x.play.setting.entry Formula.tautology).answer.toList
  | none => []

/-- What the network is when an analysis has ended. -/
def publish (x : Rehearsing) (a : Actor) (reached : Reached Nat String) :
    Analysis.Ending → Network Unit (Conjunction Nat)
  | .finished status =>
    match a.entrant.slot? with
    | some slot =>
      Publisher.finish ⟨slot, x.play.setting.factory.derive⟩ x.play.network reached (.ok status)
    | none => x.play.network
  | _ => x.play.network

def perform (x : Rehearsing) (a : Actor) (number : Nat) : Rehearsing :=
  let (reached, ending) :=
    a.script.work (x.race.scopes.reason? a.scope) (x.received a) a.entrant.start
  let play := { x.play with
    network := x.publish a reached ending
    actors := x.play.actors.modify number fun b =>
      { b with limiter? := b.limiter?.map Limiter.stop, ended := true } }
  { x with play, since := x.now }.takeAll
    [.finish a.place ending reached, .announce a.place, .depart a.place, .receive]

/-- Lets the analyses take their turns and time pass, at most `turns` times in all. -/
def proceed : (turns : Nat) → Rehearsing → Rehearsing
  | 0, x => x
  | turns + 1, x =>
    match x.next? with
    | some (a, number) => proceed turns (x.perform a number)
    | none =>
      match soonest? x.alarms with
      | some (time, alarm) => proceed turns (x.ring time alarm)
      | none => x

/-- Every analysis takes one turn, and has one limit at most; and when the supervisor has waited in
vain for the second time after a request, it has lost patience. -/
def turns (x : Rehearsing) : Nat := 2 * x.play.actors.length + 2

def review (x : Rehearsing) : Review where
  winner? := x.race.winner?
  status := Race.statusOf x.race.winner?
  log := (List.range x.race.total).map fun i => x.race.messagesAbout (i + 1)
  general := x.race.generalMessages

def finish (x : Rehearsing) : Rehearsal :=
  let acted := proceed x.turns (x.take .supervise)
  let returned := { acted.take .take with returned := true }
  let done := proceed returned.turns returned
  { done.play with
    scopes := done.race.scopes
    settled := done.play.actors.length
    reviews := done.play.reviews ++ [done.review] }

end Rehearsing

namespace Rehearsal

def run (x : Rehearsal) : Except Fault Rehearsal :=
  let begun : Rehearsing := {
    play := x
    race := Race.start x.scopes x.caller x.options.references.length }
  match begun.setUpAll x.options.references with
  | .error f => .error f
  | .ok ready => .ok ready.finish

def runTimes (x : Rehearsal) : Nat → Except Fault Rehearsal
  | 0 => .ok x
  | n + 1 =>
    match x.run with
    | .error f => .error f
    | .ok next => next.runTimes n

/-- What the analyses know together at a location. -/
def knownAt (x : Rehearsal) (l : Location) : Conjunction Nat :=
  (x.network.ask (.pool x.setting.pool) l Formula.tautology).answer

/-- A rehearsal of the portfolio that a configuration describes. -/
def ofConfiguration (files : Configuration.Files) (base : Configuration) (derives : Bool)
    (entry : Location) (scopes : Scopes) (caller : ScopeId) (options : Options) : Rehearsal where
  setting := { files, base, factory := scriptFactory derives, entry, pool := 0 }
  options
  network := Network.addPool {}
  scopes
  caller

end Rehearsal

end Portfolio
end StateSpace
