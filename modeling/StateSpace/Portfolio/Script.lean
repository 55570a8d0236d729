import StateSpace.Portfolio.Setup

/-!
# StateSpace.Portfolio.Script

Analyses that do what their configuration says. They stand in for real ones where a portfolio is
tried out.

* `Script` — what such an analysis does: which others it waits for, how it reacts to a request to
  stop, which states it finds, and how it ends;
* `Script.ofConfiguration` — reads a script from options;
* `Script.work` — the reached set and the ending.
-/

namespace StateSpace

/-- A failure of a given kind, by its name. -/
def Analysis.Error.ofKind? (kind text : String) : Option Analysis.Error :=
  match kind with
  | "Interrupted" => some (.interrupted ⟨text⟩)
  | "Configuration" => some (.configuration (.missingOption text))
  | "Domain" => some (.domain (.unsupportedJoin "Scripted"))
  | "Construction" => some (.construction text)
  | "Failed" => some (.failed text)
  | _ => none

namespace Portfolio

inductive Mode where
  /-- It looks once, before it begins. -/
  | attentive
  | careless
  | idle
  /-- It begins only when the portfolio is over. -/
  | stubborn
deriving DecidableEq, Repr

namespace Mode

def ofText (s : String) : Mode :=
  if s = "ignore" then .careless
  else if s = "wait" then .idle
  else if s = "stubborn" then .stubborn
  else .attentive

/-- The analysis ends by itself, so that others wait for it. -/
def endsAlone : Mode → Bool
  | .attentive => true
  | .careless => true
  | _ => false

def stops : Mode → Bool
  | .attentive => true
  | .idle => true
  | _ => false

end Mode

structure Script where
  mode : Mode
  /-- The analyses it waits for, by the order of their creation, if it is told. -/
  after? : Option (List Nat)
  produces : List Nat
  consumes : Bool
  precision : String
  ending : Analysis.Ending
deriving DecidableEq, Repr

namespace Script

def endingOfText (s : String) : Analysis.Ending :=
  match s with
  | "sound" => .finished .soundAndPrecise
  | "unsound" => .finished .unsoundAndPrecise
  | "imprecise" => .finished .soundAndImprecise
  | "neither" => .finished .unsoundAndImprecise
  | _ =>
    match Analysis.Error.ofKind? s "scripted failure" with
    | some e => .failed e
    | none => .crashed

def numbers : List String → Except IntegerError (List Nat)
  | [] => .ok []
  | item :: rest =>
    match IntegerType.unsigned32.read item.toList with
    | .error e => .error e
    | .ok n =>
      match numbers rest with
      | .error e => .error e
      | .ok l => .ok (n.toNat :: l)

/-- The value of an option, or another one if it has none. -/
def textOr (c : Configuration) (key other : String) : String := (c.get? key).getD other

/-- Reads a script. It may say that the analysis cannot be built. -/
def ofConfiguration (c : Configuration) : Except Analysis.Error Script :=
  match (c.get? "script.create").bind fun kind =>
      Analysis.Error.ofKind? kind "scripted creation failure" with
  | some e => .error e
  | none =>
    match numbers (c.list "script.produce") with
    | .error e => .error (.construction e.message)
    | .ok produces =>
      match c.read "script.consume" ValueReader.truthValue with
      | .error e => .error (.configuration e)
      | .ok consumes? =>
        .ok {
          mode := .ofText (textOr c "script.mode" "run")
          after? := (c.get? "script.after").map fun _ =>
            (numbers (c.list "script.after")).toOption.getD []
          produces
          consumes := consumes?.getD false
          precision := textOr c "script.precision" "initial"
          ending := endingOfText (textOr c "script.outcome" "sound") }

/-- What the analysis finds: the facts it received, then the states it produces. -/
def explore (s : Script) (received : List Nat) (start : Reached Nat String) :
    Reached Nat String :=
  let informed := received.foldl (fun r n => r.add n "received") start.drain
  s.produces.foldl (fun r n => r.add n "produced") informed

/-- What comes of the analysis, if it stops at a request with this reason and goes on without. -/
def work (s : Script) (reason? : Option String) (received : List Nat)
    (start : Reached Nat String) : Reached Nat String × Analysis.Ending :=
  match s.mode.stops, reason? with
  | true, some reason => (start, .failed (.interrupted ⟨reason⟩))
  | _, _ => (s.explore received start, s.ending)

end Script

/-- What a reached set of numbers implies: all numbers at locations of even number, the odd ones at
the others. -/
def factsOf (r : Reached Nat String) (l : Location) : Conjunction Nat :=
  if l.number % 2 = 0 then .ofList r.states else .ofList (r.states.filter (· % 2 = 1))

/-- Builds analyses from scripts. What they imply is derived from their reached sets if `derives`,
and nothing else. -/
def scriptFactory (derives : Bool) : Factory Script Unit Nat String (Conjunction Nat) where
  create c entry :=
    match Script.ofConfiguration c with
    | .error e => .error e
    | .ok s =>
      .ok {
        analysis := s
        state := entry.number
        precision := s.precision
        consumes := s.consumes }
  derive r := if derives then .own () fun l _ => factsOf r l else .trivial

end Portfolio
end StateSpace
