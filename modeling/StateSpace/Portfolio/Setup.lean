import StateSpace.Configuration.Load
import StateSpace.Invariant.Supplier
import StateSpace.Limit
import StateSpace.Portfolio.Options
import StateSpace.Portfolio.Race
import StateSpace.Portfolio.Reference
import StateSpace.Reached

/-!
# StateSpace.Portfolio.Setup

Setting up the analyses of a portfolio.

* `inherited` — the configuration of a portfolio, without the options that make it one;
* `instanceConfiguration` — the configuration of one analysis: what it inherits, then the options of
  the referenced file. The specification stays that of the portfolio;
* `Factory` — builds an analysis from its configuration;
* `Seat` — what came of one reference. An analysis that publishes invariants gets a slot of its
  own, which is registered with the pool of the portfolio;
* `Roster` — the seats of all references, in order. A reference that fails keeps its seat, and
  leaves no trace in the exchange of invariants.
-/

namespace StateSpace
namespace Portfolio

open Invariant

/-- What an analysis has before its file is loaded. -/
def inherited (base : Configuration) : Configuration :=
  ((Configuration.empty.copyFrom base).clear referencesOption).clear parallelOption

/-- The configuration of the analysis that a reference stands for. -/
def instanceConfiguration (files : Configuration.Files) (base : Configuration) (r : Reference) :
    Except Configuration.Error Configuration :=
  match (Configuration.loadFile files r.path (inherited base)).toExcept with
  | .error e => .error e
  | .ok c => .ok (c.copyOption base specificationOption)

/-- What a factory builds: the analysis itself, where it starts, and whether it makes use of
invariants that others found. -/
structure Components (τ σ π : Type) where
  analysis : τ
  state : σ
  precision : π
  consumes : Bool

structure Factory (τ κ σ π φ : Type) where
  create : Configuration → Location → Except Analysis.Error (Components τ σ π)
  /-- The invariants that a reached set implies. -/
  derive : Reached σ π → Supplier κ φ

structure Order where
  reference : Reference
  configuration : Configuration
  limit? : Option WallLimit

structure Entrant (τ σ π : Type) where
  /-- The place of the analysis in the portfolio, counted from one. -/
  position : Nat
  name : String
  analysis : τ
  configuration : Configuration
  limit? : Option WallLimit
  /-- The pool that it reads invariants from. -/
  reads? : Option PoolId
  /-- The slot that it publishes invariants in. -/
  slot? : Option SlotId
  start : Reached σ π

structure Seat (τ σ π : Type) where
  /-- The configuration that the factory was given, if it came to that. -/
  asked? : Option Configuration
  result : Except Analysis.Error (Entrant τ σ π)

/-- Whether the analysis takes part in the race. -/
def Seat.outcome {τ σ π : Type} (s : Seat τ σ π) : Race.SetUp :=
  match s.result with
  | .ok _ => .started
  | .error e => .skipped e

structure Roster (τ κ σ π φ : Type) where
  network : Network κ φ
  seats : List (Seat τ σ π)

/-- What all analyses of a portfolio are set up with. -/
structure Setting (τ κ σ π φ : Type) where
  files : Configuration.Files
  base : Configuration
  factory : Factory τ κ σ π φ
  entry : Location
  /-- The pool that the analyses share. -/
  pool : PoolId

namespace Setting

variable {τ κ σ π φ : Type} [DecidableEq σ]

def order (x : Setting τ κ σ π φ) (reference : String) : Except (Failure Analysis.Error) Order :=
  match Reference.read reference with
  | .error e => .error (.error (.configuration e))
  | .ok r =>
    match instanceConfiguration x.files x.base r with
    | .error e => .error (.error (.configuration e))
    | .ok c =>
      match WallLimit.ofConfiguration c with
      | .error e => .error (e.mapError .configuration)
      | .ok limit? => .ok ⟨r, c, limit?⟩

/-- The analysis that was built for an order. -/
def entrant (x : Setting τ κ σ π φ) (position : Nat) (o : Order) (c : Components τ σ π)
    (slot? : Option SlotId) : Entrant τ σ π where
  position
  name := nameOf position
  analysis := c.analysis
  configuration := o.configuration
  limit? := o.limit?
  reads? := if c.consumes then some x.pool else none
  slot? := slot?
  start := Reached.empty.add c.state c.precision

/-- Adds a seat for an analysis that was built. -/
def welcome (x : Setting τ κ σ π φ) (roster : Roster τ κ σ π φ) (o : Order)
    (c : Components τ σ π) : Roster τ κ σ π φ :=
  let position := roster.seats.length + 1
  let seat (slot? : Option SlotId) : Seat τ σ π :=
    ⟨some o.configuration, .ok (x.entrant position o c slot?)⟩
  match o.reference.role with
  | .reachedSetSupplier =>
    let slot := roster.network.slots.size
    { network := roster.network.addSlot.register x.pool (.slot slot)
      seats := roster.seats ++ [seat (some slot)] }
  | _ => { roster with seats := roster.seats ++ [seat none] }

def add (x : Setting τ κ σ π φ) (roster : Roster τ κ σ π φ) (reference : String) :
    Except Fault (Roster τ κ σ π φ) :=
  match x.order reference with
  | .error (.fault f) => .error f
  | .error (.error e) => .ok { roster with seats := roster.seats ++ [⟨none, .error e⟩] }
  | .ok o =>
    match x.factory.create o.configuration x.entry with
    | .error e =>
      .ok { roster with seats := roster.seats ++ [⟨some o.configuration, .error e⟩] }
    | .ok c => .ok (x.welcome roster o c)

def addAll (x : Setting τ κ σ π φ) (roster : Roster τ κ σ π φ) :
    List String → Except Fault (Roster τ κ σ π φ)
  | [] => .ok roster
  | reference :: rest =>
    match x.add roster reference with
    | .error f => .error f
    | .ok next => x.addAll next rest

end Setting

end Portfolio
end StateSpace
