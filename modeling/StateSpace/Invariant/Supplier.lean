import StateSpace.Analysis
import StateSpace.Asked
import StateSpace.Invariant.Formula

/-!
# StateSpace.Invariant.Supplier

Suppliers of invariants, and how they are put together.

* `Supplier` — knows nothing, or has an answer of its own, or passes the question on to a slot or
  to a pool;
* `Network` — slots, each holding the supplier that was published last, and pools, each holding
  the suppliers that were registered with it;
* `Network.ask` — the invariant that a supplier knows at a location. A pool answers with the
  conjunction of what its members know, in the order of their registration;
* `Publisher` — publishes invariants after every run of an analysis that did not fail.
-/

namespace StateSpace

structure Location where
  number : Nat
deriving DecidableEq, Repr

namespace Location

def text (l : Location) : String := s!"N{l.number}"

instance : LT Location := ⟨fun a b => a.number < b.number⟩

instance (a b : Location) : Decidable (a < b) :=
  inferInstanceAs (Decidable (a.number < b.number))

end Location

namespace Invariant

abbrev SlotId := Nat
abbrev PoolId := Nat

/-- A supplier of invariants. One with an answer of its own has a name of type `κ`. -/
inductive Supplier (κ φ : Type) where
  | trivial
  | own (name : κ) (answer : Location → φ → φ)
  | slot (id : SlotId)
  | pool (id : PoolId)

structure Network (κ φ : Type) where
  slots : Array (Supplier κ φ) := #[]
  pools : Array (List (Supplier κ φ)) := #[]

namespace Network

variable {κ φ : Type}

/-- Adds a slot, which knows nothing yet. Its number is the number of slots before. -/
def addSlot (n : Network κ φ) : Network κ φ := { n with slots := n.slots.push .trivial }

/-- Adds a pool without members. Its number is the number of pools before. -/
def addPool (n : Network κ φ) : Network κ φ := { n with pools := n.pools.push [] }

def publish (n : Network κ φ) (slot : SlotId) (s : Supplier κ φ) : Network κ φ :=
  { n with slots := n.slots.modify slot fun _ => s }

def register (n : Network κ φ) (pool : PoolId) (s : Supplier κ φ) : Network κ φ :=
  { n with pools := n.pools.modify pool (· ++ [s]) }

/-- The members of a pool, in the order of their registration. -/
def members (n : Network κ φ) (pool : PoolId) : List (Supplier κ φ) :=
  n.pools[pool]?.getD []

def published (n : Network κ φ) (slot : SlotId) : Supplier κ φ :=
  n.slots[slot]?.getD .trivial

def poolText (n : Network κ φ) (pool : PoolId) : String :=
  s!"InvariantsAggregator \x7b suppliers: {(n.members pool).length} \x7d"

variable [Formula φ]

/-- What a supplier knows, where a question is passed on at most `depth` times. -/
def askWithin (n : Network κ φ) (location : Location) (context : φ) :
    (depth : Nat) → Supplier κ φ → Asked κ φ
  | _, .trivial => .known Formula.tautology
  | _, .own name answer => ⟨[name], answer location context⟩
  | 0, .slot _ => .known Formula.tautology
  | 0, .pool _ => .known Formula.tautology
  | depth + 1, .slot id => n.askWithin location context depth (n.published id)
  | depth + 1, .pool id =>
    let answers := (n.members id).map (n.askWithin location context depth)
    ⟨answers.flatMap (·.questions), Formula.meetAll (answers.map (·.answer))⟩

/-- How often a question can be passed on without coming back to where it was. -/
def depth (n : Network κ φ) : Nat := n.slots.size + n.pools.size

/-- What a supplier knows, and the suppliers that had an answer of their own to this. -/
def ask (n : Network κ φ) (s : Supplier κ φ) (location : Location) (context : φ) :
    Asked κ φ :=
  n.askWithin location context n.depth s

end Network

/-- An analysis: it works on a reached set, and ends with a status or fails. -/
abbrev Algorithm (ρ : Type) := ρ → ρ × Except Analysis.Error Status

/-- Publishes what is derived from the reached set of an analysis. -/
structure Publisher (κ ρ φ : Type) where
  slot : SlotId
  derive : ρ → Supplier κ φ

namespace Publisher

variable {κ ρ φ : Type}

def finish (p : Publisher κ ρ φ) (n : Network κ φ) (reached : ρ) :
    Except Analysis.Error Status → Network κ φ
  | .ok _ => n.publish p.slot (p.derive reached)
  | .error _ => n

/-- Runs an analysis. What comes of it is what comes of the analysis alone. -/
def run (p : Publisher κ ρ φ) (algorithm : Algorithm ρ) (n : Network κ φ) (reached : ρ) :
    Network κ φ × ρ × Except Analysis.Error Status :=
  let (after, result) := algorithm reached
  (p.finish n after result, after, result)

end Publisher

end Invariant
end StateSpace
