import StateSpace.Domain.Basic

/-!
# StateSpace.Domain.Cell

Cells: two bounds, and a mark for targets. Several orders on cells are on offer as domains, so
that composites can be put together from them.
-/

namespace StateSpace

structure Cell where
  low : Int
  high : Int
  target : Bool := false
deriving DecidableEq, Repr

namespace Cell

def text (c : Cell) : String := s!"{c.low}..{c.high}"

instance : ToString Cell := ⟨text⟩

instance : Target Cell := ⟨target⟩

/-- The bounds agree; the marks need not. -/
def sameBounds (a b : Cell) : Bool := a.low = b.low && a.high = b.high

def hull (a b : Cell) : Cell :=
  { low := min a.low b.low, high := max a.high b.high }

end Cell

inductive CellOrder where
  /-- The first cell lies within the second one. -/
  | interval
  /-- Only the upper bounds count. -/
  | upper
  /-- The bounds agree. -/
  | exact
  /-- The bounds agree, the first cell is `0..0` or the second one is `255..255`. -/
  | flat
  | always
  | never
deriving DecidableEq, Repr

namespace CellOrder

def below : CellOrder → Cell → Cell → Bool
  | .interval, a, b => b.low ≤ a.low && a.high ≤ b.high
  | .upper, a, b => a.high ≤ b.high
  | .exact, a, b => a.sameBounds b
  | .flat, a, b => a.sameBounds ⟨0, 0, false⟩ || b.sameBounds ⟨255, 255, false⟩ || a.sameBounds b
  | .always, _, _ => true
  | .never, _, _ => false

def join : CellOrder → Cell → Cell → Except Domain.Error Cell
  | .interval, a, b => .ok (a.hull b)
  | .exact, _, _ => .error (.unsupportedJoin "exact")
  | _, a, _ => .ok a

/-- The domain of cells in this order; its question is `question`. -/
def domain {κ : Type} (question : κ) (order : CellOrder) : Domain κ Cell :=
  .single question order.below order.join

/-- The domains of several orders, each asking for its place among them. -/
def domains (orders : List CellOrder) : List (Domain Nat Cell) :=
  orders.zipIdx.map fun (order, i) => domain i order

end CellOrder

end StateSpace
