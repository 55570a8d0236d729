import StateSpace.Analysis
import StateSpace.Domain.Cell
import StateSpace.Domain.Composite

/-!
# StateSpace.Domain.Transfer

A transfer function that is written down as rows: the first row for a state tells its successors.
Marks for targets make no difference to which row that is.
-/

namespace StateSpace

structure TransferRow where
  source : Composite Cell
  successors : Except Analysis.Error (List (Composite Cell))

namespace TransferRow

/-- The two states have the same bounds in every position. -/
def sameBounds : List Cell → List Cell → Bool
  | [], [] => true
  | a :: as, b :: bs => a.sameBounds b && sameBounds as bs
  | _, _ => false

def isFor (r : TransferRow) (state : Composite Cell) : Bool :=
  sameBounds r.source.components state.components

/-- The transfer function of the rows. A state without a row has no successors. -/
def transfer (rows : List TransferRow) (state : Composite Cell) :
    Except Analysis.Error (List (Composite Cell)) :=
  match rows.find? (·.isFor state) with
  | some r => r.successors
  | none => .ok []

end TransferRow

end StateSpace
