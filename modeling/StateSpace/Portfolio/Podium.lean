import StateSpace.Text.Quoted

/-!
# StateSpace.Portfolio.Podium

The place for the winner of a portfolio. The first result that is committed stays, until it is
taken; from then on the podium is closed and results that come late are dropped.
-/

namespace StateSpace
namespace Portfolio

structure Winner (ρ : Type) where
  /-- The place of the analysis in the portfolio, counted from one. -/
  position : Nat
  name : String
  reached : ρ
deriving DecidableEq, Repr

def Winner.text {ρ : Type} (w : Winner ρ) : String :=
  s!"Winner \x7b instance: {w.position}, name: {Text.quoted w.name}, .. \x7d"

inductive Podium (ρ : Type) where
  | vacant
  | held (winner : Winner ρ)
  | closed
deriving DecidableEq, Repr

namespace Podium

variable {ρ : Type}

/-- Nobody came before, and the podium is open. -/
def isVacant : Podium ρ → Bool
  | .vacant => true
  | _ => false

def isHeld : Podium ρ → Bool
  | .held _ => true
  | _ => false

/-- The podium after a result was offered. The result is committed if the podium was vacant. -/
def commit (p : Podium ρ) (winner : Winner ρ) : Podium ρ :=
  match p with
  | .vacant => .held winner
  | .held first => .held first
  | .closed => .closed

def winner? : Podium ρ → Option (Winner ρ)
  | .held winner => some winner
  | _ => none

end Podium

end Portfolio
end StateSpace
