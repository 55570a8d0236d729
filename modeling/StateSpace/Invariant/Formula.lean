import Std.Data.ExtTreeSet

/-!
# StateSpace.Invariant.Formula

Formulas that invariants are written in.

* `Formula` — what the exchange of invariants needs of them: a formula that holds always, a test
  that recognises such formulas, and conjunction;
* `Formula.meet`, `Formula.meetAll` — conjunctions from which formulas that hold always are left
  out;
* `Conjunction` — sets of atoms;
* `Phrase` — formulas that are nothing but their text.
-/

namespace StateSpace

open Std

class Formula (φ : Type) where
  tautology : φ
  /-- The formula is seen to hold always. -/
  isTautology : φ → Bool
  and : φ → φ → φ

namespace Formula

variable {φ : Type} [Formula φ]

/-- The conjunction of two formulas, without one that holds always. -/
def meet (a b : φ) : φ :=
  if isTautology a then b else if isTautology b then a else and a b

/-- The conjunction of several formulas, from the left. -/
def meetAll (l : List φ) : φ := l.foldl meet tautology

end Formula

/-- The conjunction of some atoms. -/
structure Conjunction (α : Type) [Ord α] where
  atoms : ExtTreeSet α

namespace Conjunction

variable {α : Type} [Ord α] [TransOrd α]

def toList (c : Conjunction α) : List α := c.atoms.toList

def ofList (l : List α) : Conjunction α := ⟨ExtTreeSet.ofList l⟩

def atom (a : α) : Conjunction α := ⟨{a}⟩

def implies (a b : Conjunction α) : Bool := b.toList.all (· ∈ a.atoms)

instance : Formula (Conjunction α) where
  tautology := ⟨∅⟩
  isTautology c := c.atoms.isEmpty
  and a b := ⟨a.atoms ∪ b.atoms⟩

instance [LawfulEqOrd α] : DecidableEq (Conjunction α) := fun a b =>
  if h : a.atoms = b.atoms then
    isTrue (by cases a; cases b; exact congrArg mk h)
  else isFalse fun e => h (congrArg atoms e)

def text [ToString α] (c : Conjunction α) : String :=
  if c.atoms.isEmpty then "true" else " && ".intercalate (c.toList.map toString)

end Conjunction

/-- A formula that is nothing but its text. -/
structure Phrase where
  text : String
deriving DecidableEq, Repr

instance : Formula Phrase where
  tautology := ⟨"true"⟩
  isTautology p := p.text = "true"
  and a b := ⟨s!"({a.text} && {b.text})"⟩

end StateSpace
