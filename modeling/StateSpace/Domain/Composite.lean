import StateSpace.Domain.Basic

/-!
# StateSpace.Domain.Composite

Composites of several domains.

* `Composite` — one state for each of several domains;
* `Domain.composite` — composites are ordered position by position, from the left and up to the
  first position that is out of order. They have no joins: an upper bound in every position need
  not be the least one.

Composites of different arity, or of another arity than their domain, cannot be compared.
-/

namespace StateSpace

structure Composite (σ : Type) where
  components : List σ
deriving DecidableEq, Repr

namespace Composite

variable {σ : Type}

def arity (s : Composite σ) : Nat := s.components.length

def get? (s : Composite σ) (i : Nat) : Option σ := s.components[i]?

def text [ToString σ] (s : Composite σ) : String :=
  let inner := ", ".intercalate (s.components.map toString)
  s!"({inner})"

instance [ToString σ] : ToString (Composite σ) := ⟨text⟩

/-- A composite is a target if one of its components is. -/
instance [Target σ] : Target (Composite σ) where
  isTarget s := s.components.any isTarget

end Composite

namespace Domain

variable {κ σ : Type}

/-- Compares components position by position, up to the shortest of the three lists. -/
def pointwise : List (Domain κ σ) → List σ → List σ → Asked κ (Except Fault Bool)
  | d :: ds, a :: as, b :: bs => (d.below a b).both (pointwise ds as bs)
  | _, _, _ => .known (.ok true)

def composite (ds : List (Domain κ σ)) : Domain κ (Composite σ) where
  below a b :=
    if a.arity ≠ b.arity then .known (.error .arityDiffers)
    else if a.arity ≠ ds.length then .known (.error .arityUnfit)
    else pointwise ds a.components b.components
  join _ _ := .error (.unsupportedJoin "CompositeDomain")

/-- The composite of several domains, at least one. -/
def compositeOf (ds : List (Domain κ σ)) : Except Fault (Domain κ (Composite σ)) :=
  if ds.isEmpty then .error .noComponents else .ok (composite ds)

/-- How a composite of this arity is shown. -/
def compositeText (arity : Nat) : String :=
  s!"CompositeDomain \x7b arity: {arity} \x7d"

end Domain

end StateSpace
