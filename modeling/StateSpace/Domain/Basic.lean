import StateSpace.Asked
import StateSpace.Domain.Error
import StateSpace.Fault

/-!
# StateSpace.Domain.Basic

Abstract domains: abstract states ordered by how much they stand for.

* `Domain` — an order (`below`) and least upper bounds (`join`), where the domain has them. An
  order tells which questions of type `κ` it asked;
* `Domain.same` — two states stand for the same: each lies below the other;
* `Domain.boxed` — a domain behind a box, which passes every question on;
* `Target` — states that may violate what is to be shown.
-/

namespace StateSpace

structure Domain (κ σ : Type) where
  /-- The first state stands for no more than the second one. -/
  below : σ → σ → Asked κ (Except Fault Bool)
  /-- The least state above both. -/
  join : σ → σ → Except Domain.Error σ

namespace Domain

variable {κ σ : Type}

/-- Each state lies below the other. -/
def same (d : Domain κ σ) (a b : σ) : Asked κ (Except Fault Bool) :=
  (d.below a b).both (d.below b a)

/-- The domain that a box offers: what is asked of it is asked of its content. -/
def boxed (d : Domain κ σ) : Domain κ σ where
  below a b := d.below a b
  join a b := d.join a b

/-- A domain whose order is one question. -/
def single (question : κ) (order : σ → σ → Bool) (join : σ → σ → Except Domain.Error σ) :
    Domain κ σ where
  below a b := ⟨[question], .ok (order a b)⟩
  join := join

end Domain

/-- States that may violate what is to be shown. -/
class Target (σ : Type) where
  isTarget : σ → Bool

export Target (isTarget)

end StateSpace
