import StateSpace.Invariant.Formula

/-!
# StateSpace.Proofs.Invariant.Formula

The atoms of conjunctions. A conjunction of several ones has the atoms of all of them, and it implies
what has some of its atoms.
-/

namespace StateSpace
namespace Conjunction

open Std

variable {α : Type} [Ord α] [TransOrd α]

theorem not_mem_tautology (x : α) : x ∉ (Formula.tautology : Conjunction α).atoms :=
  ExtTreeSet.not_mem_empty

theorem atoms_of_isTautology {c : Conjunction α} (h : Formula.isTautology c = true) :
    c.atoms = ∅ :=
  ExtTreeSet.isEmpty_iff.1 h

theorem mem_meet {a b : Conjunction α} {x : α} :
    x ∈ (Formula.meet a b).atoms ↔ x ∈ a.atoms ∨ x ∈ b.atoms := by
  unfold Formula.meet
  split
  · rename_i ha
    rw [atoms_of_isTautology ha]
    simp
  · split
    · rename_i hb
      rw [atoms_of_isTautology hb]
      simp
    · exact ExtTreeSet.mem_union_iff

theorem mem_foldl_meet {l : List (Conjunction α)} {c : Conjunction α} {x : α} :
    x ∈ (l.foldl Formula.meet c).atoms ↔ x ∈ c.atoms ∨ ∃ a ∈ l, x ∈ a.atoms := by
  induction l generalizing c with
  | nil => simp
  | cons a rest ih => simp [ih, mem_meet, or_assoc]

theorem mem_meetAll {l : List (Conjunction α)} {x : α} :
    x ∈ (Formula.meetAll l).atoms ↔ ∃ a ∈ l, x ∈ a.atoms := by
  rw [Formula.meetAll, mem_foldl_meet]
  exact or_iff_right (not_mem_tautology x)

theorem implies_iff [LawfulEqOrd α] {a b : Conjunction α} :
    a.implies b = true ↔ ∀ x ∈ b.atoms, x ∈ a.atoms := by
  simp [implies, toList]

/-- Conjunctions with the same atoms are the same. -/
theorem ext_atoms [LawfulEqOrd α] {a b : Conjunction α} (h : ∀ x, x ∈ a.atoms ↔ x ∈ b.atoms) :
    a = b := by
  cases a
  cases b
  exact congrArg Conjunction.mk (ExtTreeSet.ext_mem h)

end Conjunction
end StateSpace
