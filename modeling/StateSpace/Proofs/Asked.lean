import Mathlib.Data.List.Basic
import StateSpace.Proofs.Domain.Order

/-!
# StateSpace.Proofs.Asked

What the connectives of answers ask.

* `isYes`: the answer is there, and it is yes.
* `answer_all`, `questions_all`: the answer of a conjunction is that of its first part that does not
  say yes, and what it asks is what its parts up to that one ask.
* `all_append`: a conjunction asks its parts in two portions as it asks them at once.
* `exists_all`, `exists_any`: where all parts have an answer, so have conjunction and disjunction.
-/

namespace StateSpace
namespace Asked

variable {κ ε α : Type} {f : α → Asked κ (Except ε Bool)} {l l' : List α}

def isYes (x : Asked κ (Except ε Bool)) : Bool :=
  match x.answer with
  | .ok b => b
  | .error _ => false

theorem isYes_iff {x : Asked κ (Except ε Bool)} : x.isYes = true ↔ x.answer = .ok true := by
  unfold isYes
  split
  · rename_i b hb
    simp [hb]
  · rename_i e he
    simp [he]

theorem both_of_isYes {x y : Asked κ (Except ε Bool)} (h : x.isYes = true) :
    x.both y = ⟨x.questions ++ y.questions, y.answer⟩ := by
  simp [both, andThen, isYes_iff.1 h]

theorem both_of_not_isYes {x y : Asked κ (Except ε Bool)} (h : x.isYes = false) :
    x.both y = x := by
  obtain ⟨questions, answer⟩ := x
  cases answer with
  | error e => rfl
  | ok b =>
    cases b with
    | true => cases h
    | false => simp [both, andThen, known]

theorem all_cons {a : α} : all f (a :: l) = (f a).both (all f l) := rfl

theorem all_singleton {a : α} : all f [a] = f a := by
  rw [all_cons]
  cases ha : (f a).isYes with
  | true =>
    rw [both_of_isYes ha, all, known, List.append_nil, ← isYes_iff.1 ha]
  | false => exact both_of_not_isYes ha

theorem both_assoc (x y z : Asked κ (Except ε Bool)) : (x.both y).both z = x.both (y.both z) := by
  cases hx : x.isYes with
  | false => rw [both_of_not_isYes hx, both_of_not_isYes hx, both_of_not_isYes hx]
  | true =>
    rw [both_of_isYes hx, both_of_isYes hx]
    cases hy : y.isYes with
    | false => rw [both_of_not_isYes hy, both_of_not_isYes (by simpa [isYes] using hy)]
    | true =>
      rw [both_of_isYes hy, both_of_isYes (by simpa [isYes] using hy)]
      simp

theorem all_append : all f (l ++ l') = (all f l).both (all f l') := by
  induction l with
  | nil => simp [all, both, andThen, known]
  | cons a rest ih => rw [List.cons_append, all_cons, all_cons, ih, both_assoc]

/-- The part that decides is the first one that does not say yes. -/
theorem answer_all : (all f l).answer =
    (l.find? fun a => !(f a).isYes).elim (.ok true) fun a => (f a).answer := by
  induction l with
  | nil => rfl
  | cons a rest ih =>
    rw [all_cons]
    cases ha : (f a).isYes with
    | true => rw [both_of_isYes ha, ih, List.find?_cons_of_neg (by simp [ha])]
    | false =>
      rw [both_of_not_isYes ha, List.find?_cons_of_pos (by simp [ha])]
      rfl

/-- The parts are asked from the left, up to and with the one that decides. -/
theorem questions_all : (all f l).questions =
    (l.take ((l.findIdx fun a => !(f a).isYes) + 1)).flatMap fun a => (f a).questions := by
  induction l with
  | nil => rfl
  | cons a rest ih =>
    rw [all_cons, List.findIdx_cons]
    cases ha : (f a).isYes with
    | true => simp [both_of_isYes ha, ih]
    | false => simp [both_of_not_isYes ha]

theorem eq_true_iff_of_answer {x : Asked κ (Except ε Bool)} {b : Bool} (h : x.answer = .ok b) :
    b = true ↔ x.answer = .ok true := by
  simp [h]

theorem exists_all (h : ∀ a ∈ l, ∃ b, (f a).answer = .ok b) :
    ∃ b, (all f l).answer = .ok b ∧ (b = true ↔ ∀ a ∈ l, (f a).answer = .ok true) := by
  have hanswer : ∃ b, (all f l).answer = .ok b := by
    rw [answer_all]
    cases ha : l.find? fun a => !(f a).isYes with
    | none => exact ⟨true, rfl⟩
    | some a => exact h a (List.mem_of_find?_eq_some ha)
  obtain ⟨b, hb⟩ := hanswer
  exact ⟨b, hb, (eq_true_iff_of_answer hb).trans all_eq_true_iff⟩

theorem exists_any (h : ∀ a ∈ l, ∃ b, (f a).answer = .ok b) :
    ∃ b, (any f l).answer = .ok b ∧ (b = true ↔ ∃ a ∈ l, (f a).answer = .ok true) := by
  induction l with
  | nil => exact ⟨false, rfl, by simp⟩
  | cons a rest ih =>
    obtain ⟨b, hb⟩ := h a List.mem_cons_self
    obtain ⟨c, hc, hiff⟩ := ih fun x hx => h x (List.mem_cons_of_mem a hx)
    cases b with
    | true => exact ⟨true, by simp [any, andThen, hb, known], by simp [hb]⟩
    | false => exact ⟨c, by simp [any, andThen, hb, hc], by simp [hb, hiff]⟩

theorem exists_all_any {β : Type} {g : α → β → Asked κ (Except ε Bool)} {m : List β}
    (h : ∀ a ∈ l, ∀ b ∈ m, ∃ c, (g a b).answer = .ok c) :
    ∃ c, (all (fun a => any (g a) m) l).answer = .ok c ∧
      (c = true ↔ ∀ a ∈ l, ∃ b ∈ m, (g a b).answer = .ok true) := by
  have hany : ∀ a ∈ l, ∃ c, (any (g a) m).answer = .ok c ∧
      (c = true ↔ ∃ b ∈ m, (g a b).answer = .ok true) := fun a ha => exists_any (h a ha)
  obtain ⟨c, hc, hiff⟩ := exists_all fun a ha => (hany a ha).imp fun _ h => h.1
  refine ⟨c, hc, hiff.trans (forall₂_congr fun a ha => ?_)⟩
  obtain ⟨b, hb, hiff⟩ := hany a ha
  rw [← eq_true_iff_of_answer hb, hiff]

end Asked
end StateSpace
