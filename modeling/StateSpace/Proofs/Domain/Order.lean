import StateSpace.Domain.Cell

/-!
# StateSpace.Proofs.Domain.Order

The order of a domain as a relation.

* `andThen_eq_ok_iff`, `all_eq_true_iff`, `exists_of_any_eq_true`, `both_eq_true_iff`: when a
  connective of answers says yes.
* `Domain.Below`: the order confirms that one state lies below another. `Domain.IsPreorder` is what
  a sensible order satisfies, and it always has an answer.
-/

namespace StateSpace
namespace Asked

variable {κ ε δ α β : Type}

theorem andThen_eq_ok_iff {x : Asked κ (Except ε α)} {next : α → Asked κ (Except ε β)} {b : β} :
    (x.andThen next).answer = .ok b ↔ ∃ a, x.answer = .ok a ∧ (next a).answer = .ok b := by
  unfold andThen
  split
  · rename_i e he
    simp [he]
  · rename_i a ha
    simp [ha]

theorem both_eq_true_iff {x y : Asked κ (Except ε Bool)} :
    (x.both y).answer = .ok true ↔ x.answer = .ok true ∧ y.answer = .ok true := by
  rw [both, andThen_eq_ok_iff]
  constructor
  · rintro ⟨a, ha, hy⟩
    cases a with
    | true => exact ⟨ha, hy⟩
    | false => cases hy
  · rintro ⟨hx, hy⟩
    exact ⟨true, hx, hy⟩

theorem all_eq_true_iff {f : α → Asked κ (Except ε Bool)} {l : List α} :
    (all f l).answer = .ok true ↔ ∀ a ∈ l, (f a).answer = .ok true := by
  induction l with
  | nil => simp [all, known]
  | cons a rest ih =>
    rw [all, andThen_eq_ok_iff, List.forall_mem_cons]
    constructor
    · rintro ⟨b, hb, hrest⟩
      cases b with
      | true => exact ⟨hb, ih.1 hrest⟩
      | false => cases hrest
    · rintro ⟨ha, hrest⟩
      exact ⟨true, ha, ih.2 hrest⟩

theorem exists_of_any_eq_true {f : α → Asked κ (Except ε Bool)} {l : List α}
    (h : (any f l).answer = .ok true) : ∃ a ∈ l, (f a).answer = .ok true := by
  induction l with
  | nil => cases h
  | cons a rest ih =>
    rw [any, andThen_eq_ok_iff] at h
    obtain ⟨b, hb, hrest⟩ := h
    cases b with
    | true => exact ⟨a, List.mem_cons_self, hb⟩
    | false =>
      obtain ⟨c, hc, hf⟩ := ih hrest
      exact ⟨c, List.mem_cons_of_mem a hc, hf⟩

theorem mapError_eq_ok_iff {f : ε → δ} {x : Asked κ (Except ε α)} {a : α} :
    (x.mapError f).answer = .ok a ↔ x.answer = .ok a := by
  cases hx : x.answer <;> simp [mapError, map, hx]

end Asked

namespace Domain

variable {κ σ : Type} {d : Domain κ σ} {a b : σ}

def Below (d : Domain κ σ) (a b : σ) : Prop := (d.below a b).answer = .ok true

structure IsPreorder (d : Domain κ σ) : Prop where
  total : ∀ a b, ∃ answer, (d.below a b).answer = .ok answer
  refl : ∀ a, d.Below a a
  trans : ∀ {a b c}, d.Below a b → d.Below b c → d.Below a c

theorem same_eq_true_iff : (d.same a b).answer = .ok true ↔ d.Below a b ∧ d.Below b a :=
  Asked.both_eq_true_iff

theorem isPreorder_single {question : κ} {order : σ → σ → Bool}
    {join : σ → σ → Except Domain.Error σ} (hrefl : ∀ a, order a a = true)
    (htrans : ∀ a b c, order a b = true → order b c = true → order a c = true) :
    (single question order join).IsPreorder where
  total a b := ⟨order a b, rfl⟩
  refl a := congrArg Except.ok (hrefl a)
  trans hab hbc := congrArg Except.ok (htrans _ _ _ (Except.ok.inj hab) (Except.ok.inj hbc))

end Domain

theorem CellOrder.isPreorder_interval {κ : Type} (question : κ) :
    (CellOrder.domain question .interval).IsPreorder := by
  refine Domain.isPreorder_single ?_ ?_
  · simp [CellOrder.below]
  · intro a b c hab hbc
    simp only [CellOrder.below, Bool.and_eq_true, decide_eq_true_eq] at hab hbc ⊢
    omega

end StateSpace
