import StateSpace.Scope

/-!
# StateSpace.Proofs.Scope

What new scopes and requests change: a request gives a reason to its own scope, once. A scope that
is to stop goes on being so (`isRequested_addChild`, `isRequested_request`).
-/

namespace StateSpace
namespace Scopes

variable {f : Scopes} {id other : ScopeId} {reason text : String}

@[simp] theorem size_addChild : (f.addChild id).size = f.size + 1 := by
  simp [size, addChild]

@[simp] theorem size_request : (f.request id reason).size = f.size := by
  simp [size, request]

theorem ownReason?_of_size_le (h : f.size ≤ id) : f.ownReason? id = none := by
  have hnone : f.scopes[id]? = none := Array.getElem?_eq_none h
  simp [ownReason?, hnone]

/-- A new scope has no reason to stop, and the others keep theirs. -/
@[simp] theorem ownReason?_addChild : (f.addChild other).ownReason? id = f.ownReason? id := by
  by_cases h : id = f.size
  · subst h
    rw [ownReason?_of_size_le (Nat.le_refl f.size)]
    simp [ownReason?, addChild, size]
  · have hsize : id ≠ f.scopes.size := h
    simp [ownReason?, addChild, Array.getElem?_push, hsize]

theorem ownReason?_request_of_ne (h : id ≠ other) :
    (f.request other reason).ownReason? id = f.ownReason? id := by
  simp [ownReason?, request, Array.getElem?_modify, Ne.symm h]

/-- The reason of a scope that was asked to stop is the new one or an earlier one. -/
theorem ownReason?_request (h : (f.request id reason).ownReason? id = some text) :
    f.ownReason? id = some text ∨ text = reason := by
  cases hs : f.scopes[id]? with
  | none => simp [ownReason?, request, Array.getElem?_modify, hs] at h
  | some s =>
    cases hr : s.request? with
    | none =>
      simp [ownReason?, request, Array.getElem?_modify, hs, hr] at h
      exact .inr h.symm
    | some first =>
      simp [ownReason?, request, Array.getElem?_modify, hs, hr] at h
      simp [ownReason?, hs, hr, h]

theorem ownReason?_request_self (h : id < f.size) :
    (f.request id reason).ownReason? id = (f.ownReason? id).or (some reason) := by
  have hs : f.scopes[id]? = some f.scopes[id] := Array.getElem?_eq_getElem h
  simp only [ownReason?, request, Array.getElem?_modify, hs, Option.map_some, Option.bind_some]
  cases f.scopes[id].request? <;> simp

/-! ## Scopes that are to stop -/

theorem isRequested_eq_true_iff :
    f.isRequested id = true ↔ ∃ a ∈ f.lineage id, (f.ownReason? a).isSome = true := by
  simp [isRequested, reason?]

theorem lineage_addChild_of_lt (h : id < f.size) :
    (f.addChild other).lineage id = f.lineage id := by
  have hne : id ≠ f.scopes.size := Nat.ne_of_lt h
  have hold : (f.addChild other).scopes[id]? = f.scopes[id]? := by
    simp [addChild, Array.getElem?_push, hne]
  rw [lineage, lineage, hold]

@[simp] theorem lineage_request : (f.request other reason).lineage id = f.lineage id := by
  unfold lineage request
  simp only [Array.getElem?_modify]
  cases f.scopes[id]? <;> by_cases h : other = id <;> simp [h]

theorem isRequested_addChild (h : id < f.size) :
    (f.addChild other).isRequested id = f.isRequested id := by
  rw [Bool.eq_iff_iff, isRequested_eq_true_iff, isRequested_eq_true_iff, lineage_addChild_of_lt h]
  simp

theorem isSome_ownReason?_request (h : (f.ownReason? id).isSome = true) :
    ((f.request other reason).ownReason? id).isSome = true := by
  by_cases heq : id = other
  · subst heq
    have hid : id < f.size := by
      refine Nat.lt_of_not_le fun hle => ?_
      rw [ownReason?_of_size_le hle] at h
      cases h
    rw [ownReason?_request_self hid, Option.isSome_or, h, Bool.true_or]
  · rwa [ownReason?_request_of_ne heq]

theorem isRequested_request (h : f.isRequested id = true) :
    (f.request other reason).isRequested id = true := by
  obtain ⟨a, ha, hreason⟩ := isRequested_eq_true_iff.1 h
  rw [isRequested_eq_true_iff, lineage_request]
  exact ⟨a, ha, isSome_ownReason?_request hreason⟩

/-! ## Many requests at once -/

section All

variable {α : Type} {l : List α} {scope : α → ScopeId}

theorem size_foldl_request :
    (l.foldl (fun f x => f.request (scope x) reason) f).size = f.size := by
  induction l generalizing f with
  | nil => rfl
  | cons x rest ih => rw [List.foldl_cons, ih, size_request]

theorem ownReason?_foldl_request_of_ne (h : ∀ x ∈ l, scope x ≠ id) :
    (l.foldl (fun f x => f.request (scope x) reason) f).ownReason? id = f.ownReason? id := by
  induction l generalizing f with
  | nil => rfl
  | cons x rest ih =>
    rw [List.foldl_cons, ih fun y hy => h y (List.mem_cons_of_mem x hy)]
    exact ownReason?_request_of_ne (Ne.symm (h x List.mem_cons_self))

/-- A scope that is asked more than once keeps its first reason. -/
theorem ownReason?_foldl_request_of_mem (h : ∃ x ∈ l, scope x = id) (hid : id < f.size) :
    (l.foldl (fun f x => f.request (scope x) reason) f).ownReason? id =
      (f.ownReason? id).or (some reason) := by
  induction l generalizing f with
  | nil =>
    obtain ⟨x, hx, _⟩ := h
    cases hx
  | cons x rest ih =>
    have hsize : id < (f.request (scope x) reason).size := by rwa [size_request]
    have hhead : scope x = id → (f.request (scope x) reason).ownReason? id =
        (f.ownReason? id).or (some reason) := by
      rintro rfl
      exact ownReason?_request_self hid
    rw [List.foldl_cons]
    by_cases hrest : ∃ y ∈ rest, scope y = id
    · rw [ih hrest hsize]
      by_cases hx : scope x = id
      · rw [hhead hx, Option.or_assoc, Option.some_or]
      · rw [ownReason?_request_of_ne (Ne.symm hx)]
    · obtain ⟨y, hy, hyid⟩ := h
      have hne : ∀ y ∈ rest, scope y ≠ id := fun y hy heq => hrest ⟨y, hy, heq⟩
      rcases List.mem_cons.1 hy with rfl | hy
      · rw [ownReason?_foldl_request_of_ne hne, hhead hyid]
      · exact absurd hyid (hne y hy)

theorem isRequested_foldl_request (h : f.isRequested id = true) :
    (l.foldl (fun f x => f.request (scope x) reason) f).isRequested id = true := by
  induction l generalizing f with
  | nil => exact h
  | cons x rest ih => exact ih (isRequested_request h)

end All

end Scopes
end StateSpace
