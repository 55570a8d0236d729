import Mathlib.Data.List.Perm.Subperm
import Mathlib.Logic.Relation
import StateSpace.Invariant.Supplier

/-!
# StateSpace.Proofs.Invariant.Supplier

Suppliers that pass questions on.

* `Network.PassesOn`, `Network.Grounded`: a slot passes questions on to the supplier it holds, and a
  pool passes them on to its members. No question to a grounded supplier is passed on for ever.
* `Network.Trace`: where a question was before it came to a supplier. A question to a grounded
  supplier never comes back to a slot or a pool, so the depth of the network is enough for it, and
  going deeper changes nothing (`Grounded.askWithin_depth_succ`).
* `Grounded.ask_slot`, `Grounded.ask_pool`: what such slots and pools answer.
-/

namespace StateSpace
namespace Invariant

open Relation

variable {κ φ : Type}

/-- The supplier passes no question on. -/
def Supplier.IsPure : Supplier κ φ → Prop
  | .trivial => True
  | .own _ _ => True
  | .slot _ => False
  | .pool _ => False

namespace Network

variable {n : Network κ φ} {s t : Supplier κ φ} {visited : List (Supplier κ φ)}

inductive PassesOn (n : Network κ φ) : Supplier κ φ → Supplier κ φ → Prop where
  | slot (id : SlotId) : PassesOn n (.slot id) (n.published id)
  | pool {id : PoolId} {member : Supplier κ φ} : member ∈ n.members id →
      PassesOn n (.pool id) member

def Grounded (n : Network κ φ) (s : Supplier κ φ) : Prop := Acc (fun t s => n.PassesOn s t) s

theorem Grounded.passesOn (h : n.Grounded s) (hp : n.PassesOn s t) : n.Grounded t := h.inv hp

theorem Grounded.not_cycle (h : n.Grounded s) : ¬ TransGen n.PassesOn s s := by
  induction h with
  | intro s _ ih =>
    intro hcycle
    obtain ⟨t, hst, hts⟩ := TransGen.head'_iff.1 hcycle
    exact ih t hst (TransGen.tail' hts hst)

theorem grounded_of_isPure (h : s.IsPure) : n.Grounded s := by
  refine .intro s fun t ht => ?_
  cases ht <;> cases h

/-! ## The way of a question -/

/-- The slots and pools of the network. -/
def relays (n : Network κ φ) : List (Supplier κ φ) :=
  (List.range n.slots.size).map .slot ++ (List.range n.pools.size).map .pool

theorem length_relays : n.relays.length = n.depth := by
  simp [relays, depth]

theorem slot_mem_relays {id : SlotId} : .slot id ∈ n.relays ↔ id < n.slots.size := by
  simp [relays]

theorem pool_mem_relays {id : PoolId} : .pool id ∈ n.relays ↔ id < n.pools.size := by
  simp [relays]

theorem published_of_le {id : SlotId} (h : n.slots.size ≤ id) : n.published id = .trivial := by
  simp [published, h]

theorem members_of_le {id : PoolId} (h : n.pools.size ≤ id) : n.members id = [] := by
  simp [members, h]

structure Trace (n : Network κ φ) (visited : List (Supplier κ φ)) (s : Supplier κ φ) : Prop where
  distinct : visited.Nodup
  inside : visited ⊆ n.relays
  leads : ∀ v ∈ visited, TransGen n.PassesOn v s

namespace Trace

theorem start (s : Supplier κ φ) : n.Trace [] s :=
  ⟨List.nodup_nil, List.nil_subset _, fun _ hv => absurd hv List.not_mem_nil⟩

theorem not_mem (h : n.Trace visited s) (hg : n.Grounded s) : s ∉ visited :=
  fun hs => hg.not_cycle (h.leads s hs)

theorem nodup_cons (h : n.Trace visited s) (hg : n.Grounded s) : (s :: visited).Nodup :=
  List.nodup_cons.2 ⟨h.not_mem hg, h.distinct⟩

theorem passesOn (h : n.Trace visited s) (hg : n.Grounded s) (hs : s ∈ n.relays)
    (hp : n.PassesOn s t) : n.Trace (s :: visited) t where
  distinct := h.nodup_cons hg
  inside := List.cons_subset.2 ⟨hs, h.inside⟩
  leads v hv := by
    rcases List.mem_cons.1 hv with rfl | hv
    · exact .single hp
    · exact (h.leads v hv).tail hp

/-- A question that is at a slot or a pool was passed on less often than the depth allows. -/
theorem length_lt (h : n.Trace visited s) (hg : n.Grounded s) (hs : s ∈ n.relays) :
    visited.length < n.depth := by
  have hsub : s :: visited ⊆ n.relays := List.cons_subset.2 ⟨hs, h.inside⟩
  have hlen := (List.subperm_of_subset (h.nodup_cons hg) hsub).length_le
  rwa [length_relays, List.length_cons] at hlen

end Trace

/-! ## Changes -/

section Changes

variable {id : SlotId} {pool : PoolId}

theorem published_publish (h : id < n.slots.size) (other : SlotId) :
    (n.publish id s).published other = if id = other then s else n.published other := by
  by_cases heq : id = other
  · subst heq
    simp [published, publish, Array.getElem_modify, h]
  · simp [published, publish, Array.getElem?_modify, heq]

@[simp]
theorem members_publish : (n.publish id s).members pool = n.members pool := rfl

@[simp]
theorem published_register : (n.register pool s).published id = n.published id := rfl

theorem members_register (h : pool < n.pools.size) :
    (n.register pool s).members pool = n.members pool ++ [s] := by
  simp [members, register, Array.getElem_modify, h]

theorem members_register_of_ne {other : PoolId} (h : pool ≠ other) :
    (n.register pool s).members other = n.members other := by
  simp [members, register, Array.getElem?_modify, h]

@[simp]
theorem members_addSlot : n.addSlot.members pool = n.members pool := rfl

theorem published_addSlot : n.addSlot.published id = n.published id := by
  by_cases h : id = n.slots.size
  · simp [published, addSlot, h]
  · simp [published, addSlot, Array.getElem?_push, h]

end Changes

/-! ## Answers -/

variable [Formula φ] {location : Location} {context : φ}

@[simp]
theorem askWithin_trivial (depth : Nat) :
    n.askWithin location context depth .trivial = .known Formula.tautology := by
  cases depth <;> rfl

@[simp]
theorem askWithin_own (depth : Nat) (name : κ) (answer : Location → φ → φ) :
    n.askWithin location context depth (.own name answer) = ⟨[name], answer location context⟩ := by
  cases depth <;> rfl

theorem askWithin_slot (depth : Nat) (id : SlotId) :
    n.askWithin location context (depth + 1) (.slot id) =
      n.askWithin location context depth (n.published id) := rfl

theorem askWithin_pool (depth : Nat) (id : PoolId) :
    n.askWithin location context (depth + 1) (.pool id) =
      ⟨((n.members id).map (n.askWithin location context depth)).flatMap (·.questions),
        Formula.meetAll (((n.members id).map (n.askWithin location context depth)).map
          (·.answer))⟩ := rfl

theorem askWithin_slot_of_le {id : SlotId} (h : n.slots.size ≤ id) (depth : Nat) :
    n.askWithin location context depth (.slot id) = .known Formula.tautology := by
  cases depth with
  | zero => rfl
  | succ depth => rw [askWithin_slot, published_of_le h, askWithin_trivial]

theorem askWithin_pool_of_le {id : PoolId} (h : n.pools.size ≤ id) (depth : Nat) :
    n.askWithin location context depth (.pool id) = .known Formula.tautology := by
  cases depth with
  | zero => rfl
  | succ depth =>
    rw [askWithin_pool, members_of_le h]
    rfl

/-- Going deeper changes nothing for a question that comes to a grounded supplier. -/
theorem Grounded.askWithin_succ (hg : n.Grounded s) {depth : Nat} (h : n.Trace visited s)
    (hdepth : n.depth ≤ visited.length + depth) :
    n.askWithin location context (depth + 1) s = n.askWithin location context depth s := by
  induction hg generalizing visited depth with
  | intro s hacc ih =>
    have hg : n.Grounded s := .intro s hacc
    have hdeeper : ∀ {t d}, s ∈ n.relays → n.PassesOn s t → depth = d + 1 →
        n.askWithin location context (d + 1) t = n.askWithin location context d t := by
      intro t d hs hp hd
      refine ih t hp (h.passesOn hg hs hp) ?_
      rw [List.length_cons]
      omega
    cases s with
    | trivial => simp
    | own name answer => simp
    | slot id =>
      by_cases hid : id < n.slots.size
      · have hs : .slot id ∈ n.relays := slot_mem_relays.2 hid
        have hlt := h.length_lt hg hs
        obtain ⟨d, rfl⟩ : ∃ d, depth = d + 1 := ⟨depth - 1, by omega⟩
        rw [askWithin_slot, askWithin_slot]
        exact hdeeper hs (.slot id) rfl
      · rw [askWithin_slot_of_le (Nat.le_of_not_lt hid), askWithin_slot_of_le (Nat.le_of_not_lt hid)]
    | pool id =>
      by_cases hid : id < n.pools.size
      · have hs : .pool id ∈ n.relays := pool_mem_relays.2 hid
        have hlt := h.length_lt hg hs
        obtain ⟨d, rfl⟩ : ∃ d, depth = d + 1 := ⟨depth - 1, by omega⟩
        have hmembers : (n.members id).map (n.askWithin location context (d + 1)) =
            (n.members id).map (n.askWithin location context d) :=
          List.map_congr_left fun t ht => hdeeper hs (.pool ht) rfl
        rw [askWithin_pool, askWithin_pool, hmembers]
      · rw [askWithin_pool_of_le (Nat.le_of_not_lt hid), askWithin_pool_of_le (Nat.le_of_not_lt hid)]

theorem Grounded.askWithin_depth_succ (hg : n.Grounded s) :
    n.askWithin location context (n.depth + 1) s = n.ask s location context :=
  hg.askWithin_succ (.start s) (by simp)

@[simp]
theorem ask_own (name : κ) (answer : Location → φ → φ) :
    n.ask (.own name answer) location context = ⟨[name], answer location context⟩ :=
  askWithin_own _ _ _

theorem Grounded.ask_slot {id : SlotId} (hg : n.Grounded (.slot id)) :
    n.ask (.slot id) location context = n.ask (n.published id) location context := by
  rw [← hg.askWithin_depth_succ, askWithin_slot]
  rfl

theorem Grounded.ask_pool {id : PoolId} (hg : n.Grounded (.pool id)) :
    n.ask (.pool id) location context =
      ⟨((n.members id).map (n.ask · location context)).flatMap (·.questions),
        Formula.meetAll (((n.members id).map (n.ask · location context)).map (·.answer))⟩ := by
  rw [← hg.askWithin_depth_succ, askWithin_pool]
  rfl

end Network

end Invariant
end StateSpace
