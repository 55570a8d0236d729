import StateSpace.Proofs.Invariant.Formula
import StateSpace.Proofs.Invariant.Supplier

/-!
# StateSpace.Proofs.Invariant.Pooling

What a pool of suppliers answers.

* `Formula.IsLawful`: what `Formula.meetAll` relies on. The conjunction of several formulas is then
  the conjunction, from the left, of those that say something (`meetAll_of_informative`), and
  formulas that say nothing are never handed to `Formula.and` (`meetAll_intact`).
* `Network.Serves`: a supplier that a question ends at. For conjunctions of atoms, a question is
  answered with the atoms of all suppliers that it ends at (`mem_ask_iff`).
* `Network.Rearranged`: other lists of members, in another order, with repetitions, or with some of
  them behind a pool of their own. They answer the same (`Rearranged.mem_iff`).
* `pooled_answers`: all of this for the pools of a network.
-/

namespace StateSpace

open Std

namespace Formula

variable {φ : Type} [Formula φ]

/-- The formula that holds always is seen to do so, and no conjunction of other formulas is. -/
structure IsLawful (φ : Type) [Formula φ] : Prop where
  seen : isTautology (tautology : φ) = true
  unseen : ∀ a b : φ, isTautology a = false → isTautology b = false →
    isTautology (and a b) = false

/-- The formulas that are not seen to hold always. -/
def informative (l : List φ) : List φ := l.filter fun a => !isTautology a

/-- A formula, or what is left of one after `and` was called on a formula that is seen to hold
always. It is left for good. -/
inductive Guarded (φ : Type) where
  | intact (a : φ)
  | misused

instance : Formula (Guarded φ) where
  tautology := .intact tautology
  isTautology
    | .intact a => isTautology a
    | .misused => false
  and
    | .intact a, .intact b =>
      if isTautology a || isTautology b then .misused else .intact (and a b)
    | _, _ => .misused

theorem meet_intact (a b : φ) : meet (Guarded.intact a) (.intact b) = .intact (meet a b) := by
  unfold meet
  cases ha : isTautology a <;> cases hb : isTautology b <;>
    simp [and, ha, hb]

theorem meetAll_intact (l : List φ) : meetAll (l.map Guarded.intact) = .intact (meetAll l) := by
  have h : ∀ a : φ, (l.map Guarded.intact).foldl meet (.intact a) = .intact (l.foldl meet a) := by
    induction l with
    | nil => exact fun _ => rfl
    | cons b rest ih =>
      intro a
      rw [List.map_cons, List.foldl_cons, List.foldl_cons, meet_intact, ih]
  exact h tautology

namespace IsLawful

variable {a : φ} {l rest : List φ}

theorem foldl_meet_of_informative (h : IsLawful φ) (ha : isTautology a = false) :
    l.foldl meet a = (informative l).foldl and a := by
  induction l generalizing a with
  | nil => rfl
  | cons b rest ih =>
    cases hb : isTautology b with
    | true =>
      have hmeet : meet a b = a := by simp [meet, ha, hb]
      rw [List.foldl_cons, hmeet, ih ha]
      simp [informative, hb]
    | false =>
      have hmeet : meet a b = and a b := by simp [meet, ha, hb]
      rw [List.foldl_cons, hmeet, ih (h.unseen a b ha hb)]
      simp [informative, hb]

theorem foldl_meet_of_tautology (h : IsLawful φ) (ha : isTautology a = true) :
    (informative l = [] → isTautology (l.foldl meet a) = true) ∧
      ∀ b rest, informative l = b :: rest → l.foldl meet a = rest.foldl and b := by
  induction l generalizing a with
  | nil => exact ⟨fun _ => ha, fun b rest hl => by cases hl⟩
  | cons b tail ih =>
    have hmeet : meet a b = b := by simp [meet, ha]
    rw [List.foldl_cons, hmeet]
    cases hb : isTautology b with
    | true =>
      have hskip : informative (b :: tail) = informative tail := by simp [informative, hb]
      rw [hskip]
      exact ih hb
    | false =>
      have hkeep : informative (b :: tail) = b :: informative tail := by simp [informative, hb]
      rw [hkeep]
      refine ⟨fun hnil => (by cases hnil), fun c rest hl => ?_⟩
      cases hl
      exact h.foldl_meet_of_informative hb

theorem isTautology_meetAll (h : IsLawful φ) (hl : informative l = []) :
    isTautology (meetAll l) = true :=
  (h.foldl_meet_of_tautology h.seen).1 hl

theorem meetAll_of_informative (h : IsLawful φ) (hl : informative l = a :: rest) :
    meetAll l = rest.foldl and a :=
  (h.foldl_meet_of_tautology h.seen).2 a rest hl

end IsLawful

end Formula

theorem Conjunction.isLawful {α : Type} [Ord α] [TransOrd α] :
    Formula.IsLawful (Conjunction α) where
  seen := ExtTreeSet.isEmpty_empty
  unseen a b ha _ := by
    have hunion : (a.atoms ∪ b.atoms).isEmpty = (a.atoms.isEmpty && b.atoms.isEmpty) :=
      ExtTreeSet.isEmpty_union
    have hleft : a.atoms.isEmpty = false := ha
    rw [hleft, Bool.false_and] at hunion
    exact hunion

namespace Invariant

open Relation

variable {κ φ : Type}

namespace Network

/-! ## Where questions end -/

/-- A question to the first supplier ends at the second one, among others. -/
structure Serves (n : Network κ φ) (s leaf : Supplier κ φ) : Prop where
  leads : ReflTransGen n.PassesOn s leaf
  ends : leaf.IsPure

/-- Two lists of members that differ in their order, in repetitions, and in members that stand
behind a pool of their own. -/
inductive Rearranged (n : Network κ φ) : List (Supplier κ φ) → List (Supplier κ φ) → Prop where
  | reorder {l l'} : l.Perm l' → Rearranged n l l'
  | twice (s : Supplier κ φ) (l) : Rearranged n (s :: l) (s :: s :: l)
  | nest (id : PoolId) (l) : Rearranged n (n.members id ++ l) (.pool id :: l)
  | symm {l l'} : Rearranged n l l' → Rearranged n l' l
  | trans {l l' l''} : Rearranged n l l' → Rearranged n l' l'' → Rearranged n l l''

section Ends

variable {n : Network κ φ} {s t leaf : Supplier κ φ} {l l' : List (Supplier κ φ)}

theorem not_passesOn_of_isPure (h : s.IsPure) : ¬ n.PassesOn s t := by
  intro hst
  cases hst <;> cases h

theorem serves_of_isPure (h : s.IsPure) : n.Serves s leaf ↔ leaf = s := by
  constructor
  · rintro ⟨hleads, -⟩
    rcases hleads.cases_head with rfl | ⟨t, hst, -⟩
    · rfl
    · exact absurd hst (not_passesOn_of_isPure h)
  · rintro rfl
    exact ⟨.refl, h⟩

/-- A question that is passed on ends where it ends for those it is passed on to. -/
theorem serves_of_not_isPure (h : ¬ s.IsPure) :
    n.Serves s leaf ↔ ∃ t, n.PassesOn s t ∧ n.Serves t leaf := by
  constructor
  · rintro ⟨hleads, hends⟩
    rcases hleads.cases_head with rfl | ⟨t, hst, hrest⟩
    · exact absurd hends h
    · exact ⟨t, hst, hrest, hends⟩
  · rintro ⟨t, hst, hleads, hends⟩
    exact ⟨.head hst hleads, hends⟩

theorem grounded_pool_iff {id : PoolId} :
    n.Grounded (.pool id) ↔ ∀ s ∈ n.members id, n.Grounded s := by
  refine ⟨fun h s hs => h.passesOn (.pool hs), fun h => .intro _ fun t ht => ?_⟩
  cases ht with
  | pool hs => exact h t hs

theorem Grounded.leads (hg : n.Grounded s) (h : ReflTransGen n.PassesOn s t) : n.Grounded t := by
  induction h with
  | refl => exact hg
  | tail _ hst ih => exact ih.passesOn hst

/-- Rearranging members makes no question go round in circles. -/
theorem Rearranged.grounded_iff (h : n.Rearranged l l') :
    (∀ s ∈ l, n.Grounded s) ↔ ∀ s ∈ l', n.Grounded s := by
  induction h with
  | reorder hperm => simp only [hperm.mem_iff]
  | twice s l => simp
  | nest id l => simp only [List.forall_mem_append, List.forall_mem_cons, grounded_pool_iff]
  | symm _ ih => exact ih.symm
  | trans _ _ ih ih' => exact ih.trans ih'

end Ends

/-! ## Answers -/

/-- What the members of a pool answer, in the order of their registration. -/
def answers [Formula φ] (n : Network κ φ) (id : PoolId) (location : Location) (context : φ) :
    List φ :=
  (n.members id).map fun s => (n.ask s location context).answer

section Atoms

variable {α : Type} [Ord α] [TransOrd α] {n : Network κ (Conjunction α)}
  {s t : Supplier κ (Conjunction α)} {l l' : List (Supplier κ (Conjunction α))}
  {location : Location} {context : Conjunction α} {id : PoolId} {x : α}

theorem Grounded.mem_ask_pool_iff (hg : n.Grounded (.pool id)) :
    x ∈ (n.ask (.pool id) location context).answer.atoms ↔
      ∃ s ∈ n.members id, x ∈ (n.ask s location context).answer.atoms := by
  rw [hg.ask_pool, Conjunction.mem_meetAll]
  simp

theorem Grounded.mem_ask_iff_of_passesOn (hg : n.Grounded s) (hs : ¬ s.IsPure) :
    x ∈ (n.ask s location context).answer.atoms ↔
      ∃ t, n.PassesOn s t ∧ x ∈ (n.ask t location context).answer.atoms := by
  cases s with
  | trivial => exact absurd trivial hs
  | own name answer => exact absurd trivial hs
  | slot id =>
    rw [hg.ask_slot]
    constructor
    · exact fun hx => ⟨_, .slot id, hx⟩
    · rintro ⟨t, hst, hx⟩
      cases hst
      exact hx
  | pool id =>
    rw [hg.mem_ask_pool_iff]
    constructor
    · rintro ⟨t, ht, hx⟩
      exact ⟨t, .pool ht, hx⟩
    · rintro ⟨t, hst, hx⟩
      cases hst with
      | pool ht => exact ⟨t, ht, hx⟩

/-- A question is answered with the atoms of the suppliers that it ends at. -/
theorem Grounded.mem_ask_iff (hg : n.Grounded s) :
    x ∈ (n.ask s location context).answer.atoms ↔
      ∃ leaf, n.Serves s leaf ∧ x ∈ (n.ask leaf location context).answer.atoms := by
  induction hg with
  | intro s hacc ih =>
    have hg : n.Grounded s := .intro s hacc
    by_cases hs : s.IsPure
    · simp only [serves_of_isPure hs, exists_eq_left]
    · simp only [hg.mem_ask_iff_of_passesOn hs, serves_of_not_isPure hs]
      constructor
      · rintro ⟨t, hst, hx⟩
        obtain ⟨leaf, hserves, hx⟩ := (ih t hst).1 hx
        exact ⟨leaf, ⟨t, hst, hserves⟩, hx⟩
      · rintro ⟨leaf, ⟨t, hst, hserves⟩, hx⟩
        exact ⟨t, hst, (ih t hst).2 ⟨leaf, hserves, hx⟩⟩

theorem Rearranged.mem_iff (h : n.Rearranged l l') (hg : ∀ s ∈ l, n.Grounded s) :
    (∃ s ∈ l, x ∈ (n.ask s location context).answer.atoms) ↔
      ∃ s ∈ l', x ∈ (n.ask s location context).answer.atoms := by
  induction h with
  | reorder hperm => simp only [hperm.mem_iff]
  | twice s l => simp
  | nest id l =>
    have hpool : n.Grounded (.pool id) :=
      grounded_pool_iff.2 fun s hs => hg s (List.mem_append_left l hs)
    simp only [List.mem_append, List.mem_cons, or_and_right, exists_or, exists_eq_left,
      hpool.mem_ask_pool_iff]
  | symm h ih => exact (ih (h.grounded_iff.2 hg)).symm
  | trans h _ ih ih' => exact (ih hg).trans (ih' (h.grounded_iff.1 hg))

end Atoms

end Network

/-! ## Pools -/

open Network

/-- A pool asks each member once, in order, and answers with the conjunction from the left of what
says something. -/
structure Folded [Formula φ] (n : Network κ φ) (id : PoolId) (location : Location)
    (context : φ) : Prop where
  questions : (n.ask (.pool id) location context).questions =
    (n.members id).flatMap fun s => (n.ask s location context).questions
  /-- Members with answers of their own are asked for just this location and context. -/
  asked : ∀ l : List (κ × (Location → φ → φ)),
    n.members id = l.map (fun member => .own member.1 member.2) →
    (n.ask (.pool id) location context).questions = l.map (·.1) ∧
      n.answers id location context = l.map fun member => member.2 location context
  silent : Formula.informative (n.answers id location context) = [] →
    Formula.isTautology (n.ask (.pool id) location context).answer = true
  spoken : ∀ a rest, Formula.informative (n.answers id location context) = a :: rest →
    (n.ask (.pool id) location context).answer = rest.foldl Formula.and a
  careful : Formula.meetAll ((n.answers id location context).map Formula.Guarded.intact) =
    .intact (n.ask (.pool id) location context).answer

/-- A pool answers with the greatest conjunction that implies what its members answer, however they
are arranged. -/
structure Joined {α : Type} [Ord α] [TransOrd α] (n : Network κ (Conjunction α)) (id : PoolId)
    (location : Location) (context : Conjunction α) : Prop where
  atoms : ∀ x, x ∈ (n.ask (.pool id) location context).answer.atoms ↔
    ∃ leaf, n.Serves (.pool id) leaf ∧ x ∈ (n.ask leaf location context).answer.atoms
  implies : ∀ s, ReflTransGen n.PassesOn (.pool id) s →
    (n.ask (.pool id) location context).answer.implies (n.ask s location context).answer = true
  implied : ∀ c : Conjunction α,
    (∀ s ∈ n.members id, c.implies (n.ask s location context).answer = true) →
    c.implies (n.ask (.pool id) location context).answer = true
  rearranged : ∀ other, n.Rearranged (n.members id) (n.members other) →
    (n.ask (.pool other) location context).answer = (n.ask (.pool id) location context).answer

section Pools

theorem Network.Grounded.folded [Formula φ] {n : Network κ φ} {id : PoolId}
    (hg : n.Grounded (.pool id)) (hlaw : Formula.IsLawful φ) (location : Location)
    (context : φ) : Folded n id location context := by
  have hask : n.ask (.pool id) location context = _ := hg.ask_pool
  have hanswer : (n.ask (.pool id) location context).answer =
      Formula.meetAll (n.answers id location context) := by
    rw [hask, answers, List.map_map]
    rfl
  constructor
  case questions => rw [hask, List.flatMap_map]
  case asked =>
    intro l hl
    rw [hask, answers, hl]
    constructor
    · simp only [List.flatMap_map, ask_own]
      exact List.map_eq_flatMap.symm
    · simp [Function.comp_def]
  case silent =>
    intro hl
    rw [hanswer]
    exact hlaw.isTautology_meetAll hl
  case spoken =>
    intro a rest hl
    rw [hanswer]
    exact hlaw.meetAll_of_informative hl
  case careful =>
    rw [hanswer]
    exact Formula.meetAll_intact _

variable {α : Type} [Ord α] [TransOrd α] [LawfulEqOrd α]

theorem Network.Grounded.joined {n : Network κ (Conjunction α)} {id : PoolId}
    (hg : n.Grounded (.pool id)) (location : Location) (context : Conjunction α) :
    Joined n id location context := by
  constructor
  case atoms => exact fun x => hg.mem_ask_iff
  case implies =>
    intro s hs
    refine Conjunction.implies_iff.2 fun x hx => ?_
    obtain ⟨leaf, hserves, hx⟩ := (hg.leads hs).mem_ask_iff.1 hx
    exact hg.mem_ask_iff.2 ⟨leaf, ⟨hs.trans hserves.leads, hserves.ends⟩, hx⟩
  case implied =>
    intro c hc
    refine Conjunction.implies_iff.2 fun x hx => ?_
    obtain ⟨s, hs, hx⟩ := hg.mem_ask_pool_iff.1 hx
    exact Conjunction.implies_iff.1 (hc s hs) x hx
  case rearranged =>
    intro other hother
    have hmembers := grounded_pool_iff.1 hg
    have hgrounded : n.Grounded (.pool other) :=
      grounded_pool_iff.2 (hother.grounded_iff.1 hmembers)
    refine Conjunction.ext_atoms fun x => ?_
    rw [hg.mem_ask_pool_iff, hgrounded.mem_ask_pool_iff]
    exact (hother.mem_iff hmembers).symm

/-- A pool folds what its members answer. Of conjunctions of atoms it makes their greatest lower
bound, which depends only on the suppliers that questions end at. -/
theorem pooled_answers [Formula φ] :
    (Formula.IsLawful φ → ∀ (n : Network κ φ) (id : PoolId), n.Grounded (.pool id) →
      ∀ location context, Folded n id location context) ∧
    ∀ (n : Network κ (Conjunction α)) (id : PoolId), n.Grounded (.pool id) →
      ∀ location context, Joined n id location context :=
  ⟨fun hlaw _ _ hg => hg.folded hlaw, fun _ _ hg => hg.joined⟩

end Pools

/-- A supplier that knows one number to hold everywhere. -/
def telling (x : Nat) : Supplier Nat (Conjunction Nat) := .own x fun _ _ => .atom x

/-- Pool 0 reaches pool 1 through a slot. Pool 2 holds the same suppliers in another order, some of
them twice, behind pool 3. -/
def nested : Network Nat (Conjunction Nat) where
  slots := #[.pool 1]
  pools := #[[telling 5, .trivial, .slot 0], [telling 7, telling 5], [.slot 0, .pool 3, .pool 3],
    [telling 5, .trivial]]

theorem grounded_nested : nested.Grounded (.pool 0) := by
  have htelling : ∀ x, nested.Grounded (telling x) := fun _ => grounded_of_isPure trivial
  have hslot : nested.Grounded (.slot 0) := by
    refine .intro _ fun t ht => ?_
    cases ht
    refine grounded_pool_iff.2 fun s hs => ?_
    have hmembers : s ∈ [telling 7, telling 5] := hs
    simp only [List.mem_cons, List.not_mem_nil, or_false] at hmembers
    rcases hmembers with rfl | rfl <;> exact htelling _
  refine grounded_pool_iff.2 fun s hs => ?_
  have hmembers : s ∈ [telling 5, .trivial, .slot 0] := hs
  simp only [List.mem_cons, List.not_mem_nil, or_false] at hmembers
  rcases hmembers with rfl | rfl | rfl
  · exact htelling 5
  · exact grounded_of_isPure trivial
  · exact hslot

theorem rearranged_nested : nested.Rearranged (nested.members 0) (nested.members 2) := by
  have hnest : nested.Rearranged (nested.members 0) [.pool 3, .slot 0] := .nest 3 [.slot 0]
  refine hnest.trans ((Rearranged.twice _ _).trans (.reorder ?_))
  exact List.perm_append_singleton (Supplier.slot 0) [Supplier.pool 3, Supplier.pool 3]

theorem pooled_answers_nested :
    Formula.IsLawful (Conjunction Nat) ∧ nested.Grounded (.pool 0) ∧
      nested.Rearranged (nested.members 0) (nested.members 2) ∧
      Folded nested 0 ⟨1⟩ Formula.tautology ∧ Joined nested 0 ⟨1⟩ Formula.tautology ∧
      (nested.ask (.pool 0) ⟨1⟩ Formula.tautology).questions = [5, 7, 5] ∧
      (nested.ask (.pool 0) ⟨1⟩ Formula.tautology).answer = .ofList [5, 7] ∧
      (nested.ask (.pool 2) ⟨1⟩ Formula.tautology).answer =
        (nested.ask (.pool 0) ⟨1⟩ Formula.tautology).answer := by
  obtain ⟨hfolded, hjoined⟩ :=
    pooled_answers (κ := Nat) (φ := Conjunction Nat) (α := Nat)
  have hjoin := hjoined nested 0 grounded_nested ⟨1⟩ Formula.tautology
  exact ⟨Conjunction.isLawful, grounded_nested, rearranged_nested,
    hfolded Conjunction.isLawful nested 0 grounded_nested ⟨1⟩ Formula.tautology, hjoin,
    by decide +kernel, by decide +kernel, hjoin.rearranged 2 rearranged_nested⟩

end Invariant

end StateSpace
