import Mathlib.Logic.Relation
import StateSpace.Proofs.Scope

/-!
# StateSpace.Proofs.Cancellation

Who is to stop, and why, after any scopes were added and any requests were made.

* `Action`, `replay?`: scopes are added and asked to stop in any order. Only scopes that are there
  can be named.
* `Inside`, `reasonsFor`, `Nearest`: what a log of such actions says by itself. A scope lies inside
  its parent and inside all that its parent lies inside; the reasons given to a scope are those of
  the requests made to it.
* `Tracks`: the scopes after a log know their lineages and the first reasons given to them. Every
  action keeps this.
* `governed_of_replay`: a scope is to stop when it or a scope around it was asked to, for the first
  reason given to the nearest of these; a request reaches nobody else, and nothing takes it back.
-/

namespace StateSpace
namespace Scopes

inductive Action where
  | addRoot
  | addChild (parent : ScopeId)
  | request (id : ScopeId) (reason : String)
deriving DecidableEq, Repr

def perform? (f : Scopes) : Action → Option Scopes
  | .addRoot => some f.addRoot
  | .addChild parent => if parent < f.size then some (f.addChild parent) else none
  | .request id reason => if id < f.size then some (f.request id reason) else none

/-- What actions lead to, the earliest of them first. -/
def replay? (f : Scopes) : List Action → Option Scopes
  | [] => some f
  | action :: rest =>
    match f.perform? action with
    | some f' => f'.replay? rest
    | none => none

variable {f f' : Scopes} {log later : List Action} {action : Action} {id a b : ScopeId}

theorem replay?_cons (h : f.replay? (action :: log) = some f') :
    ∃ q, f.perform? action = some q ∧ q.replay? log = some f' := by
  unfold replay? at h
  split at h
  · rename_i q hq
    exact ⟨q, hq, h⟩
  · cases h

/-! ## What a log says -/

/-- The parents of the scopes that were added, in the order of their numbers. -/
def parents (log : List Action) : List (Option ScopeId) := log.filterMap fun
  | .addRoot => some none
  | .addChild parent => some (some parent)
  | .request _ _ => none

def IsChild (log : List Action) (id parent : ScopeId) : Prop :=
  (parents log)[id]? = some (some parent)

/-- The scope is the other one, or lies inside it. -/
def Inside (log : List Action) : ScopeId → ScopeId → Prop := Relation.ReflTransGen (IsChild log)

/-- The reasons of the requests made to a scope, the earliest first. -/
def reasonsFor (log : List Action) (id : ScopeId) : List String := log.filterMap fun
  | .request target reason => if target = id then some reason else none
  | _ => none

def IsTarget (log : List Action) (id : ScopeId) : Prop := ∃ reason, .request id reason ∈ log

/-- Of the scopes around `id` that were asked to stop, itself included, `a` is the nearest. -/
structure Nearest (log : List Action) (id a : ScopeId) : Prop where
  inside : Inside log id a
  target : IsTarget log a
  first : ∀ b, Inside log id b → IsTarget log b → Inside log a b

theorem mem_reasonsFor {reason : String} :
    reason ∈ reasonsFor log id ↔ .request id reason ∈ log := by
  rw [reasonsFor, List.mem_filterMap]
  constructor
  · rintro ⟨action, hmem, hreason⟩
    cases action with
    | request target text =>
      simp only [Option.ite_none_right_eq_some, Option.some.injEq] at hreason
      obtain ⟨rfl, rfl⟩ := hreason
      exact hmem
    | _ => cases hreason
  · intro hmem
    exact ⟨_, hmem, by simp⟩

theorem isTarget_iff : IsTarget log id ↔ ∃ reason, (reasonsFor log id).head? = some reason := by
  constructor
  · rintro ⟨reason, h⟩
    exact ⟨_, List.head?_eq_some_head (List.ne_nil_of_mem (mem_reasonsFor.2 h))⟩
  · rintro ⟨reason, h⟩
    exact ⟨reason, mem_reasonsFor.1 (List.mem_of_head? h)⟩

theorem parents_append : parents (log ++ later) = parents log ++ parents later :=
  List.filterMap_append

theorem reasonsFor_concat_request {reason : String} :
    reasonsFor (log ++ [.request a reason]) id =
      reasonsFor log id ++ if a = id then [reason] else [] := by
  rw [reasonsFor, List.filterMap_append]
  by_cases h : a = id <;> simp [h, reasonsFor]

/-! ## One more scope -/

section Growth

variable {parent? : Option ScopeId} {parent : ScopeId}

/-- Parents are older than their children. -/
def Aged (log : List Action) : Prop := ∀ id parent, IsChild log id parent → parent < id

theorem IsChild.lt_length (h : IsChild log id parent) : id < (parents log).length :=
  (List.getElem?_eq_some_iff.1 h).1

theorem Inside.append (h : Inside log a b) : Inside (log ++ later) a b := by
  refine Relation.ReflTransGen.mono (fun id parent hchild => ?_) a b h
  have hlt := IsChild.lt_length hchild
  rw [IsChild, parents_append, List.getElem?_append_left hlt]
  exact hchild

theorem Inside.le (hlog : Aged log) (h : Inside log a b) : b ≤ a := by
  induction h with
  | refl => exact Nat.le_refl a
  | tail _ hchild ih => exact Nat.le_trans (Nat.le_of_lt (hlog _ _ hchild)) ih

theorem Nearest.eq (hlog : Aged log) (h : Nearest log id a) (h' : Nearest log id b) : a = b :=
  Nat.le_antisymm ((h'.first a h.inside h.target).le hlog)
    ((h.first b h'.inside h'.target).le hlog)

theorem isChild_concat (h : parents (log ++ [action]) = parents log ++ [parent?]) :
    IsChild (log ++ [action]) a b ↔
      IsChild log a b ∨ a = (parents log).length ∧ parent? = some b := by
  rw [IsChild, IsChild, h, List.getElem?_append]
  split
  · rename_i hlt
    simp [Nat.ne_of_lt hlt]
  · rename_i hle
    rw [List.getElem?_eq_none (Nat.le_of_not_lt hle)]
    by_cases heq : a = (parents log).length
    · simp [heq]
    · have hpast : a - (parents log).length ≠ 0 :=
        Nat.sub_ne_zero_of_lt (Nat.lt_of_le_of_ne (Nat.le_of_not_lt hle) (Ne.symm heq))
      simp [heq, hpast]

/-- What the old scopes lie inside stays as it is. -/
theorem inside_concat (h : parents (log ++ [action]) = parents log ++ [parent?])
    (hlog : Aged log) (ha : a < (parents log).length) :
    Inside (log ++ [action]) a b ↔ Inside log a b := by
  constructor
  · intro hinside
    induction hinside using Relation.ReflTransGen.head_induction_on with
    | refl => exact .refl
    | head hchild _ ih =>
      rcases (isChild_concat h).1 hchild with hold | ⟨heq, _⟩
      · exact .head hold (ih (Nat.lt_trans (hlog _ _ hold) ha))
      · exact absurd heq (Nat.ne_of_lt ha)
  · exact Inside.append

/-- The new scope lies inside its parent, and whatever that lies inside. -/
theorem inside_concat_new (h : parents (log ++ [action]) = parents log ++ [parent?])
    (hlog : Aged log) (hparent : ∀ parent, parent? = some parent → parent < (parents log).length) :
    Inside (log ++ [action]) (parents log).length b ↔
      b = (parents log).length ∨ ∃ parent, parent? = some parent ∧ Inside log parent b := by
  rw [Inside, Relation.ReflTransGen.cases_head_iff]
  constructor
  · rintro (heq | ⟨parent, hchild, hinside⟩)
    · exact .inl heq.symm
    · rcases (isChild_concat h).1 hchild with hold | ⟨_, hnew⟩
      · exact absurd hold.lt_length (Nat.lt_irrefl _)
      · exact .inr ⟨parent, hnew, (inside_concat h hlog (hparent parent hnew)).1 hinside⟩
  · rintro (heq | ⟨parent, hnew, hinside⟩)
    · exact .inl heq.symm
    · exact .inr ⟨parent, (isChild_concat h).2 (.inr ⟨rfl, hnew⟩),
        (inside_concat h hlog (hparent parent hnew)).2 hinside⟩

end Growth

/-! ## The scopes after a log -/

structure Tracks (log : List Action) (f : Scopes) : Prop where
  size : f.size = (parents log).length
  aged : Aged log
  /-- The lineage of a scope holds all that it lies inside, the nearest first. -/
  mem_lineage : ∀ id a, a ∈ f.lineage id ↔ id < f.size ∧ Inside log id a
  sorted : ∀ id, (f.lineage id).Pairwise (Inside log)
  ownReason : ∀ id, f.ownReason? id = (reasonsFor log id).head?

theorem lineage_of_size_le (h : f.size ≤ id) : f.lineage id = [] := by
  have hnone : f.scopes[id]? = none := Array.getElem?_eq_none h
  simp [lineage, hnone]

/-- A scope without a parent is added like one inside a scope that is not there. -/
theorem addRoot_eq : f.addRoot = f.addChild f.size := by
  rw [addRoot, addChild, lineage_of_size_le (Nat.le_refl f.size)]

theorem lineage_addChild_size :
    (f.addChild a).lineage f.size = f.size :: f.lineage a := by
  simp [addChild, lineage, size]

namespace Tracks

theorem start : Tracks [] .empty := by
  have hnone : ∀ id, empty.lineage id = [] := fun id => by simp [lineage, empty]
  refine ⟨rfl, fun id parent h => ?_, fun id a => ?_, fun id => ?_, fun id => ?_⟩
  · cases h
  · rw [hnone]
    exact ⟨fun h => absurd h List.not_mem_nil, fun h => absurd h.1 (Nat.not_lt_zero id)⟩
  · rw [hnone]
    exact .nil
  · simp [ownReason?, empty, reasonsFor]

/-- A new scope, inside another one or inside none. -/
theorem add (h : Tracks log f) (parent? : Option ScopeId)
    (hparents : parents (log ++ [action]) = parents log ++ [parent?])
    (hreasons : ∀ id, reasonsFor (log ++ [action]) id = reasonsFor log id)
    (hparent : ∀ parent, parent? = some parent → parent < f.size)
    (hlineage : f.lineage a = parent?.elim [] f.lineage) :
    Tracks (log ++ [action]) (f.addChild a) := by
  have hlength : ∀ parent, parent? = some parent → parent < (parents log).length := h.size ▸ hparent
  have hmem : ∀ b, b ∈ f.lineage a ↔ ∃ parent, parent? = some parent ∧ Inside log parent b := by
    intro b
    rw [hlineage]
    cases parent? with
    | none => simp
    | some parent =>
      have hlt : parent < f.size := hparent parent rfl
      simp [h.mem_lineage, hlt]
  have hold : ∀ {id}, id < f.size → ∀ b, Inside (log ++ [action]) id b ↔ Inside log id b :=
    fun hlt _ => inside_concat hparents h.aged (h.size ▸ hlt)
  have hpast : ∀ {id}, f.size < id → (f.addChild a).lineage id = [] :=
    fun hgt => lineage_of_size_le (Nat.le_trans (Nat.le_of_eq size_addChild) hgt)
  constructor
  case size => rw [size_addChild, h.size, hparents, List.length_append, List.length_singleton]
  case aged =>
    intro id parent hchild
    rcases (isChild_concat hparents).1 hchild with hchild | ⟨rfl, hnew⟩
    · exact h.aged id parent hchild
    · exact hlength parent hnew
  case mem_lineage =>
    intro id b
    rw [size_addChild]
    rcases Nat.lt_trichotomy id f.size with hlt | rfl | hgt
    · rw [lineage_addChild_of_lt hlt, h.mem_lineage, hold hlt]
      exact and_congr_left fun _ => ⟨Nat.lt_succ_of_lt, fun _ => hlt⟩
    · rw [lineage_addChild_size, List.mem_cons, hmem]
      simp only [Nat.lt_succ_self, true_and]
      rw [h.size, inside_concat_new hparents h.aged hlength]
    · simp [hpast hgt, Nat.not_lt.2 hgt]
  case sorted =>
    intro id
    rcases Nat.lt_trichotomy id f.size with hlt | rfl | hgt
    · rw [lineage_addChild_of_lt hlt]
      exact (h.sorted id).imp .append
    · rw [lineage_addChild_size, List.pairwise_cons]
      refine ⟨fun b hb => ?_, (h.sorted a).imp .append⟩
      rw [h.size, inside_concat_new hparents h.aged hlength]
      exact .inr ((hmem b).1 hb)
    · rw [hpast hgt]
      exact .nil
  case ownReason =>
    intro id
    rw [ownReason?_addChild, h.ownReason, hreasons]

theorem request {reason : String} (h : Tracks log f) (ha : a < f.size) :
    Tracks (log ++ [.request a reason]) (f.request a reason) := by
  have hparents : parents (log ++ [.request a reason]) = parents log := by simp [parents]
  have hchild : IsChild (log ++ [.request a reason]) = IsChild log := by
    funext id parent
    rw [IsChild, hparents, IsChild]
  have hinside : Inside (log ++ [.request a reason]) = Inside log := by rw [Inside, hchild, Inside]
  constructor
  case size => rw [size_request, hparents, h.size]
  case aged => exact fun id parent hlog => h.aged id parent (hchild ▸ hlog)
  case mem_lineage =>
    intro id b
    rw [lineage_request, size_request, hinside]
    exact h.mem_lineage id b
  case sorted =>
    intro id
    rw [lineage_request, hinside]
    exact h.sorted id
  case ownReason =>
    intro id
    rw [reasonsFor_concat_request]
    by_cases heq : a = id
    · subst heq
      rw [ownReason?_request_self ha, h.ownReason, if_pos rfl, List.head?_append]
      rfl
    · rw [ownReason?_request_of_ne (Ne.symm heq), h.ownReason, if_neg heq, List.append_nil]

theorem perform (h : Tracks log f) (hf : f.perform? action = some f') :
    Tracks (log ++ [action]) f' := by
  cases action with
  | addRoot =>
    cases hf
    rw [addRoot_eq]
    exact h.add none (by simp [parents]) (by simp [reasonsFor]) (by simp)
      (lineage_of_size_le (Nat.le_refl f.size))
  | addChild parent =>
    simp only [perform?, Option.ite_none_right_eq_some, Option.some.injEq] at hf
    obtain ⟨hlt, rfl⟩ := hf
    exact h.add (some parent) (by simp [parents]) (by simp [reasonsFor])
      (fun _ heq => Option.some.inj heq ▸ hlt) rfl
  | request target reason =>
    simp only [perform?, Option.ite_none_right_eq_some, Option.some.injEq] at hf
    obtain ⟨hlt, rfl⟩ := hf
    exact h.request hlt

theorem replay (h : Tracks log f) (hf : f.replay? later = some f') : Tracks (log ++ later) f' := by
  induction later generalizing log f with
  | nil =>
    cases hf
    rwa [List.append_nil]
  | cons action rest ih =>
    obtain ⟨q, hq, hrest⟩ := replay?_cons hf
    rw [List.append_cons]
    exact ih (h.perform hq) hrest

/-! ## Who is to stop -/

variable {reason : String}

theorem target_lt (h : Tracks log f) (ha : IsTarget log a) : a < f.size := by
  obtain ⟨reason, hreason⟩ := isTarget_iff.1 ha
  refine Nat.lt_of_not_le fun hle => ?_
  rw [← h.ownReason, ownReason?_of_size_le hle] at hreason
  cases hreason

theorem inside_lt (h : Tracks log f) (hinside : Inside log id a) (ha : a < f.size) :
    id < f.size := by
  rcases Relation.ReflTransGen.cases_head hinside with rfl | ⟨parent, hchild, _⟩
  · exact ha
  · rw [h.size]
    exact hchild.lt_length

theorem mem_lineage_of_inside (h : Tracks log f) (hinside : Inside log id a)
    (ha : IsTarget log a) : a ∈ f.lineage id :=
  (h.mem_lineage id a).2 ⟨h.inside_lt hinside (h.target_lt ha), hinside⟩

theorem ownReason_isSome_iff (h : Tracks log f) :
    (f.ownReason? a).isSome = true ↔ IsTarget log a := by
  rw [h.ownReason, Option.isSome_iff_exists, isTarget_iff]

theorem isRequested_iff (h : Tracks log f) :
    f.isRequested id = true ↔ ∃ a, Inside log id a ∧ IsTarget log a := by
  rw [isRequested_eq_true_iff]
  constructor
  · rintro ⟨a, hmem, hsome⟩
    exact ⟨a, ((h.mem_lineage id a).1 hmem).2, h.ownReason_isSome_iff.1 hsome⟩
  · rintro ⟨a, hinside, htarget⟩
    exact ⟨a, h.mem_lineage_of_inside hinside htarget, h.ownReason_isSome_iff.2 htarget⟩

/-- The scope that a reason comes from is the nearest that was asked to stop. -/
theorem exists_nearest (h : Tracks log f) (hreason : f.reason? id = some reason) :
    ∃ a, Nearest log id a ∧ (reasonsFor log a).head? = some reason := by
  obtain ⟨before, a, after, hsplit, hown, hbefore⟩ := List.findSome?_eq_some_iff.1 hreason
  have hmem : a ∈ f.lineage id := by simp [hsplit]
  have htarget : IsTarget log a := h.ownReason_isSome_iff.1 (by rw [hown]; rfl)
  have hsorted := h.sorted id
  rw [hsplit, List.pairwise_append] at hsorted
  refine ⟨a, ⟨((h.mem_lineage id a).1 hmem).2, htarget, fun b hinside hb => ?_⟩, ?_⟩
  · have hmemb := h.mem_lineage_of_inside hinside hb
    rw [hsplit, List.mem_append, List.mem_cons] at hmemb
    rcases hmemb with hfirst | rfl | hlast
    · have hsome := h.ownReason_isSome_iff.2 hb
      rw [hbefore b hfirst] at hsome
      cases hsome
    · exact .refl
    · exact (List.pairwise_cons.1 hsorted.2.1).1 b hlast
  · rw [← h.ownReason, hown]

theorem reason?_eq_some_iff (h : Tracks log f) :
    f.reason? id = some reason ↔
      ∃ a, Nearest log id a ∧ (reasonsFor log a).head? = some reason := by
  refine ⟨h.exists_nearest, ?_⟩
  rintro ⟨a, hnearest, hreason⟩
  have hsome : f.isRequested id = true := h.isRequested_iff.2 ⟨a, hnearest.inside, hnearest.target⟩
  obtain ⟨text, htext⟩ := Option.isSome_iff_exists.1 hsome
  obtain ⟨b, hb, hfirst⟩ := h.exists_nearest htext
  rw [htext, ← hfirst, ← hreason, hb.eq h.aged hnearest]

theorem reason?_eq_none_iff (h : Tracks log f) :
    f.reason? id = none ↔ ∀ a, Inside log id a → ¬ IsTarget log a := by
  rw [← Option.not_isSome_iff_eq_none]
  exact (not_congr h.isRequested_iff).trans (by simp)

theorem poll_eq_error_iff (h : Tracks log f) : f.poll id = .error ⟨reason⟩ ↔
    ∃ a, Nearest log id a ∧ (reasonsFor log a).head? = some reason := by
  rw [← h.reason?_eq_some_iff, poll]
  cases f.reason? id <;> simp

theorem poll_eq_ok_iff (h : Tracks log f) :
    f.poll id = .ok () ↔ ∀ a, Inside log id a → ¬ IsTarget log a := by
  rw [← h.reason?_eq_none_iff, poll]
  cases f.reason? id <;> simp

end Tracks

/-! ## What requests and new scopes change -/

theorem reason?_request_of_not_mem {reason : String} (h : a ∉ f.lineage id) :
    (f.request a reason).reason? id = f.reason? id := by
  rw [reason?, lineage_request, reason?]
  generalize f.lineage id = l at h
  induction l with
  | nil => rfl
  | cons b rest ih =>
    obtain ⟨hne, hrest⟩ := List.ne_and_not_mem_of_not_mem_cons h
    rw [List.findSome?_cons, List.findSome?_cons, ownReason?_request_of_ne (Ne.symm hne), ih hrest]

/-- A new scope is to stop if its parent is, and for the same reason. -/
theorem reason?_addChild_size : (f.addChild a).reason? f.size = f.reason? a := by
  have hown : (f.addChild a).ownReason? = f.ownReason? := funext fun _ => ownReason?_addChild
  rw [reason?, lineage_addChild_size, hown, List.findSome?_cons,
    ownReason?_of_size_le (Nat.le_refl f.size), reason?]

/-- The answers about a scope are the same. -/
structure SameAnswers (f f' : Scopes) (id id' : ScopeId) : Prop where
  isRequested : f'.isRequested id' = f.isRequested id
  reason : f'.reason? id' = f.reason? id
  poll : f'.poll id' = f.poll id

theorem sameAnswers_of_reason? (h : f'.reason? b = f.reason? a) : SameAnswers f f' a b := by
  refine ⟨?_, h, ?_⟩
  · rw [isRequested, h, isRequested]
  · rw [poll, h, poll]

/-- What a log of actions makes of scopes. -/
structure Governed (log : List Action) (f : Scopes) : Prop where
  size : f.size = (parents log).length
  /-- A scope is to stop when it or one around it was asked to. -/
  isRequested_iff : ∀ id, f.isRequested id = true ↔ ∃ a, Inside log id a ∧ IsTarget log a
  /-- The reason is the first one given to the nearest of these. -/
  reason_iff : ∀ id reason, f.reason? id = some reason ↔
    ∃ a, Nearest log id a ∧ (reasonsFor log a).head? = some reason
  absent_iff : ∀ id, f.reason? id = none ↔ ∀ a, Inside log id a → ¬ IsTarget log a
  /-- Work inside the scope is stopped with exactly that reason. -/
  stops_iff : ∀ id reason, f.poll id = .error ⟨reason⟩ ↔
    ∃ a, Nearest log id a ∧ (reasonsFor log a).head? = some reason
  continues_iff : ∀ id, f.poll id = .ok () ↔ ∀ a, Inside log id a → ¬ IsTarget log a
  /-- A request changes nothing for scopes that do not lie inside its target. -/
  frame : ∀ target reason f' id, f.perform? (.request target reason) = some f' →
    ¬ Inside log id target → SameAnswers f f' id id
  /-- A new scope answers as its parent does. -/
  born : ∀ parent f', f.perform? (.addChild parent) = some f' → SameAnswers f f' parent f.size
  /-- Nothing takes a request back. -/
  lasting : ∀ later f' id, f.replay? later = some f' → f.isRequested id = true →
    f'.isRequested id = true

/-- Scopes obey the requests made to them and to the scopes around them. -/
theorem governed_of_replay (h : empty.replay? log = some f) : Governed log f := by
  have htracks : Tracks log f := Tracks.start.replay h
  constructor
  case size => exact htracks.size
  case isRequested_iff => exact fun _ => htracks.isRequested_iff
  case reason_iff => exact fun _ _ => htracks.reason?_eq_some_iff
  case absent_iff => exact fun _ => htracks.reason?_eq_none_iff
  case stops_iff => exact fun _ _ => htracks.poll_eq_error_iff
  case continues_iff => exact fun _ => htracks.poll_eq_ok_iff
  case frame =>
    intro target reason f' id hf hinside
    simp only [perform?, Option.ite_none_right_eq_some, Option.some.injEq] at hf
    obtain ⟨_, rfl⟩ := hf
    refine sameAnswers_of_reason? (reason?_request_of_not_mem fun hmem => ?_)
    exact hinside ((htracks.mem_lineage id target).1 hmem).2
  case born =>
    intro parent f' hf
    simp only [perform?, Option.ite_none_right_eq_some, Option.some.injEq] at hf
    obtain ⟨_, rfl⟩ := hf
    exact sameAnswers_of_reason? reason?_addChild_size
  case lasting =>
    intro later f' id hf hrequested
    obtain ⟨a, hinside, reason, hmem⟩ := htracks.isRequested_iff.1 hrequested
    exact (htracks.replay hf).isRequested_iff.2
      ⟨a, hinside.append, reason, List.mem_append_left later hmem⟩

/-- Scope 2 lies inside scope 1, and scope 1 beside scope 3 inside scope 0. Scope 1 is asked to stop
twice, scope 2 once in between. Scope 4 is then added inside scope 1, and scope 5 apart. -/
def nested : List Action :=
  [.addRoot, .addChild 0, .addChild 1, .addChild 0, .request 1 "limit", .request 2 "local",
    .request 1 "again", .addChild 1, .addRoot]

theorem governed_of_replay_nested :
    ∃ f, empty.replay? nested = some f ∧
      (List.range f.size).map f.reason? =
        [none, some "limit", some "local", none, some "limit", none] ∧ Governed nested f :=
  ⟨_, rfl, by decide, governed_of_replay rfl⟩

end Scopes
end StateSpace
