import StateSpace.Proofs.Reached

/-!
# StateSpace.Proofs.Discovery

What a reached set holds after any work on it.

* `Action`, `replay`, `taken`: states are added, taken from the waitlist and made to wait once more,
  in any order.
* `additions`, `known`, `enqueued`: what a log of such actions says by itself. The first addition of
  a state counts, and a state begins to wait when it is added first, or when it is known already and
  is to wait once more.
* `Tracks`: the entries and the waitlist after a log. Every action keeps this.
* `recorded_replay`: the entries, the index and the waitlist agree with the log, and with each other.
-/

namespace StateSpace
namespace Reached

inductive Action (σ π : Type) where
  | add (state : σ) (precision : π)
  | requeue (state : σ)
  | pop
deriving DecidableEq, Repr

variable {σ π : Type} {r : Reached σ π} {s t : σ} {precision : π}
  {log earlier : List (Action σ π)} {action : Action σ π} {popped : List σ}

/-! ## What a log says -/

def additions (log : List (Action σ π)) : List (σ × π) := log.filterMap fun
  | .add s precision => some (s, precision)
  | _ => none

/-- The states that were added, once for each addition. -/
def known (log : List (Action σ π)) : List σ := (additions log).map Prod.fst

theorem additions_concat_add :
    additions (log ++ [.add s precision]) = additions log ++ [(s, precision)] := by
  simp [additions]

theorem known_concat_add : known (log ++ [.add s precision]) = known log ++ [s] := by
  rw [known, additions_concat_add, List.map_append]
  rfl

variable [DecidableEq σ]

/-- The state that an action makes wait, if `earlier` was done before. -/
def enqueues? (earlier : List (Action σ π)) : Action σ π → Option σ
  | .add s _ => if s ∈ known earlier then none else some s
  | .requeue s => if s ∈ known earlier then some s else none
  | .pop => none

/-- The states that actions make wait, in order, if `earlier` was done before. -/
def enqueued (earlier : List (Action σ π)) : List (Action σ π) → List σ
  | [] => []
  | action :: rest => (enqueues? earlier action).toList ++ enqueued (earlier ++ [action]) rest

theorem lookup_additions_concat_add : (additions (log ++ [.add s precision])).lookup t =
    ((additions log).lookup t).or (if t = s then some precision else none) := by
  rw [additions_concat_add, List.lookup_append, List.lookup_cons, List.lookup_nil]
  by_cases h : t = s
  · simp [h]
  · simp [h, beq_eq_false_iff_ne.2 h]

theorem enqueued_concat :
    enqueued earlier (log ++ [action]) =
      enqueued earlier log ++ (enqueues? (earlier ++ log) action).toList := by
  induction log generalizing earlier with
  | nil => simp [enqueued]
  | cons first rest ih =>
    rw [List.cons_append, enqueued, ih, enqueued, List.append_assoc, List.append_assoc,
      List.singleton_append]

theorem mem_known_iff : s ∈ known log ↔ ((additions log).lookup s).isSome = true := by
  rw [List.lookup_isSome_iff, known, List.mem_map]
  exact exists_congr fun e => and_congr_right fun _ => by rw [beq_iff_eq, eq_comm]

/-- A state that was added before is no new one. -/
theorem eraseDups_concat {l : List σ} :
    (l ++ [s]).eraseDups = if s ∈ l then l.eraseDups else l.eraseDups ++ [s] := by
  rw [List.eraseDups_append]
  by_cases h : s ∈ l <;> simp [List.removeAll, List.eraseDups_cons, h]

/-! ## The set after a log -/

def perform (r : Reached σ π) : Action σ π → Reached σ π
  | .add s precision => r.add s precision
  | .requeue s => r.requeue s
  | .pop =>
    match r.pop? with
    | some (_, rest) => rest
    | none => r

/-- The state that an action takes from the waitlist. -/
def taken? (r : Reached σ π) : Action σ π → Option σ
  | .pop => r.pop?.map Prod.fst
  | _ => none

/-- The set after some actions, the earliest of them first. -/
def replay (r : Reached σ π) : List (Action σ π) → Reached σ π
  | [] => r
  | action :: rest => (r.perform action).replay rest

/-- The states that actions take from the waitlist, in order. -/
def taken (r : Reached σ π) : List (Action σ π) → List σ
  | [] => []
  | action :: rest => (r.taken? action).toList ++ (r.perform action).taken rest

structure Tracks (log : List (Action σ π)) (r : Reached σ π) (popped : List σ) : Prop where
  states : r.states = (known log).eraseDups
  mem_entries : ∀ s precision, (s, precision) ∈ r.entries ↔
    (additions log).lookup s = some precision
  queue : popped ++ r.waitlist = enqueued [] log

namespace Tracks

theorem start : Tracks [] (empty : Reached σ π) [] := by
  refine ⟨rfl, fun s precision => ?_, rfl⟩
  simp [empty, additions]

theorem mem_iff (h : Tracks log r popped) : s ∈ r ↔ s ∈ known log := by
  rw [mem_iff_mem_states, h.states, List.mem_eraseDups]

theorem add (h : Tracks log r popped) (s : σ) (precision : π) :
    Tracks (log ++ [.add s precision]) (r.add s precision) popped := by
  by_cases hs : s ∈ r
  · have hknown : s ∈ known log := h.mem_iff.1 hs
    rw [add_of_mem hs]
    refine ⟨?_, fun t q => ?_, ?_⟩
    · rw [known_concat_add, eraseDups_concat, if_pos hknown, h.states]
    · obtain ⟨first, hfirst⟩ := Option.isSome_iff_exists.1 (mem_known_iff.1 hknown)
      rw [h.mem_entries, lookup_additions_concat_add]
      by_cases heq : t = s
      · rw [heq, hfirst, Option.some_or]
      · rw [if_neg heq, Option.or_none]
    · rw [enqueued_concat, h.queue]
      simp [enqueues?, hknown]
  · have hknown : s ∉ known log := mt h.mem_iff.2 hs
    refine ⟨?_, fun t q => ?_, ?_⟩
    · rw [known_concat_add, eraseDups_concat, if_neg hknown, states_add_of_not_mem hs, h.states]
    · have hnone : (additions log).lookup s = none := by
        rwa [← Option.not_isSome_iff_eq_none, ← mem_known_iff]
      rw [entries_add_of_not_mem hs, List.mem_append, h.mem_entries, lookup_additions_concat_add,
        List.mem_singleton, Prod.mk.injEq]
      by_cases heq : t = s
      · simp [heq, hnone, eq_comm]
      · simp [heq]
    · rw [waitlist_add_of_not_mem hs, ← List.append_assoc, h.queue, enqueued_concat]
      simp [enqueues?, hknown]

theorem requeue (h : Tracks log r popped) (s : σ) :
    Tracks (log ++ [.requeue s]) (r.requeue s) popped := by
  have hadditions : additions (log ++ [.requeue s]) = additions log := by simp [additions]
  have hentries : (r.requeue s).entries = r.entries := by
    rw [Reached.requeue]
    split <;> rfl
  refine ⟨?_, fun t q => ?_, ?_⟩
  · rw [Reached.states, hentries, known, hadditions]
    exact h.states
  · rw [hentries, hadditions]
    exact h.mem_entries t q
  · rw [enqueued_concat, ← h.queue, List.append_assoc]
    by_cases hs : s ∈ r
    · simp [waitlist_requeue_of_mem hs, enqueues?, h.mem_iff.1 hs]
    · simp [requeue_of_not_mem hs, enqueues?, mt h.mem_iff.2 hs]

theorem pop (h : Tracks log r popped) :
    Tracks (log ++ [.pop]) (r.perform .pop) (popped ++ (r.taken? .pop).toList) := by
  have hadditions : additions (log ++ [.pop]) = additions log := by simp [additions]
  have hqueue : enqueued [] (log ++ [.pop]) = enqueued [] log := by
    simp [enqueued_concat, enqueues?]
  rw [perform, taken?]
  cases hpop : r.pop? with
  | none =>
    refine ⟨?_, fun t q => ?_, ?_⟩
    · rw [h.states, known, known, hadditions]
    · rw [h.mem_entries, hadditions]
    · rw [hqueue, ← h.queue]
      simp
  | some next =>
    obtain ⟨s, rest⟩ := next
    refine ⟨?_, fun t q => ?_, ?_⟩
    · rw [states_of_pop? hpop, h.states, known, known, hadditions]
    · rw [entries_of_pop? hpop, h.mem_entries, hadditions]
    · rw [hqueue, ← h.queue, waitlist_of_pop? hpop]
      simp

theorem perform (h : Tracks log r popped) (action : Action σ π) :
    Tracks (log ++ [action]) (r.perform action) (popped ++ (r.taken? action).toList) := by
  cases action with
  | add s precision => simpa [Reached.perform, taken?] using h.add s precision
  | requeue s => simpa [Reached.perform, taken?] using h.requeue s
  | pop => exact h.pop

theorem replay (h : Tracks log r popped) (later : List (Action σ π)) :
    Tracks (log ++ later) (r.replay later) (popped ++ r.taken later) := by
  induction later generalizing log r popped with
  | nil => simpa [Reached.replay, Reached.taken] using h
  | cons action rest ih =>
    rw [List.append_cons, Reached.taken, ← List.append_assoc]
    exact ih (h.perform action)

theorem precision?_eq (h : Tracks log r popped) : r.precision? s = (additions log).lookup s :=
  Option.ext fun q => precision?_eq_some_iff.trans (h.mem_entries s q)

end Tracks

/-! ## What is recorded -/

/-- The first state that was ever added stays the first. -/
theorem head?_eraseDups {l : List σ} : l.eraseDups.head? = l.head? := by
  cases l with
  | nil => rfl
  | cons s rest => rw [List.eraseDups_cons, List.head?_cons, List.head?_cons]

structure Recorded (log : List (Action σ π)) (r : Reached σ π) (popped : List σ) : Prop where
  /-- The entries are the states that were added, in the order of their first addition. -/
  states : r.states = (known log).eraseDups
  /-- Each has the precision of its first addition. -/
  entries : ∀ s precision, (s, precision) ∈ r.entries ↔
    (additions log).lookup s = some precision
  contains : ∀ s, r.contains s = true ↔ s ∈ known log
  precision : ∀ s, r.precision? s = (additions log).lookup s
  first : r.first? = (known log).head?
  size : r.size = (known log).eraseDups.length
  /-- The index leads to a state's own entry, which is there, and nowhere else. -/
  index : ∀ s i, r.index.lookup s = some i ↔ ∃ precision, r.entries[i]? = some (s, precision)
  /-- The states that were taken, and then those that wait, are all that ever began to wait. -/
  queue : popped ++ r.waitlist = enqueued [] log
  next : r.taken? .pop = r.waitlist.head?
  add_known : ∀ s precision, s ∈ known log → r.add s precision = r
  requeue_unknown : ∀ s, s ∉ known log → r.requeue s = r

theorem recorded_replay (log : List (Action σ π)) :
    Recorded log (empty.replay log) (empty.taken log) := by
  have h : Tracks log (empty.replay log) (empty.taken log) := Tracks.start.replay log
  constructor
  case states => exact h.states
  case entries => exact h.mem_entries
  case contains => exact fun s => contains_eq_true_iff.trans h.mem_iff
  case precision => exact fun s => h.precision?_eq
  case first => rw [first?, h.states, head?_eraseDups]
  case size => rw [← h.states, Reached.states, List.length_map, Reached.size]
  case index =>
    intro s i
    rw [lookup_index_eq_some_iff, Reached.states, List.getElem?_map, Option.map_eq_some_iff]
    simp [Prod.exists]
  case queue => exact h.queue
  case next =>
    rw [taken?, pop?]
    cases (empty.replay log).waitlist <;> rfl
  case add_known => exact fun s precision hs => add_of_mem (h.mem_iff.2 hs)
  case requeue_unknown => exact fun s hs => requeue_of_not_mem (mt h.mem_iff.1 hs)

end Reached
end StateSpace
