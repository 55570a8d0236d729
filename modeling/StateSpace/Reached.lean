/-!
# StateSpace.Reached

Reached sets: the states an exploration has found, each with the precision it was found with, and
the states that still wait to be processed.

* `Reached.entries` — the states in the order of their discovery; no state occurs twice.
* `Reached.index` — where each state stands among the entries. States are looked up in the index.
* `Reached.waitlist` — the states that wait, the next one first. Taking a state from the waitlist
  leaves it in the set.
-/

namespace StateSpace

structure Reached (σ π : Type) where
  entries : List (σ × π)
  index : List (σ × Nat)
  waitlist : List σ
  /-- No state was discovered twice. -/
  distinct : (entries.map Prod.fst).Nodup
  /-- The index knows the place of every state, and no other places. -/
  indexed : ∀ s i, (s, i) ∈ index ↔ (entries.map Prod.fst)[i]? = some s

namespace Reached

variable {σ π : Type}

def empty : Reached σ π := ⟨[], [], [], List.nodup_nil, fun s i => by simp⟩

instance : Inhabited (Reached σ π) := ⟨empty⟩

def states (r : Reached σ π) : List σ := r.entries.map Prod.fst

def size (r : Reached σ π) : Nat := r.entries.length

/-- The first state that was ever added. -/
def first? (r : Reached σ π) : Option σ := r.states.head?

def hasWaiting (r : Reached σ π) : Bool := !r.waitlist.isEmpty

/-- The next waiting state, which then waits no more. -/
def pop? (r : Reached σ π) : Option (σ × Reached σ π) :=
  match r.waitlist with
  | [] => none
  | s :: rest => some (s, { r with waitlist := rest })

def drain (r : Reached σ π) : Reached σ π := { r with waitlist := [] }

instance : Membership σ (Reached σ π) where
  mem r s := s ∈ r.states

/-- A reached set is shown by its two sizes. -/
def text (r : Reached σ π) : String :=
  s!"DefaultReachedSet \x7b size: {r.size}, waiting: {r.waitlist.length} \x7d"

theorem mem_iff_mem_states {r : Reached σ π} {s : σ} : s ∈ r ↔ s ∈ r.states := Iff.rfl

/-- The state that is taken was the first one to wait; nothing else changes. -/
theorem waitlist_of_pop? {r r' : Reached σ π} {s : σ} (h : r.pop? = some (s, r')) :
    r.waitlist = s :: r'.waitlist := by
  unfold pop? at h
  split at h
  · cases h
  · rename_i hw
    cases h
    exact hw

theorem entries_of_pop? {r r' : Reached σ π} {s : σ} (h : r.pop? = some (s, r')) :
    r'.entries = r.entries := by
  unfold pop? at h
  split at h
  · cases h
  · cases h
    rfl

theorem mem_of_pop? {r r' : Reached σ π} {s t : σ} (h : r.pop? = some (s, r')) :
    t ∈ r' ↔ t ∈ r := by
  rw [mem_iff_mem_states, mem_iff_mem_states, states, states, entries_of_pop? h]

/-- A new last place in the index, for a new last state. -/
theorem mem_index_concat {index : List (σ × Nat)} {l : List σ}
    (h : ∀ s i, (s, i) ∈ index ↔ l[i]? = some s) (new s : σ) (i : Nat) :
    (s, i) ∈ (new, l.length) :: index ↔ (l ++ [new])[i]? = some s := by
  rw [List.mem_cons, h, Prod.mk.injEq]
  rcases Nat.lt_trichotomy i l.length with hlt | rfl | hgt
  · simp [List.getElem?_append_left hlt, Nat.ne_of_lt hlt]
  · simp [eq_comm]
  · have hnone : l[i]? = none := List.getElem?_eq_none (Nat.le_of_lt hgt)
    have hpast : (l ++ [new])[i]? = none := List.getElem?_eq_none (by
      rw [List.length_append]
      exact hgt)
    simp [hnone, hpast, Nat.ne_of_gt hgt]

variable [DecidableEq σ]

/-- The index holds one place of a state at most, so that looking it up finds that place. -/
theorem lookup_index_eq_some_iff {r : Reached σ π} {s : σ} {i : Nat} :
    r.index.lookup s = some i ↔ r.states[i]? = some s := by
  rw [states, ← r.indexed]
  constructor
  · intro h
    obtain ⟨before, after, hsplit, _⟩ := List.lookup_eq_some_iff.1 h
    simp [hsplit]
  · intro h
    have hsome : (r.index.lookup s).isSome = true := by
      rw [List.lookup_isSome_iff]
      exact ⟨(s, i), h, by simp⟩
    obtain ⟨j, hj⟩ := Option.isSome_iff_exists.1 hsome
    obtain ⟨before, after, hsplit, _⟩ := List.lookup_eq_some_iff.1 hj
    have hmem : (s, j) ∈ r.index := by simp [hsplit]
    rw [r.indexed] at h hmem
    have hlt := (List.getElem?_eq_some_iff.1 h).1
    rw [hj, (List.getElem?_inj hlt r.distinct).1 (h.trans hmem.symm)]

theorem lt_length_of_lookup {r : Reached σ π} {s : σ} {i : Nat}
    (h : r.index.lookup s = some i) : i < r.entries.length := by
  rw [lookup_index_eq_some_iff] at h
  have hlt := (List.getElem?_eq_some_iff.1 h).1
  rwa [states, List.length_map] at hlt

/-- The place of a state among the entries, as the index has it. -/
def place? (r : Reached σ π) (s : σ) : Option (Fin r.entries.length) :=
  match h : r.index.lookup s with
  | some i => some ⟨i, lt_length_of_lookup h⟩
  | none => none

def contains (r : Reached σ π) (s : σ) : Bool := (r.place? s).isSome

/-- The precision a state was discovered with. -/
def precision? (r : Reached σ π) (s : σ) : Option π :=
  (r.place? s).map fun i => (r.entries.get i).2

theorem place?_eq_some_iff {r : Reached σ π} {s : σ} {i : Fin r.entries.length} :
    r.place? s = some i ↔ r.states[i.val]? = some s := by
  rw [← lookup_index_eq_some_iff]
  unfold place?
  split
  · rename_i j h
    simp [h, Fin.ext_iff]
  · rename_i h
    simp [h]

theorem contains_eq_true_iff {r : Reached σ π} {s : σ} : r.contains s = true ↔ s ∈ r := by
  rw [contains, Option.isSome_iff_exists, mem_iff_mem_states, List.mem_iff_getElem?]
  constructor
  · rintro ⟨i, h⟩
    exact ⟨i.val, place?_eq_some_iff.1 h⟩
  · rintro ⟨i, h⟩
    exact ⟨⟨i, lt_length_of_lookup (lookup_index_eq_some_iff.2 h)⟩, place?_eq_some_iff.2 h⟩

instance (s : σ) (r : Reached σ π) : Decidable (s ∈ r) :=
  decidable_of_iff (r.contains s = true) contains_eq_true_iff

/-- Discovers a state, which then waits. A state that was discovered before stays as it is. -/
def add (r : Reached σ π) (s : σ) (precision : π) : Reached σ π :=
  if h : s ∈ r then r
  else
    { entries := r.entries ++ [(s, precision)]
      index := (s, r.entries.length) :: r.index
      waitlist := r.waitlist ++ [s]
      distinct := by
        rw [List.map_append, List.nodup_append]
        refine ⟨r.distinct, List.nodup_cons.2 ⟨List.not_mem_nil, List.nodup_nil⟩, ?_⟩
        intro a ha b hb hab
        simp only [List.map_cons, List.map_nil, List.mem_singleton] at hb
        exact h (hb ▸ hab ▸ ha)
      indexed := by
        intro t i
        rw [List.map_append, ← List.length_map Prod.fst]
        exact mem_index_concat r.indexed s t i }

/-- Makes a discovered state wait once more; an unknown state is ignored. -/
def requeue (r : Reached σ π) (s : σ) : Reached σ π :=
  if s ∈ r then { r with waitlist := r.waitlist ++ [s] } else r

/-- Adding a state that was discovered before changes nothing. -/
theorem add_of_mem {r : Reached σ π} {s : σ} {precision : π} (h : s ∈ r) :
    r.add s precision = r := dif_pos h

theorem entries_add_of_not_mem {r : Reached σ π} {s : σ} {precision : π} (h : s ∉ r) :
    (r.add s precision).entries = r.entries ++ [(s, precision)] := by
  rw [add, dif_neg h]

theorem waitlist_add_of_not_mem {r : Reached σ π} {s : σ} {precision : π} (h : s ∉ r) :
    (r.add s precision).waitlist = r.waitlist ++ [s] := by
  rw [add, dif_neg h]

theorem mem_add {r : Reached σ π} {s t : σ} {precision : π} :
    t ∈ r.add s precision ↔ t ∈ r ∨ t = s := by
  by_cases h : s ∈ r
  · rw [add_of_mem h]
    exact ⟨Or.inl, fun ht => ht.elim id fun e => e ▸ h⟩
  · rw [mem_iff_mem_states, states, entries_add_of_not_mem h, List.map_append, List.mem_append]
    simp [mem_iff_mem_states, states]

theorem mem_requeue {r : Reached σ π} {s t : σ} : t ∈ r.requeue s ↔ t ∈ r := by
  unfold requeue
  split <;> rfl

theorem waitlist_requeue_of_mem {r : Reached σ π} {s : σ} (h : s ∈ r) :
    (r.requeue s).waitlist = r.waitlist ++ [s] := by
  rw [requeue, if_pos h]

end Reached

end StateSpace
