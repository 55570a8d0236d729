import StateSpace.Reached

/-!
# StateSpace.Proofs.Reached

The order in which states are discovered, and reached sets of a single state or of a single
precision.
-/

namespace StateSpace

namespace Reached

variable {σ π : Type} {r r' : Reached σ π} {s : σ} {precision : π}

/-- The set holds one state, which waits. -/
def IsFresh (r : Reached σ π) (s : σ) : Prop := r.states = [s] ∧ r.waitlist = [s]

/-- All states were discovered with this precision. -/
def IsUniform (r : Reached σ π) (precision : π) : Prop := ∀ entry ∈ r.entries, entry.2 = precision

theorem IsFresh.exists_entries (h : r.IsFresh s) : ∃ precision, r.entries = [(s, precision)] := by
  obtain ⟨⟨t, precision⟩, hentries, rfl⟩ := List.map_eq_singleton_iff.1 h.1
  exact ⟨precision, hentries⟩

theorem states_of_pop? (h : r.pop? = some (s, r')) : r'.states = r.states := by
  rw [states, states, entries_of_pop? h]

theorem size_of_pop? (h : r.pop? = some (s, r')) : r'.size = r.size := by
  rw [size, size, entries_of_pop? h]

theorem mem_waitlist_of_pop? (h : r.pop? = some (s, r')) : s ∈ r.waitlist := by
  rw [waitlist_of_pop? h]
  exact List.mem_cons_self

theorem waitlist_of_pop?_none (h : r.pop? = none) : r.waitlist = [] := by
  unfold pop? at h
  split at h
  · assumption
  · cases h

theorem pop?_of_waitlist {l : List σ} (h : r.waitlist = s :: l) :
    r.pop? = some (s, { r with waitlist := l }) := by
  unfold pop?
  split
  · rename_i hnil
    cases h.symm.trans hnil
  · rename_i hcons
    cases h.symm.trans hcons
    rfl

theorem pop?_of_idle (h : r.waitlist = []) : r.pop? = none := by
  rw [pop?, h]

theorem mem_of_first? (h : r.first? = some s) : s ∈ r := by
  rw [first?] at h
  exact List.mem_of_head? h

variable [DecidableEq σ]

theorem isFresh_add_empty (s : σ) (precision : π) : (empty.add s precision).IsFresh s := by
  have h : s ∉ (empty : Reached σ π) := List.not_mem_nil
  rw [IsFresh, states, entries_add_of_not_mem h, waitlist_add_of_not_mem h]
  exact ⟨rfl, rfl⟩

theorem precision?_eq_some_iff : r.precision? s = some precision ↔ (s, precision) ∈ r.entries := by
  rw [precision?, Option.map_eq_some_iff]
  constructor
  · rintro ⟨i, hi, rfl⟩
    have hstate := place?_eq_some_iff.1 hi
    simp only [states, List.getElem?_map, List.getElem?_eq_getElem i.isLt, Option.map_some,
      Option.some.injEq] at hstate
    rw [← hstate]
    exact List.get_mem r.entries i
  · intro h
    obtain ⟨i, hi, hentry⟩ := List.mem_iff_getElem.1 h
    exact ⟨⟨i, hi⟩, place?_eq_some_iff.2 (by simp [states, hi, hentry]), by simp [hentry]⟩

theorem requeue_of_not_mem (h : s ∉ r) : r.requeue s = r := by
  rw [requeue, if_neg h]

theorem precision?_of_isUniform (h : r.IsUniform precision) (hs : s ∈ r) :
    r.precision? s = some precision := by
  obtain ⟨i, hi⟩ := Option.isSome_iff_exists.1 (contains_eq_true_iff.2 hs)
  rw [precision?, hi, Option.map_some, h _ (List.get_mem r.entries i)]

theorem states_add_of_not_mem (h : s ∉ r) : (r.add s precision).states = r.states ++ [s] := by
  rw [states, entries_add_of_not_mem h, List.map_append]
  rfl

/-- Discovering a state does not move those discovered before. -/
theorem idxOf_add_of_mem {t : σ} (h : s ∉ r) (ht : t ∈ r) :
    (r.add s precision).states.idxOf t = r.states.idxOf t := by
  rw [states_add_of_not_mem h, List.idxOf_append, if_pos (mem_iff_mem_states.1 ht)]

theorem idxOf_lt_idxOf_add {t : σ} (h : s ∉ r) (ht : t ∈ r) :
    (r.add s precision).states.idxOf t < (r.add s precision).states.idxOf s := by
  rw [idxOf_add_of_mem h ht, states_add_of_not_mem h, List.idxOf_append,
    if_neg (mt mem_iff_mem_states.2 h)]
  exact Nat.lt_of_lt_of_le (List.idxOf_lt_length_of_mem ht) (Nat.le_add_left _ _)

end Reached

end StateSpace
