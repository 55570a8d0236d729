import StateSpace.Certificate.Step

/-!
# StateSpace.Certificate.Remaining

Every step that leads on leaves less work: `remaining_step_lt`. So every check ends, whatever the
graph claims and the oracle answers.
-/

namespace StateSpace
namespace Certificate

open Std

variable {κ π σ : Type}

/-! ## The parts of the measure -/

theorem length_unreached_add_lt {g : Graph σ} {r : Reached StateId π} {id : StateId}
    {precision : π} (hg : id < g.size) (hr : id ∉ r) :
    (unreached g (r.add id precision)).length < (unreached g r).length := by
  have h : unreached g (r.add id precision) = (unreached g r).filter (· ≠ id) := by
    unfold unreached
    rw [List.filter_filter]
    refine List.filter_congr fun x _ => ?_
    by_cases hx : x ∈ r <;> simp [Reached.mem_add, hx]
  rw [h, List.length_filter_lt_length_iff_exists]
  exact ⟨id, by simp [unreached, Graph.ids, hg, hr], by simp⟩

theorem one_le_weight (g : Graph σ) (r : Reached StateId π) (id : StateId) :
    1 ≤ weight g r id := by
  unfold weight
  split
  · split <;> omega
  · exact Nat.le_refl 1

theorem weight_le_three (g : Graph σ) (r : Reached StateId π) (id : StateId) :
    weight g r id ≤ 3 := by
  unfold weight
  split
  · split <;> omega
  · omega

theorem weight_eq_three {g : Graph σ} {r : Reached StateId π} {id c : StateId}
    (hc : g.coveredBy? id = some c) (hr : c ∉ r) : weight g r id = 3 := by
  simp [weight, hc, hr]

theorem weight_eq_one {g : Graph σ} {r : Reached StateId π} {id c : StateId}
    (hc : g.coveredBy? id = some c) (hr : c ∈ r) : weight g r id = 1 := by
  simp [weight, hc, hr]

/-- The more is reached, the less work a waiting state stands for. -/
theorem weight_le_of_subset {g : Graph σ} {r r' : Reached StateId π} (id : StateId)
    (h : ∀ x, x ∈ r → x ∈ r') : weight g r' id ≤ weight g r id := by
  unfold weight
  split
  · rename_i c _
    by_cases hc : c ∈ r
    · simp [hc, h c hc]
    · split <;> simp
  · exact Nat.le_refl 1

theorem queued_le_of_subset {g : Graph σ} {r r' : Reached StateId π} (l : List StateId)
    (h : ∀ x, x ∈ r → x ∈ r') : queued g r' l ≤ queued g r l := by
  induction l with
  | nil => exact Nat.le_refl _
  | cons id l ih => exact Nat.add_le_add (weight_le_of_subset id h) ih

theorem queued_cons (g : Graph σ) (r : Reached StateId π) (id : StateId) (l : List StateId) :
    queued g r (id :: l) = weight g r id + queued g r l := rfl

theorem queued_append_singleton (g : Graph σ) (r : Reached StateId π) (id : StateId)
    (l : List StateId) : queued g r (l ++ [id]) = queued g r l + weight g r id := by
  induction l with
  | nil => simp [queued]
  | cons a l ih => rw [List.cons_append, queued_cons, queued_cons, ih, Nat.add_assoc]

theorem queued_congr {g : Graph σ} {r r' : Reached StateId π} (l : List StateId)
    (h : ∀ x, x ∈ r ↔ x ∈ r') : queued g r' l = queued g r l :=
  Nat.le_antisymm (queued_le_of_subset l fun x => (h x).1)
    (queued_le_of_subset l fun x => (h x).2)

theorem unreached_congr {g : Graph σ} {r r' : Reached StateId π} (h : ∀ x, x ∈ r ↔ x ∈ r') :
    unreached g r' = unreached g r := by
  unfold unreached
  exact List.filter_congr fun x _ => by simp [h x]

/-! ## The moves -/

/-- A state that is admitted pays for its place in the waitlist. -/
theorem remaining_admitChild_le {g : Graph σ} {precision : π} {id child : StateId}
    {p p' : Progress κ π} (h : admitChild g precision id child p = .next p') :
    p'.remaining g ≤ p.remaining g := by
  unfold admitChild at h
  split at h
  · cases h
  · rename_i hid
    split at h
    · cases h
      exact Nat.le_refl _
    · split at h
      · split at h
        · cases h
          exact Nat.le_refl _
        · cases h
      · rename_i hr
        cases h
        have hg : child < g.size := by
          refine Nat.lt_of_not_le fun hle => hid ?_
          simp [Graph.parents, Graph.node?, Array.getElem?_eq_none hle]
        have hu : (unreached g (p.reached.add child precision)).length <
            (unreached g p.reached).length := length_unreached_add_lt hg hr
        have hq : queued g (p.reached.add child precision) p.reached.waitlist ≤
            queued g p.reached p.reached.waitlist :=
          queued_le_of_subset _ fun x hx => Reached.mem_add.2 (Or.inl hx)
        have hw := weight_le_three g (p.reached.add child precision) child
        simp only [Progress.remaining, Reached.waitlist_add_of_not_mem hr,
          queued_append_singleton]
        omega

theorem remaining_admitAll_le {g : Graph σ} {precision : π} {id : StateId} :
    ∀ {children : List StateId} {p p' : Progress κ π},
      admitAll g precision id children p = .next p' → p'.remaining g ≤ p.remaining g
  | [], p, p', h => by
    cases h
    exact Nat.le_refl _
  | child :: rest, p, p', h => by
    unfold admitAll at h
    split at h
    · rename_i p₁ h₁
      exact Nat.le_trans (remaining_admitAll_le h) (remaining_admitChild_le h₁)
    · cases h

theorem remaining_visitUncovered_le {env : Environment κ σ} {g : Graph σ} {precision : π}
    {id : StateId} {node : Node σ} {p p' : Progress κ π}
    (h : visitUncovered env g precision id node p = .next p') :
    p'.remaining g ≤ p.remaining g := by
  unfold visitUncovered at h
  split at h
  · cases h
  · simp only [Move.ofReply] at h
    split at h
    · cases h
    · split at h
      · have hle := remaining_admitAll_le h
        exact hle
      · cases h

theorem remaining_visitCovered_lt {env : Environment κ σ} {g : Graph σ} {id c : StateId}
    {state : σ} {p p' : Progress κ π} (hc : g.coveredBy? id = some c)
    (h : visitCovered env g id c state p = .next p') :
    p'.remaining g < p.remaining g + weight g p.reached id := by
  unfold visitCovered at h
  split at h
  · rename_i hr
    cases h
    have hs : (p.postponed.insert id).size ≤ p.postponed.size + 1 := ExtTreeSet.size_insert_le
    simp only [Progress.remaining, weight_eq_three hc hr]
    omega
  · have hw := one_le_weight g p.reached id
    split at h
    · cases h
    · cases h
    · split at h
      · cases h
      · simp only [Move.ofReply] at h
        split at h
        · cases h
        · split at h
          · cases h
            exact Nat.lt_add_of_pos_right hw
          · cases h

theorem remaining_visit_lt {env : Environment κ σ} {g : Graph σ} {precision : π}
    {id : StateId} {p p' : Progress κ π} (h : visit env g precision id p = .next p') :
    p'.remaining g < p.remaining g + weight g p.reached id := by
  unfold visit at h
  split at h
  · cases h
  · simp only at h
    split at h
    · cases h
    · rename_i node hn
      split at h
      · cases h
      · split at h
        · rename_i c hc
          have hg : g.coveredBy? id = some c := by
            unfold Graph.node at hn
            split at hn
            · rename_i n hn'
              cases hn
              simp [Graph.coveredBy?, hn', hc]
            · cases hn
          have hlt := remaining_visitCovered_lt hg h
          exact hlt
        · have hw := one_le_weight g p.reached id
          have hle := remaining_visitUncovered_le h
          exact Nat.lt_of_le_of_lt hle (Nat.lt_add_of_pos_right hw)

/-- A state that waits again costs one. -/
theorem remaining_requeueAll_le {g : Graph σ} :
    ∀ {l : List StateId} {p p' : Progress κ π},
      requeueAll g l p = .next p' → p'.remaining g ≤ p.remaining g + l.length
  | [], p, p', h => by
    cases h
    exact Nat.le_refl _
  | id :: rest, p, p', h => by
    unfold requeueAll at h
    split at h
    · exact Nat.le_trans (remaining_requeueAll_le h) (by simp)
    · rename_i c hc
      split at h
      · rename_i hr
        refine Nat.le_trans (remaining_requeueAll_le h) ?_
        have hcongr : ∀ x, x ∈ p.reached ↔ x ∈ p.reached.requeue id :=
          fun x => Reached.mem_requeue.symm
        have hq : queued g (p.reached.requeue id) (p.reached.requeue id).waitlist ≤
            queued g p.reached p.reached.waitlist + 1 := by
          by_cases hid : id ∈ p.reached
          · refine Nat.le_of_eq ?_
            rw [Reached.waitlist_requeue_of_mem hid, queued_append_singleton,
              queued_congr _ hcongr, weight_eq_one hc (Reached.mem_requeue.2 hr)]
          · rw [Reached.requeue, if_neg hid]
            exact Nat.le_succ _
        simp only [Progress.remaining, unreached_congr hcongr, List.length_cons]
        omega
      · cases h

theorem remaining_startPass_lt {g : Graph σ} {p p' : Progress κ π}
    (hp : p.postponed.isEmpty = false) (h : startPass g p = .next p') :
    p'.remaining g < p.remaining g := by
  have hle := remaining_requeueAll_le h
  have hsize : 0 < p.postponed.size := by
    refine Nat.pos_of_ne_zero fun h0 => ?_
    rw [ExtTreeSet.isEmpty_eq_size_beq_zero, h0] at hp
    cases hp
  simp only [Progress.remaining, ExtTreeSet.length_toList, ExtTreeSet.size_empty] at hle ⊢
  omega

/-- Every step that leads on leaves less work. -/
theorem remaining_step_lt {env : Environment κ σ} {g : Graph σ} {precision : π}
    {p p' : Progress κ π} (h : step env g precision p = .next p') :
    p'.remaining g < p.remaining g := by
  unfold step at h
  split at h
  · rename_i id rest hpop
    have hlt := remaining_visit_lt h
    have hcongr : ∀ x, x ∈ rest ↔ x ∈ p.reached := fun _ => Reached.mem_of_pop? hpop
    refine Nat.lt_of_lt_of_eq hlt ?_
    have hq : queued g p.reached p.reached.waitlist =
        weight g rest id + queued g rest rest.waitlist := by
      rw [Reached.waitlist_of_pop? hpop, ← queued_cons]
      exact queued_congr _ hcongr
    simp only [Progress.remaining, Progress.record, unreached_congr hcongr, hq]
    omega
  · split at h
    · cases h
    · rename_i hp
      exact remaining_startPass_lt (by simpa using hp) h

end Certificate
end StateSpace
