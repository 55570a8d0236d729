import Mathlib.Logic.Basic
import StateSpace.Proofs.Certificate.Step
import StateSpace.Proofs.Reached

/-!
# StateSpace.Proofs.Certificate.Bookkeeping

The collections of a check agree with the graph and with each other, whatever the oracle says.

* `Progress.Seen`: the state was admitted and is not fresh any more, so it was looked at.
* `Bookkeeping`: the invariant. It holds between two steps, and within a step after each claimed
  successor, so that it also holds of the progress in which a check ends.
-/

namespace StateSpace

namespace Certificate

open Std

variable {κ π σ : Type}

theorem StateIds.mem_insert {t : StateIds} {s e : StateId} : s ∈ t.insert e ↔ s = e ∨ s ∈ t := by
  rw [ExtTreeSet.mem_insert, Nat.compare_eq_eq, eq_comm]

theorem StateIds.mem_erase {t : StateIds} {s e : StateId} : s ∈ t.erase e ↔ s ≠ e ∧ s ∈ t := by
  rw [ExtTreeSet.mem_erase, ne_eq, Nat.compare_eq_eq, eq_comm]

theorem StateIds.nodup_toList (t : StateIds) : t.toList.Nodup :=
  ExtTreeSet.distinct_toList.imp fun hne heq => hne (Nat.compare_eq_eq.2 heq)

theorem StateIds.pairwise_toList (t : StateIds) : t.toList.Pairwise (· < ·) :=
  ExtTreeSet.ordered_toList.imp fun h => Nat.compare_eq_lt.1 h

/-- The state was admitted and looked at. -/
def Progress.Seen (p : Progress κ π) (s : StateId) : Prop := s ∈ p.reached ∧ s ∉ p.fresh

/-- Some state that was looked at and is not covered claims the successor, which agrees. -/
def Progress.Claims (g : Graph σ) (p : Progress κ π) (e : StateId) : Prop :=
  ∃ q, p.Seen q ∧ g.coveredBy? q = none ∧ e ∈ g.children q ∧ q ∈ g.parents e

structure Bookkeeping (g : Graph σ) (p : Progress κ π) : Prop where
  first : p.reached.first? = some g.root
  holds : ∀ s ∈ p.reached, g.Holds s
  fresh : ∀ s ∈ p.fresh, s ∈ p.reached.waitlist
  waiting : ∀ s ∈ p.reached.waitlist, s ∈ p.reached
  distinct : p.reached.waitlist.Nodup
  postponed : ∀ s ∈ p.postponed, p.Seen s ∧ ∃ c, g.coveredBy? s = some c
  admitted : ∀ s ∈ p.reached,
    p.admittedParents[s]? = some (if s = g.root then [] else g.parents s)
  /-- A state was admitted after all of its claimed predecessors had been looked at. -/
  explored : ∀ s ∈ p.reached, s ≠ g.root → ∀ q ∈ g.parents s,
    p.Seen q ∧ p.reached.states.idxOf q < p.reached.states.idxOf s
  found : ∀ s ∈ p.reached, s ≠ g.root → p.Claims g s
  blocked : ∀ e ∈ p.blocked, (e ∈ p.reached → e = g.root) ∧ p.Claims g e

theorem lacksParent_eq_true_iff {p : Progress κ π} {l : List StateId} :
    p.lacksParent l = true ↔ ∃ q ∈ l, ¬ p.Seen q := by
  simp only [Progress.lacksParent, List.any_eq_true, Bool.or_eq_true, decide_eq_true_eq,
    Progress.Seen, not_and_or, not_not]

theorem lacksParent_eq_false_iff {p : Progress κ π} {l : List StateId} :
    p.lacksParent l = false ↔ ∀ q ∈ l, p.Seen q := by
  rw [← Bool.not_eq_true, lacksParent_eq_true_iff]
  simp

theorem seen_looked {p : Progress κ π} {id s : StateId} {rest : Reached StateId π} {holds : Bool}
    (hpop : p.reached.pop? = some (id, rest)) :
    (p.looked id rest holds).Seen s ↔ s ∈ p.reached ∧ (s = id ∨ s ∉ p.fresh) := by
  have hmem : s ∈ rest ↔ s ∈ p.reached := Reached.mem_of_pop? hpop
  simp only [Progress.Seen, Progress.looked, hmem, StateIds.mem_erase, not_and_or, not_not]

theorem seen_admitted {p : Progress κ π} {s child : StateId} {precision : π}
    {parents : List StateId} (hc : child ∉ p.reached) :
    (p.admitted child precision parents).Seen s ↔ p.Seen s := by
  simp only [Progress.Seen, Progress.admitted, Reached.mem_add, StateIds.mem_insert, not_or]
  constructor
  · rintro ⟨hs | rfl, hne, hf⟩
    · exact ⟨hs, hf⟩
    · exact absurd rfl hne
  · rintro ⟨hs, hf⟩
    exact ⟨.inl hs, fun h => hc (h ▸ hs), hf⟩

theorem seen_of_admitChild {g : Graph σ} {p p' : Progress κ π} {precision : π}
    {id child s : StateId} (hm : admitChild g precision id child p = .next p') :
    p'.Seen s ↔ p.Seen s := by
  rcases (admitChild_next hm).2 with ⟨-, rfl⟩ | ⟨-, -, -, rfl⟩ | ⟨-, hnew, rfl⟩
  · exact Iff.rfl
  · exact Iff.rfl
  · exact seen_admitted hnew

section Preservation

variable {g : Graph σ} {p : Progress κ π} {precision : π} {id child : StateId}
  {rest : Reached StateId π}

namespace Bookkeeping

theorem root_mem (h : Bookkeeping g p) : g.root ∈ p.reached := Reached.mem_of_first? h.first

theorem mem_of_pop? (h : Bookkeeping g p) (hpop : p.reached.pop? = some (id, rest)) :
    id ∈ p.reached := h.waiting id (Reached.mem_waitlist_of_pop? hpop)

/-- A state does not wait twice. -/
theorem nodup_of_pop? (h : Bookkeeping g p) (hpop : p.reached.pop? = some (id, rest)) :
    (id :: rest.waitlist).Nodup := by
  rw [← Reached.waitlist_of_pop? hpop]
  exact h.distinct

/-- When nothing waits, all that was admitted was looked at. -/
theorem seen_of_idle (h : Bookkeeping g p) (hidle : p.reached.waitlist = []) {s : StateId}
    (hs : s ∈ p.reached) : p.Seen s := by
  refine ⟨hs, fun hf => ?_⟩
  have hwaits := h.fresh s hf
  rw [hidle] at hwaits
  exact List.not_mem_nil hwaits

theorem start {reached : Reached StateId π} (hr : reached.IsFresh g.root) :
    Bookkeeping g (.start reached g.root : Progress κ π) := by
  have hmem : ∀ s, s ∈ reached ↔ s = g.root := by
    intro s
    rw [Reached.mem_iff_mem_states, hr.1, List.mem_singleton]
  have hempty : ∀ s, s ∉ (∅ : StateIds) := fun _ => ExtTreeSet.not_mem_empty
  constructor
  case first => simp [Progress.start, Reached.first?, hr.1]
  case holds =>
    intro s hs
    rw [(hmem s).1 hs]
    exact g.holds_root
  case fresh =>
    intro s hs
    simp [Progress.start] at hs
    simp [Progress.start, hr.2, hs]
  case waiting =>
    intro s hs
    simp only [Progress.start, hr.2, List.mem_singleton] at hs
    exact (hmem s).2 hs
  case distinct => simp [Progress.start, hr.2]
  case postponed => exact fun s hs => absurd hs (hempty s)
  case admitted =>
    intro s hs
    obtain rfl := (hmem s).1 hs
    simp [Progress.start]
  case explored => exact fun s hs hne => absurd ((hmem s).1 hs) hne
  case found => exact fun s hs hne => absurd ((hmem s).1 hs) hne
  case blocked => exact fun s hs => absurd hs (hempty s)

theorem record (h : Bookkeeping g p) (e : Event κ) : Bookkeeping g (p.record e) :=
  ⟨h.first, h.holds, h.fresh, h.waiting, h.distinct, h.postponed, h.admitted, h.explored,
    h.found, h.blocked⟩

end Bookkeeping

theorem Progress.Seen.looked {s : StateId} {holds : Bool}
    (hpop : p.reached.pop? = some (id, rest)) (h : p.Seen s) :
    (p.looked id rest holds).Seen s :=
  (seen_looked hpop).2 ⟨h.1, .inr h.2⟩

theorem Progress.Claims.of_seen {p' : Progress κ π} {e : StateId} (h : p.Claims g e)
    (hs : ∀ s, p.Seen s → p'.Seen s) : p'.Claims g e := by
  obtain ⟨q, hq, hrest⟩ := h
  exact ⟨q, hs q hq, hrest⟩

namespace Bookkeeping

theorem look (h : Bookkeeping g p) (hpop : p.reached.pop? = some (id, rest)) (holds : Bool) :
    Bookkeeping g (p.looked id rest holds) := by
  have hw : p.reached.waitlist = id :: rest.waitlist := Reached.waitlist_of_pop? hpop
  have hmem : ∀ s, s ∈ rest ↔ s ∈ p.reached := fun _ => Reached.mem_of_pop? hpop
  have hstates : rest.states = p.reached.states := Reached.states_of_pop? hpop
  have hseen : ∀ s, p.Seen s → (p.looked id rest holds).Seen s := fun _ => .looked hpop
  constructor
  case first => exact (congrArg List.head? hstates).trans h.first
  case holds => exact fun s hs => h.holds s ((hmem s).1 hs)
  case fresh =>
    intro s hs
    obtain ⟨hne, hs⟩ := StateIds.mem_erase.1 hs
    have hwait : s ∈ id :: rest.waitlist := hw ▸ h.fresh s hs
    exact (List.mem_cons.1 hwait).resolve_left hne
  case waiting => exact fun s hs => (hmem s).2 (h.waiting s (hw ▸ List.mem_cons_of_mem id hs))
  case distinct => exact (List.nodup_cons.1 (h.nodup_of_pop? hpop)).2
  case postponed => exact fun s hs => ⟨hseen s (h.postponed s hs).1, (h.postponed s hs).2⟩
  case admitted => exact fun s hs => h.admitted s ((hmem s).1 hs)
  case explored =>
    intro s hs hne q hq
    obtain ⟨hseenq, hlt⟩ := h.explored s ((hmem s).1 hs) hne q hq
    exact ⟨hseen q hseenq, by simpa only [Progress.looked, hstates] using hlt⟩
  case found => exact fun s hs hne => (h.found s ((hmem s).1 hs) hne).of_seen hseen
  case blocked =>
    intro e he
    obtain ⟨hroot, hclaims⟩ := h.blocked e he
    exact ⟨fun hr => hroot ((hmem e).1 hr), hclaims.of_seen hseen⟩

theorem postpone (h : Bookkeeping g p) (hid : p.Seen id) {c : StateId}
    (hc : g.coveredBy? id = some c) :
    Bookkeeping g { p with postponed := p.postponed.insert id } := by
  refine ⟨h.first, h.holds, h.fresh, h.waiting, h.distinct, ?_, h.admitted, h.explored, h.found,
    h.blocked⟩
  intro s hs
  rcases StateIds.mem_insert.1 hs with rfl | hs
  · exact ⟨hid, c, hc⟩
  · exact h.postponed s hs

/-- Some postponed states wait again, when nothing else does. -/
theorem requeue (h : Bookkeeping g p) (hidle : p.reached.waitlist = []) {l : List StateId}
    (hl : l.Nodup) (hpost : ∀ s ∈ l, s ∈ p.postponed) :
    Bookkeeping g { p with
      reached := { p.reached with waitlist := p.reached.waitlist ++ l }
      passes := p.passes + 1
      postponed := ∅ } := by
  have hw : p.reached.waitlist ++ l = l := by
    rw [hidle, List.nil_append]
  refine ⟨h.first, h.holds, ?_, ?_, ?_, ?_, h.admitted, h.explored, h.found, h.blocked⟩
  · intro s hs
    exact List.mem_append_left _ (h.fresh s hs)
  · intro s hs
    rw [hw] at hs
    exact (h.postponed s (hpost s hs)).1.1
  · rw [hw]
    exact hl
  · intro s hs
    exact absurd hs ExtTreeSet.not_mem_empty

theorem startPass_next {p' : Progress κ π} (h : Bookkeeping g p)
    (hm : startPass g p = .next p') :
    p' = { p with
      reached := { p.reached with waitlist := p.reached.waitlist ++ p.postponed.toList }
      passes := p.passes + 1
      postponed := ∅ } ∧
      ∀ s ∈ p.postponed, ∀ c, g.coveredBy? s = some c → c ∈ p.reached :=
  Certificate.startPass_next (fun s hs => ⟨(h.postponed s hs).1.1, (h.postponed s hs).2⟩) hm

theorem discover (h : Bookkeeping g p) (hnew : child ∉ p.reached)
    (hready : ∀ q ∈ g.parents child, p.Seen q) (hclaims : p.Claims g child) :
    Bookkeeping g (p.admitted child precision (g.parents child)) := by
  have hstates : (p.reached.add child precision).states = p.reached.states ++ [child] :=
    Reached.states_add_of_not_mem hnew
  have hwait : (p.reached.add child precision).waitlist = p.reached.waitlist ++ [child] :=
    Reached.waitlist_add_of_not_mem hnew
  have hroot : child ≠ g.root := fun heq => hnew (heq ▸ h.root_mem)
  have hseen : ∀ s, p.Seen s → (p.admitted child precision (g.parents child)).Seen s :=
    fun _ => (seen_admitted hnew).2
  constructor
  case first =>
    have hfirst : p.reached.states.head? = some g.root := h.first
    simp [Progress.admitted, Reached.first?, hstates, List.head?_append, hfirst]
  case holds =>
    intro s hs
    rcases Reached.mem_add.1 hs with hs | rfl
    · exact h.holds s hs
    · obtain ⟨q, _, _, _, hq⟩ := hclaims
      exact Graph.holds_of_mem_parents hq
  case fresh =>
    intro s hs
    simp only [Progress.admitted, hwait]
    rcases StateIds.mem_insert.1 hs with rfl | hs
    · exact List.mem_append_right _ List.mem_cons_self
    · exact List.mem_append_left _ (h.fresh s hs)
  case waiting =>
    intro s hs
    simp only [Progress.admitted, hwait, List.mem_append, List.mem_singleton] at hs
    exact Reached.mem_add.2 (hs.imp_left (h.waiting s))
  case distinct =>
    simp only [Progress.admitted, hwait]
    refine List.nodup_append.2 ⟨h.distinct, by simp, ?_⟩
    rintro a ha b hb rfl
    rw [List.mem_singleton.1 hb] at ha
    exact hnew (h.waiting child ha)
  case postponed => exact fun s hs => ⟨hseen s (h.postponed s hs).1, (h.postponed s hs).2⟩
  case admitted =>
    intro s hs
    simp only [Progress.admitted, ExtTreeMap.getElem?_insert, Nat.compare_eq_eq]
    rcases Reached.mem_add.1 hs with hs | rfl
    · have hne : child ≠ s := fun heq => hnew (heq ▸ hs)
      rw [if_neg hne]
      exact h.admitted s hs
    · rw [if_pos rfl, if_neg hroot]
  case explored =>
    intro s hs hne q hq
    rcases Reached.mem_add.1 hs with hs | rfl
    · obtain ⟨hseenq, hlt⟩ := h.explored s hs hne q hq
      refine ⟨hseen q hseenq, ?_⟩
      simpa only [Progress.admitted, Reached.idxOf_add_of_mem hnew hs,
        Reached.idxOf_add_of_mem hnew hseenq.1] using hlt
    · exact ⟨hseen q (hready q hq), Reached.idxOf_lt_idxOf_add hnew (hready q hq).1⟩
  case found =>
    intro s hs hne
    rcases Reached.mem_add.1 hs with hs | rfl
    · exact (h.found s hs hne).of_seen hseen
    · exact hclaims.of_seen hseen
  case blocked =>
    intro e he
    obtain ⟨hne, he⟩ := StateIds.mem_erase.1 he
    obtain ⟨hblocked, he⟩ := h.blocked e he
    exact ⟨fun hr => hblocked ((Reached.mem_add.1 hr).resolve_right hne), he.of_seen hseen⟩

theorem admitChild_step (h : Bookkeeping g p) (hid : p.Seen id) (hun : g.coveredBy? id = none)
    (hchild : child ∈ g.children id) {p' : Progress κ π}
    (hm : admitChild g precision id child p = .next p') : Bookkeeping g p' := by
  obtain ⟨hparent, hm⟩ := admitChild_next hm
  have hclaims : p.Claims g child := ⟨id, hid, hun, hchild, hparent⟩
  rcases hm with ⟨hlacks, rfl⟩ | ⟨-, -, -, rfl⟩ | ⟨hready, hnew, rfl⟩
  · -- A child that lacks a predecessor was not admitted, the root apart.
    refine ⟨h.first, h.holds, h.fresh, h.waiting, h.distinct, h.postponed, h.admitted,
      h.explored, h.found, ?_⟩
    intro e he
    rcases StateIds.mem_insert.1 he with rfl | he
    · refine ⟨fun hmem => Decidable.byContradiction fun hne => ?_, hclaims⟩
      obtain ⟨q, hq, hunseen⟩ := lacksParent_eq_true_iff.1 hlacks
      exact hunseen (h.explored _ hmem hne q hq).1
    · exact h.blocked e he
  · exact h
  · exact h.discover hnew (lacksParent_eq_false_iff.1 hready) hclaims

theorem admitAll {l : List StateId} (h : Bookkeeping g p) (hid : p.Seen id)
    (hun : g.coveredBy? id = none) (hl : ∀ e ∈ l, e ∈ g.children id) {p' : Progress κ π}
    (hm : admitAll g precision id l p = .next p') : Bookkeeping g p' := by
  have hloop : Bookkeeping g p' ∧ p'.Seen id := by
    refine admitAll_next (P := fun q => Bookkeeping g q ∧ q.Seen id) ?_ ⟨h, hid⟩ hm
    rintro child hchild q q' ⟨hbooks, hseen⟩ hnext
    exact ⟨hbooks.admitChild_step hseen hun (hl child hchild) hnext,
      (seen_of_admitChild hnext).2 hseen⟩
  exact hloop.1

end Bookkeeping

end Preservation

end Certificate
end StateSpace
