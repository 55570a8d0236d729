import StateSpace.Graph.Covering
import StateSpace.Proofs.Graph.Basic

/-!
# StateSpace.Proofs.Graph.Covering

What the walk along the covering links finds.

* `Graph.CoveredBy`, `Graph.LeadsTo`: one covering link; the links from a node lead to a node that
  nothing covers.
* `coveringEnds_eq_true_iff`: the walk says so exactly if the links lead somewhere. A link has one
  target, so links that come back to a node lead nowhere (`LeadsTo.not_cycle`), and along links
  that lead somewhere the walk never meets a node twice.
-/

namespace StateSpace
namespace Graph

open Relation

variable {σ : Type} {g : Graph σ} {a b c : StateId}

def CoveredBy (g : Graph σ) (a b : StateId) : Prop := g.coveredBy? a = some b

/-- The covering links from the first node lead to the second one, which nothing covers. -/
def LeadsTo (g : Graph σ) (a c : StateId) : Prop :=
  ReflTransGen g.CoveredBy a c ∧ g.coveredBy? c = none

theorem CoveredBy.eq (h : g.CoveredBy a b) (h' : g.CoveredBy a c) : b = c :=
  Option.some.inj (h.symm.trans h')

theorem LeadsTo.here (h : g.coveredBy? a = none) : g.LeadsTo a a := ⟨.refl, h⟩

theorem LeadsTo.link (h : g.CoveredBy a b) (hl : g.LeadsTo b c) : g.LeadsTo a c :=
  ⟨.head h hl.1, hl.2⟩

/-- A link does not change where the links lead. -/
theorem LeadsTo.unlink (h : g.CoveredBy a b) (hl : g.LeadsTo a c) : g.LeadsTo b c := by
  obtain ⟨hc, hend⟩ := hl
  rcases hc.cases_head with rfl | ⟨b', hb', hrest⟩
  · rw [CoveredBy, hend] at h
    cases h
  · rw [h.eq hb']
    exact ⟨hrest, hend⟩

/-- Links that lead somewhere do not come back. -/
theorem LeadsTo.not_cycle (h : g.LeadsTo a c) : ¬ TransGen g.CoveredBy a a := by
  obtain ⟨hc, hend⟩ := h
  induction hc using ReflTransGen.head_induction_on with
  | refl =>
    intro hcycle
    obtain ⟨b, hb, _⟩ := TransGen.head'_iff.1 hcycle
    rw [CoveredBy, hend] at hb
    cases hb
  | head hlink _ ih =>
    intro hcycle
    obtain ⟨b', hb', hback⟩ := TransGen.head'_iff.1 hcycle
    rw [← hlink.eq hb'] at hback
    exact ih (TransGen.tail' hback hlink)

/-! ## One step of the walk -/

theorem coveredBy?_eq_getElem (h : a < g.nodes.size) :
    g.coveredBy? a = (g.nodes[a]).coveredBy? := by
  simp [coveredBy?, node?, Array.getElem?_eq_getElem h]

theorem coveringWalk_of_mem {visited : List StateId} (hg : g.Holds a) (hm : a ∈ visited) :
    g.coveringWalk visited a = .ok ⟨visited, false⟩ := by
  rw [coveringWalk, dif_pos (show a < g.size from hg), dif_pos hm]

theorem coveringWalk_of_none {visited : List StateId} (hg : g.Holds a) (hm : a ∉ visited)
    (h : g.coveredBy? a = none) : g.coveringWalk visited a = .ok ⟨a :: visited, true⟩ := by
  rw [coveredBy?_eq_getElem hg] at h
  rw [coveringWalk, dif_pos (show a < g.size from hg), dif_neg hm]
  split
  · rfl
  · rename_i next hnext
    cases h.symm.trans hnext

theorem coveringWalk_of_link {visited : List StateId} (hm : a ∉ visited) (h : g.CoveredBy a b) :
    g.coveringWalk visited a = g.coveringWalk (a :: visited) b := by
  have hg : g.Holds a := holds_of_coveredBy? h
  rw [CoveredBy, coveredBy?_eq_getElem hg] at h
  rw [coveringWalk, dif_pos (show a < g.size from hg), dif_neg hm]
  split
  · rename_i hnone
    cases h.symm.trans hnone
  · rename_i next hnext
    cases h.symm.trans hnext
    rfl

/-! ## The whole walk -/

/-- The outcome of a walk. Each node it visited leads to the place where it goes on. -/
theorem ends_of_coveringWalk {visited : List StateId} {id : StateId} {t : Trail}
    (hv : ∀ v ∈ visited, TransGen g.CoveredBy v id) (h : g.coveringWalk visited id = .ok t) :
    t.ends = true ↔ ∃ c, g.LeadsTo id c := by
  induction visited, id using coveringWalk.induct g with
  | case1 visited id hg hmem =>
    rw [coveringWalk_of_mem hg hmem] at h
    cases h
    constructor
    · intro hends
      cases hends
    · rintro ⟨c, hc⟩
      exact absurd (hv id hmem) hc.not_cycle
  | case2 visited id hg hmem hnone =>
    have hid : g.coveredBy? id = none := (coveredBy?_eq_getElem hg).trans hnone
    rw [coveringWalk_of_none hg hmem hid] at h
    cases h
    exact ⟨fun _ => ⟨id, .here hid⟩, fun _ => rfl⟩
  | case3 visited id hg hmem next hnext ih =>
    have hlink : g.CoveredBy id next := (coveredBy?_eq_getElem hg).trans hnext
    rw [coveringWalk_of_link hmem hlink] at h
    have hvisited : ∀ v ∈ id :: visited, TransGen g.CoveredBy v next := by
      intro v hmem
      rcases List.mem_cons.1 hmem with rfl | hmem
      · exact .single hlink
      · exact (hv v hmem).tail hlink
    rw [ih hvisited h]
    exact ⟨fun ⟨c, hc⟩ => ⟨c, hc.link hlink⟩, fun ⟨c, hc⟩ => ⟨c, hc.unlink hlink⟩⟩
  | case4 visited id hg =>
    rw [coveringWalk, dif_neg hg] at h
    cases h

theorem exists_coveringWalk (hc : ∀ a b, g.CoveredBy a b → g.Holds b) {visited : List StateId}
    {id : StateId} (hid : g.Holds id) : ∃ t, g.coveringWalk visited id = .ok t := by
  induction visited, id using coveringWalk.induct g with
  | case1 visited id hg hmem => exact ⟨_, coveringWalk_of_mem hg hmem⟩
  | case2 visited id hg hmem hnone =>
    exact ⟨_, coveringWalk_of_none hg hmem ((coveredBy?_eq_getElem hg).trans hnone)⟩
  | case3 visited id hg hmem next hnext ih =>
    have hlink : g.CoveredBy id next := (coveredBy?_eq_getElem hg).trans hnext
    obtain ⟨t, ht⟩ := ih (hc id next hlink)
    exact ⟨t, (coveringWalk_of_link hmem hlink).trans ht⟩
  | case4 visited id hg => exact absurd hid hg

theorem exists_leadsTo_of_coveringEnds {id : StateId} {ends : Bool}
    (h : g.coveringEnds id = .ok ends) : ends = true ↔ ∃ c, g.LeadsTo id c := by
  unfold coveringEnds at h
  split at h
  · cases h
  · rename_i t ht
    cases h
    exact ends_of_coveringWalk (fun v hv => absurd hv List.not_mem_nil) ht

theorem exists_coveringEnds (hr : g.InRange) {id : StateId} (hid : g.Holds id) :
    ∃ ends, g.coveringEnds id = .ok ends := by
  obtain ⟨t, ht⟩ : ∃ t, g.coveringWalk [] id = .ok t := exists_coveringWalk hr.covering hid
  exact ⟨t.ends, by simp [coveringEnds, coveringTrail, ht]⟩

/-- The walk tells whether the covering links lead to a node that nothing covers. -/
theorem coveringEnds_eq_true_iff (hr : g.InRange) {id : StateId} (hid : g.Holds id) :
    g.coveringEnds id = .ok true ↔ ∃ c, g.LeadsTo id c := by
  obtain ⟨ends, h⟩ := exists_coveringEnds hr hid
  rw [← exists_leadsTo_of_coveringEnds h, h]
  simp

end Graph

end StateSpace
