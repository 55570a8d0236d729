import StateSpace.Proofs.Graph.Covering

/-!
# StateSpace.Proofs.Graph.CoveringTrail

The covering links counted one by one, and the trail that the walk along them leaves.

* `Graph.coveringAt?`: the node that a number of links lead to, as long as there are so many.
  `exists_coveringAt?_iff` and `exists_coveringAt?_succ_iff` tie the count to the links.
* `Visits`: the invariant of the walk. Its nodes stand at the first places along the links, and no
  node comes twice.
* `Followed`: what the trail says of the links. They end at a node that nothing covers, or they
  never end. Links that never end come back to a node, which need not be the first one.
* `followed_coveringEnds`: the walk leaves such a trail from every node, if no link leaves the
  graph.
-/

namespace StateSpace
namespace Graph

open Relation

variable {σ : Type} {g : Graph σ} {a b c start id : StateId} {visited : List StateId} {n : Nat}

/-! ## Counting links -/

/-- The node that `n` covering links lead to. -/
def coveringAt? (g : Graph σ) (a : StateId) : Nat → Option StateId
  | 0 => some a
  | n + 1 => (g.coveringAt? a n).bind g.coveredBy?

theorem coveringAt?_succ_eq_some_iff :
    g.coveringAt? a (n + 1) = some c ↔ ∃ b, g.coveringAt? a n = some b ∧ g.CoveredBy b c :=
  Option.bind_eq_some_iff

theorem coveringAt?_succ (h : g.coveringAt? a n = some b) :
    g.coveringAt? a (n + 1) = g.coveredBy? b := by
  rw [coveringAt?, h, Option.bind_some]

theorem coveringAt?_add (m n : Nat) :
    g.coveringAt? a (m + n) = (g.coveringAt? a m).bind fun b => g.coveringAt? b n := by
  induction n with
  | zero => simp [coveringAt?]
  | succ n ih =>
    rw [← Nat.add_assoc, coveringAt?, ih, Option.bind_assoc]
    rfl

theorem exists_coveringAt?_iff :
    (∃ n, g.coveringAt? a n = some b) ↔ ReflTransGen g.CoveredBy a b := by
  constructor
  · rintro ⟨n, h⟩
    induction n generalizing b with
    | zero =>
      cases h
      exact .refl
    | succ n ih =>
      obtain ⟨c, hc, hlink⟩ := coveringAt?_succ_eq_some_iff.1 h
      exact (ih hc).tail hlink
  · intro h
    induction h with
    | refl => exact ⟨0, rfl⟩
    | tail _ hlink ih =>
      obtain ⟨n, hn⟩ := ih
      exact ⟨n + 1, coveringAt?_succ_eq_some_iff.2 ⟨_, hn, hlink⟩⟩

theorem exists_coveringAt?_succ_iff :
    (∃ n, g.coveringAt? a (n + 1) = some b) ↔ TransGen g.CoveredBy a b := by
  rw [TransGen.tail'_iff]
  constructor
  · rintro ⟨n, h⟩
    obtain ⟨c, hc, hlink⟩ := coveringAt?_succ_eq_some_iff.1 h
    exact ⟨c, exists_coveringAt?_iff.1 ⟨n, hc⟩, hlink⟩
  · rintro ⟨c, hc, hlink⟩
    obtain ⟨n, hn⟩ := exists_coveringAt?_iff.2 hc
    exact ⟨n, coveringAt?_succ_eq_some_iff.2 ⟨c, hn, hlink⟩⟩

theorem exists_leadsTo_iff :
    (∃ c, g.LeadsTo a c) ↔ ∃ n c, g.coveringAt? a n = some c ∧ g.coveredBy? c = none := by
  constructor
  · rintro ⟨c, hc, hend⟩
    obtain ⟨n, hn⟩ := exists_coveringAt?_iff.2 hc
    exact ⟨n, c, hn, hend⟩
  · rintro ⟨n, c, hn, hend⟩
    exact ⟨c, exists_coveringAt?_iff.1 ⟨n, hn⟩, hend⟩

/-- Links that end at no node go on for ever. -/
theorem forall_exists_coveringAt?_iff :
    (∀ n, ∃ b, g.coveringAt? a n = some b) ↔ ¬ ∃ c, g.LeadsTo a c := by
  rw [exists_leadsTo_iff]
  constructor
  · rintro h ⟨n, c, hn, hend⟩
    obtain ⟨b, hb⟩ := h (n + 1)
    rw [coveringAt?_succ hn, hend] at hb
    cases hb
  · intro h n
    induction n with
    | zero => exact ⟨a, rfl⟩
    | succ n ih =>
      obtain ⟨b, hb⟩ := ih
      rw [coveringAt?_succ hb]
      exact Option.ne_none_iff_exists'.1 fun hend => h ⟨n, b, hb, hend⟩

/-- A node that comes twice is one that leads back to itself. -/
theorem exists_twice_iff :
    (∃ i j b, i < j ∧ g.coveringAt? a i = some b ∧ g.coveringAt? a j = some b) ↔
      ∃ b, ReflTransGen g.CoveredBy a b ∧ TransGen g.CoveredBy b b := by
  have hshift : ∀ {i b}, g.coveringAt? a i = some b → ∀ k,
      g.coveringAt? a (i + k) = g.coveringAt? b k := by
    intro i b hi k
    rw [coveringAt?_add, hi, Option.bind_some]
  constructor
  · rintro ⟨i, j, b, hlt, hi, hj⟩
    obtain ⟨k, rfl⟩ := Nat.exists_eq_add_of_lt hlt
    rw [Nat.add_assoc, hshift hi] at hj
    exact ⟨b, exists_coveringAt?_iff.1 ⟨i, hi⟩, exists_coveringAt?_succ_iff.1 ⟨k, hj⟩⟩
  · rintro ⟨b, hb, hcycle⟩
    obtain ⟨i, hi⟩ := exists_coveringAt?_iff.2 hb
    obtain ⟨k, hk⟩ := exists_coveringAt?_succ_iff.2 hcycle
    exact ⟨i, i + (k + 1), b, by omega, hi, (hshift hi (k + 1)).trans hk⟩

theorem LeadsTo.of_links (h : g.LeadsTo a c) (hb : ReflTransGen g.CoveredBy a b) :
    g.LeadsTo b c := by
  induction hb with
  | refl => exact h
  | tail _ hlink ih => exact ih.unlink hlink

theorem holds_of_coveringAt? (hc : ∀ a b, g.CoveredBy a b → g.Holds b) (ha : g.Holds a)
    (h : g.coveringAt? a n = some b) : g.Holds b := by
  cases n with
  | zero =>
    cases h
    exact ha
  | succ n =>
    obtain ⟨c, _, hlink⟩ := coveringAt?_succ_eq_some_iff.1 h
    exact hc c b hlink

/-! ## The visited nodes -/

/-- The visited nodes, of which the last one comes first, stand at the first places along the links
from a node, and no two of them are the same. -/
structure Visits (g : Graph σ) (start : StateId) (visited : List StateId) : Prop where
  places : ∀ n < visited.length, g.coveringAt? start n = visited.reverse[n]?
  distinct : visited.Nodup

namespace Visits

theorem nil : Visits g start [] := ⟨fun _ hn => absurd hn (Nat.not_lt_zero _), List.nodup_nil⟩

/-- The walk goes on at the next place, if its node was not visited. -/
theorem cons (h : Visits g start visited) (hat : g.coveringAt? start visited.length = some id)
    (hid : id ∉ visited) : Visits g start (id :: visited) := by
  refine ⟨fun n hn => ?_, List.nodup_cons.2 ⟨hid, h.distinct⟩⟩
  rw [List.reverse_cons]
  rcases Nat.lt_succ_iff_lt_or_eq.1 hn with hlt | rfl
  · rw [List.getElem?_append_left (by rwa [List.length_reverse]), h.places n hlt]
  · rw [hat, ← List.length_reverse, List.getElem?_concat_length]

theorem exists_place (h : Visits g start visited) (ha : a ∈ visited) :
    ∃ n < visited.length, g.coveringAt? start n = some a := by
  obtain ⟨n, hn⟩ := List.mem_iff_getElem?.1 (List.mem_reverse.2 ha)
  have hlt : n < visited.length := by
    have hbound := (List.getElem?_eq_some_iff.1 hn).1
    rwa [List.length_reverse] at hbound
  exact ⟨n, hlt, (h.places n hlt).trans hn⟩

theorem length_le (h : Visits g start visited) (hc : ∀ a b, g.CoveredBy a b → g.Holds b)
    (hs : g.Holds start) : visited.length ≤ g.size := by
  refine length_le_size h.distinct fun a ha => ?_
  obtain ⟨n, _, hn⟩ := h.exists_place ha
  exact holds_of_coveringAt? hc hs hn

end Visits

/-- The walk is over when there is no next place, or its node was visited before. -/
theorem visits_of_coveringWalk {t : Trail} (h : Visits g start visited)
    (hat : g.coveringAt? start visited.length = some id)
    (hw : g.coveringWalk visited id = .ok t) :
    Visits g start t.visited ∧
      ∀ a, g.coveringAt? start t.visited.length = some a → a ∈ t.visited := by
  induction visited, id using coveringWalk.induct g with
  | case1 visited id hg hmem =>
    rw [coveringWalk_of_mem hg hmem] at hw
    cases hw
    refine ⟨h, fun a ha => ?_⟩
    cases hat.symm.trans ha
    exact hmem
  | case2 visited id hg hmem hnone =>
    have hend : g.coveredBy? id = none := (coveredBy?_eq_getElem hg).trans hnone
    rw [coveringWalk_of_none hg hmem hend] at hw
    cases hw
    refine ⟨h.cons hat hmem, fun a ha => ?_⟩
    cases hend.symm.trans ((coveringAt?_succ hat).symm.trans ha)
  | case3 visited id hg hmem next hnext ih =>
    have hlink : g.CoveredBy id next := (coveredBy?_eq_getElem hg).trans hnext
    rw [coveringWalk_of_link hmem hlink] at hw
    exact ih (h.cons hat hmem) ((coveringAt?_succ hat).trans hlink) hw
  | case4 visited id hg =>
    rw [coveringWalk, dif_neg hg] at hw
    cases hw

/-! ## The whole walk -/

/-- What the trail of a walk says of the covering links from the node where it began. -/
structure Followed (g : Graph σ) (id : StateId) (t : Trail) : Prop where
  /-- Whatever the walk may look up is a node of the graph. -/
  holds : ∀ n a, g.coveringAt? id n = some a → g.Holds a
  visits : Visits g id t.visited
  bound : t.visited.length ≤ g.size
  /-- After the visited places there is no other, or it holds one of their nodes. -/
  stops : ∀ a, g.coveringAt? id t.visited.length = some a → a ∈ t.visited
  ends_iff : t.ends = true ↔ ∃ n a, g.coveringAt? id n = some a ∧ g.coveredBy? a = none
  endless_iff : t.ends = false ↔ ∀ n, ∃ a, g.coveringAt? id n = some a
  twice_iff : t.ends = false ↔
    ∃ i j a, i < j ∧ g.coveringAt? id i = some a ∧ g.coveringAt? id j = some a
  /-- The links lead into a cycle. The node where they begin need not lie on it. -/
  cycle_iff : t.ends = false ↔
    ∃ a, ReflTransGen g.CoveredBy id a ∧ TransGen g.CoveredBy a a

/-- The walk along the covering links comes to its end, over nodes of the graph, and tells whether
the links do. -/
theorem followed_coveringEnds (hc : ∀ a b, g.CoveredBy a b → g.Holds b) (hid : g.Holds id) :
    ∃ t, g.coveringTrail id = .ok t ∧ g.coveringEnds id = .ok t.ends ∧ Followed g id t := by
  obtain ⟨t, ht⟩ : ∃ t, g.coveringTrail id = .ok t := exists_coveringWalk hc hid
  have hends : g.coveringEnds id = .ok t.ends := by rw [coveringEnds, ht]
  have hleads : t.ends = true ↔ ∃ c, g.LeadsTo id c := exists_leadsTo_of_coveringEnds hends
  have hendless : t.ends = false ↔ ∀ n, ∃ a, g.coveringAt? id n = some a := by
    rw [forall_exists_coveringAt?_iff, ← hleads, Bool.not_eq_true]
  obtain ⟨hvisits, hstops⟩ := visits_of_coveringWalk .nil rfl ht
  have htwice : t.ends = false ↔
      ∃ i j a, i < j ∧ g.coveringAt? id i = some a ∧ g.coveringAt? id j = some a := by
    constructor
    · intro hfalse
      obtain ⟨a, ha⟩ := hendless.1 hfalse t.visited.length
      obtain ⟨i, hlt, hi⟩ := hvisits.exists_place (hstops a ha)
      exact ⟨i, t.visited.length, a, hlt, hi, ha⟩
    · intro h
      obtain ⟨a, ha, hcycle⟩ := exists_twice_iff.1 h
      rw [← Bool.not_eq_true, hleads]
      rintro ⟨c, hleadsTo⟩
      exact (hleadsTo.of_links ha).not_cycle hcycle
  refine ⟨t, ht, hends, ?_⟩
  constructor
  case holds => exact fun _ _ => holds_of_coveringAt? hc hid
  case visits => exact hvisits
  case bound => exact hvisits.length_le hc hid
  case stops => exact hstops
  case ends_iff => exact hleads.trans exists_leadsTo_iff
  case endless_iff => exact hendless
  case twice_iff => exact htwice
  case cycle_iff => exact htwice.trans exists_twice_iff

/-- The last state is covered by `a`, and `a` and `b` cover each other. Its only claimed successor
is none of the graph. -/
def snared : Graph String where
  nodes := #[
    { state := "root", children := [1, 2, 3] },
    { state := "a", parents := [0], coveredBy? := some 2 },
    { state := "b", parents := [0], coveredBy? := some 1 },
    { state := "c", parents := [0], children := [9], coveredBy? := some 1 }]
  nonempty := by decide

theorem followed_coveringEnds_snared :
    (∀ a b, snared.CoveredBy a b → snared.Holds b) ∧ snared.Holds 3 ∧
      snared.coveringTrail 3 = .ok ⟨[2, 1, 3], false⟩ ∧ (∀ a, ¬ snared.CoveredBy a 3) ∧
      ∃ t, snared.coveringTrail 3 = .ok t ∧ snared.coveringEnds 3 = .ok t.ends ∧
        Followed snared 3 t := by
  have hlinks : ∀ a < snared.size, ∀ b ∈ snared.coveredBy? a, snared.Holds b ∧ b ≠ 3 := by decide
  have hc : ∀ a b, snared.CoveredBy a b → snared.Holds b :=
    fun a b h => (hlinks a (holds_of_coveredBy? h) b h).1
  have hid : snared.Holds 3 := by decide
  refine ⟨hc, hid, by decide +kernel, fun a h => ?_, followed_coveringEnds hc hid⟩
  exact (hlinks a (holds_of_coveredBy? h) 3 h).2 rfl

end Graph

end StateSpace
