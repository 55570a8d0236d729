import StateSpace.Graph.Basic

/-!
# StateSpace.Graph.Covering

Following the covering links of a graph.

`Graph.coveringEnds` walks from a node to the one that covers it, from that to the one that covers
it in turn, and so on. The walk ends at a node that nothing covers, or it comes back to a node it
has visited. The visited nodes are distinct places of the graph, so the walk is finite.
-/

namespace StateSpace
namespace Graph

variable {σ : Type}

/-- The places of the graph that are not among the visited ones. -/
def unvisited (g : Graph σ) (visited : List StateId) : List StateId :=
  g.ids.filter (· ∉ visited)

theorem length_unvisited_cons_lt {g : Graph σ} {visited : List StateId} {id : StateId}
    (hg : id < g.size) (hv : id ∉ visited) :
    (g.unvisited (id :: visited)).length < (g.unvisited visited).length := by
  have hsub : (g.unvisited (id :: visited)).Sublist (g.unvisited visited) := by
    have h : g.unvisited (id :: visited) = (g.unvisited visited).filter (· ≠ id) := by
      simp only [unvisited, List.filter_filter, List.mem_cons, not_or, Bool.decide_and, ne_eq]
    rw [h]
    exact List.filter_sublist
  refine Nat.lt_of_le_of_ne hsub.length_le fun h => ?_
  have heq := hsub.eq_of_length h
  have hmem : id ∈ g.unvisited visited := by
    simp [unvisited, ids, hg, hv]
  rw [← heq] at hmem
  simp [unvisited] at hmem

structure Trail where
  /-- The visited nodes, the last one first. -/
  visited : List StateId
  /-- The last visited node is covered by nothing. -/
  ends : Bool
deriving DecidableEq, Repr

/-- Goes on walking at `id`, having visited some nodes. The walk is over at a node that nothing
covers, or when it would visit a node once more. -/
def coveringWalk (g : Graph σ) (visited : List StateId) (id : StateId) : Except Fault Trail :=
  if h : id < g.size then
    if hv : id ∈ visited then .ok ⟨visited, false⟩
    else
      match (g.nodes[id]).coveredBy? with
      | none => .ok ⟨id :: visited, true⟩
      | some next => g.coveringWalk (id :: visited) next
  else .error (.outOfBounds g.size id)
termination_by (g.unvisited visited).length
decreasing_by exact length_unvisited_cons_lt h hv

def coveringTrail (g : Graph σ) (id : StateId) : Except Fault Trail := g.coveringWalk [] id

/-- Following the covering links from a node ends at a node that nothing covers. -/
def coveringEnds (g : Graph σ) (id : StateId) : Except Fault Bool :=
  match g.coveringTrail id with
  | .error f => .error f
  | .ok t => .ok t.ends

end Graph

end StateSpace
