import StateSpace.Graph.Basic

/-!
# StateSpace.Graph.Build

Building a graph step by step.

* `Graph.start` — a graph of one node, its root;
* `Graph.addState`, `Graph.addEdge`, `Graph.addChild`, `Graph.cover` — steps that keep both ends
  of an edge in agreement;
* `Graph.addChildOnly`, `Graph.addParentOnly` — steps that record one end only;
* `BuildStep`, `Graph.extend`, `Graph.build` — the same steps as data;
* `Graph.issued?` — the name that a step hands out.

A new node is named by the size of the graph before.
-/

namespace StateSpace
namespace Graph

variable {σ : Type}

def start (root : σ) : Graph σ := ⟨#[{ state := root }], Nat.zero_lt_one⟩

/-- Changes one node; a name outside the graph changes nothing. -/
def update (g : Graph σ) (id : StateId) (change : Node σ → Node σ) : Graph σ :=
  ⟨g.nodes.modify id change, by rw [Array.size_modify]; exact g.nonempty⟩

def addState (g : Graph σ) (state : σ) : Graph σ :=
  ⟨g.nodes.push { state }, by rw [Array.size_push]; exact Nat.zero_lt_succ _⟩

/-- The list with `id` at its end, unless it holds `id` already. -/
def insertLast (l : List StateId) (id : StateId) : List StateId :=
  if id ∈ l then l else l ++ [id]

/-- Adds an edge between two nodes. An edge that is there already stays single. -/
def addEdge (g : Graph σ) (parent child : StateId) : Except Fault (Graph σ) :=
  if ¬ g.Holds parent then .error (.unknownParent parent)
  else if ¬ g.Holds child then .error (.unknownChild child)
  else
    let linked := g.update parent fun n => { n with children := insertLast n.children child }
    .ok (linked.update child fun n => { n with parents := insertLast n.parents parent })

/-- Adds a node and an edge to it. The node is there before the edge is drawn, so that it may be
named as its own parent. -/
def addChild (g : Graph σ) (parent : StateId) (state : σ) : Except Fault (Graph σ) :=
  (g.addState state).addEdge parent g.size

/-- Records a successor at one end of the edge only. -/
def addChildOnly (g : Graph σ) (parent child : StateId) : Except Fault (Graph σ) :=
  if g.Holds parent then
    .ok (g.update parent fun n => { n with children := n.children ++ [child] })
  else .error (.outOfBounds g.size parent)

/-- Records a predecessor at one end of the edge only. -/
def addParentOnly (g : Graph σ) (child parent : StateId) : Except Fault (Graph σ) :=
  if g.Holds child then
    .ok (g.update child fun n => { n with parents := n.parents ++ [parent] })
  else .error (.outOfBounds g.size child)

/-- Claims that `covering` covers `covered`, in place of any earlier claim. -/
def cover (g : Graph σ) (covered covering : StateId) : Except Fault (Graph σ) :=
  if ¬ g.Holds covered then .error (.unknownState covered)
  else if ¬ g.Holds covering then .error (.unknownState covering)
  else .ok (g.update covered fun n => { n with coveredBy? := some covering })

end Graph

inductive BuildStep (σ : Type) where
  | state (state : σ)
  | child (parent : StateId) (state : σ)
  | edge (parent child : StateId)
  | childOnly (parent child : StateId)
  | parentOnly (child parent : StateId)
  | cover (covered covering : StateId)
deriving Repr

namespace BuildStep

def addsNode {σ : Type} : BuildStep σ → Bool
  | .state _ => true
  | .child _ _ => true
  | _ => false

end BuildStep

namespace Graph

variable {σ : Type}

/-- The name of the node that a step adds. Steps that add none hand out no name. -/
def issued? (g : Graph σ) (step : BuildStep σ) : Option StateId :=
  if step.addsNode then some g.size else none

def extend (g : Graph σ) : BuildStep σ → Except Fault (Graph σ)
  | .state s => .ok (g.addState s)
  | .child parent s => g.addChild parent s
  | .edge parent child => g.addEdge parent child
  | .childOnly parent child => g.addChildOnly parent child
  | .parentOnly child parent => g.addParentOnly child parent
  | .cover covered covering => g.cover covered covering

/-- Takes several steps, up to the first fault. -/
def extendAll (g : Graph σ) : List (BuildStep σ) → Except Fault (Graph σ)
  | [] => .ok g
  | step :: rest =>
    match g.extend step with
    | .error f => .error f
    | .ok g' => g'.extendAll rest

def build (root : σ) (steps : List (BuildStep σ)) : Except Fault (Graph σ) :=
  (start root).extendAll steps

end Graph

end StateSpace
