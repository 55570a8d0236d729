import StateSpace.Fault

/-!
# StateSpace.Graph.Basic

Reachability graphs: what an exploration claims to have found.

* `Node` — an abstract state with its claimed predecessors and successors, and the state that is
  claimed to cover it;
* `Graph` — the nodes; a node is named by its place, and the first one is the root.

The claims of different nodes need not agree with each other, and they may name places outside
the graph.
-/

namespace StateSpace

/-- A node of a graph is named by its place. -/
abbrev StateId := Nat

def StateId.text (id : StateId) : String := s!"@{id}"

structure Node (σ : Type) where
  state : σ
  parents : List StateId := []
  children : List StateId := []
  coveredBy? : Option StateId := none
deriving DecidableEq, Repr

structure Graph (σ : Type) where
  nodes : Array (Node σ)
  nonempty : 0 < nodes.size

namespace Graph

variable {σ : Type}

def size (g : Graph σ) : Nat := g.nodes.size

def root (_ : Graph σ) : StateId := 0

/-- The graph holds a node of this name. -/
def Holds (g : Graph σ) (id : StateId) : Prop := id < g.size

instance (g : Graph σ) (id : StateId) : Decidable (g.Holds id) :=
  inferInstanceAs (Decidable (id < g.size))

def ids (g : Graph σ) : List StateId := List.range g.size

def node? (g : Graph σ) (id : StateId) : Option (Node σ) := g.nodes[id]?

/-- The node of this name; a name outside the graph is a fault. -/
def node (g : Graph σ) (id : StateId) : Except Fault (Node σ) :=
  match g.node? id with
  | some n => .ok n
  | none => .error (.outOfBounds g.size id)

def state? (g : Graph σ) (id : StateId) : Option σ := (g.node? id).map (·.state)

/-- The claimed predecessors of a node, none outside the graph. -/
def parents (g : Graph σ) (id : StateId) : List StateId :=
  match g.node? id with
  | some n => n.parents
  | none => []

/-- The claimed successors of a node, none outside the graph. -/
def children (g : Graph σ) (id : StateId) : List StateId :=
  match g.node? id with
  | some n => n.children
  | none => []

/-- The node that is claimed to cover a node. -/
def coveredBy? (g : Graph σ) (id : StateId) : Option StateId :=
  (g.node? id).bind (·.coveredBy?)

/-- The states of some nodes, in the same order. -/
def states (g : Graph σ) : List StateId → Except Fault (List σ)
  | [] => .ok []
  | id :: rest =>
    match g.node id with
    | .error f => .error f
    | .ok n =>
      match g.states rest with
      | .error f => .error f
      | .ok l => .ok (n.state :: l)

end Graph

end StateSpace
