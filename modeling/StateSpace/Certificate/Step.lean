import StateSpace.Certificate.Progress
import StateSpace.Graph.Covering

/-!
# StateSpace.Certificate.Step

One step of a check.

* `Move` — a step leads on, or it ends the check;
* `admitAll` — looks at the claimed successors of a state one by one. A successor is admitted once
  all of its claimed predecessors were looked at;
* `visit` — looks at one state: its property, then its covering if it is covered, else its
  successors;
* `startPass` — makes the postponed states wait again;
* `step` — visits the next waiting state. When none waits, it starts another pass for the
  postponed states, and without such states the check ends.
-/

namespace StateSpace
namespace Certificate

/-- How a check ends: with a verdict or an error of its own, or by a broken rule. -/
abbrev Outcome := Except (Failure Error) Verdict

inductive Move (κ π : Type) where
  | next (p : Progress κ π)
  | halt (p : Progress κ π) (outcome : Outcome)

variable {κ π σ : Type}

namespace Move

def reject (p : Progress κ π) (v : Violation) : Move κ π := .halt p (.ok (.invalid v))

def fault (p : Progress κ π) (f : Fault) : Move κ π := .halt p (.error (.fault f))

/-- Goes on with the answer of an oracle; a failure of the oracle ends the check. -/
def ofReply (p : Progress κ π) (reply : Reply κ) (next : Bool → Move κ π) : Move κ π :=
  match reply.answer with
  | .error e => .halt p (.error (e.mapError Error.ofAnalysis))
  | .ok answer => next answer

end Move

/-- Some claimed predecessor was not admitted, or was not looked at. -/
def Progress.lacksParent (p : Progress κ π) (parents : List StateId) : Bool :=
  parents.any fun q => q ∉ p.reached || q ∈ p.fresh

def admitChild (g : Graph σ) (precision : π) (id child : StateId) (p : Progress κ π) : Move κ π :=
  if id ∉ g.parents child then .reject p (.parentsConflict child)
  else if p.lacksParent (g.parents child) then
    .next { p with blocked := p.blocked.insert child }
  else if child ∈ p.reached then
    if p.admittedParents[child]? = some (g.parents child) then .next p
    else .reject p (.parentsConflict child)
  else
    .next { p with
      blocked := p.blocked.erase child
      reached := p.reached.add child precision
      fresh := p.fresh.insert child
      admittedParents := p.admittedParents.insert child (g.parents child) }

def admitAll (g : Graph σ) (precision : π) (id : StateId) :
    List StateId → Progress κ π → Move κ π
  | [], p => .next p
  | child :: rest, p =>
    match admitChild g precision id child p with
    | .next p' => admitAll g precision id rest p'
    | .halt p' outcome => .halt p' outcome

/-- Looks at a state that is claimed to be covered. It is postponed if the covering state was not
reached yet. -/
def visitCovered (env : Environment κ σ) (g : Graph σ) (id covering : StateId) (state : σ)
    (p : Progress κ π) : Move κ π :=
  if covering ∉ p.reached then .next { p with postponed := p.postponed.insert id }
  else
    match g.coveringEnds id with
    | .error f => .fault p f
    | .ok false => .reject p (.coveringCycle id)
    | .ok true =>
      match g.node covering with
      | .error f => .fault p f
      | .ok node =>
        let reply := (env.oracle p.history).covered state node.state
        let asked := p.record (.covering id covering reply)
        .ofReply asked reply fun answer =>
          if answer then .next asked else .reject asked (.notCovered id covering)

/-- Looks at a state that must have the successors it claims. -/
def visitUncovered (env : Environment κ σ) (g : Graph σ) (precision : π) (id : StateId)
    (node : Node σ) (p : Progress κ π) : Move κ π :=
  match g.states node.children with
  | .error f => .fault p f
  | .ok claimed =>
    let reply := (env.oracle p.history).successors node.state claimed
    let asked := p.record (.successors id node.children reply)
    .ofReply asked reply fun answer =>
      if answer then admitAll g precision id node.children asked
      else .reject asked (.successorsDiffer id)

def visit (env : Environment κ σ) (g : Graph σ) (precision : π) (id : StateId)
    (p : Progress κ π) : Move κ π :=
  match env.stop? p.history with
  | some reason => .halt p (.error (.error (.interrupted ⟨reason⟩)))
  | none =>
    let counted := { p with
      iterations := p.iterations + 1
      fresh := p.fresh.erase id }
    match g.node id with
    | .error f => .fault counted f
    | .ok node =>
      let holds := env.satisfies p.history node.state
      let asked := counted.record (.property id holds)
      if !holds then .reject asked (.propertyViolated id)
      else
        match node.coveredBy? with
        | some covering => visitCovered env g id covering node.state asked
        | none => visitUncovered env g precision id node asked

/-- Makes postponed states wait again. Nothing more will be reached, so a covering state that was
not reached is missing for good. -/
def requeueAll (g : Graph σ) : List StateId → Progress κ π → Move κ π
  | [], p => .next p
  | id :: rest, p =>
    match g.coveredBy? id with
    | none => requeueAll g rest p
    | some covering =>
      if covering ∈ p.reached then
        requeueAll g rest { p with reached := p.reached.requeue id }
      else .reject p (.coveringMissing id covering)

def startPass (g : Graph σ) (p : Progress κ π) : Move κ π :=
  requeueAll g p.postponed.toList { p with passes := p.passes + 1, postponed := ∅ }

def Progress.verdict (p : Progress κ π) : Verdict :=
  if p.blocked.isEmpty then .valid else .invalid (.parentsUnexplored p.blocked.toList)

def step (env : Environment κ σ) (g : Graph σ) (precision : π) (p : Progress κ π) : Move κ π :=
  match p.reached.pop? with
  | some (id, rest) =>
    visit env g precision id ({ p with reached := rest }.record (.taken id))
  | none => if p.postponed.isEmpty then .halt p (.ok p.verdict) else startPass g p

end Certificate
end StateSpace
