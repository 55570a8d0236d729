import StateSpace.Proofs.Certificate.Step

/-!
# StateSpace.Proofs.Certificate.Evidence

What the history of a check proves. The property and the oracle may change their mind, so a
confirmation speaks of the moment it was given at:

* `PropertyHeld`: the property of a state was asked for, and it held then;
* `SuccessorsConfirmed`: the oracle confirmed exactly the claimed successors of a state;
* `CoveringConfirmed`: the oracle confirmed a covering link.

`PropertyAnswered`, `SuccessorsAnswered` and `CoveringAnswered` say the same of any answer. Evidence
is never lost.
-/

namespace StateSpace
namespace Certificate

variable {κ π σ : Type}

def PropertyHeld (env : Environment κ σ) (g : Graph σ) (h : History κ) (s : StateId) : Prop :=
  ∃ earlier state, Event.property s true :: earlier <:+ h ∧ g.state? s = some state ∧
    env.satisfies earlier state = true

def SuccessorsConfirmed (env : Environment κ σ) (g : Graph σ) (h : History κ) (s : StateId) :
    Prop :=
  ∃ earlier state claimed reply, Event.successors s (g.children s) reply :: earlier <:+ h ∧
    g.state? s = some state ∧ g.states (g.children s) = .ok claimed ∧
    reply = (env.oracle earlier).successors state claimed ∧ reply.answer = .ok true

def CoveringConfirmed (env : Environment κ σ) (g : Graph σ) (h : History κ) (s c : StateId) :
    Prop :=
  ∃ earlier covered covering reply, Event.covering s c reply :: earlier <:+ h ∧
    g.state? s = some covered ∧ g.state? c = some covering ∧
    reply = (env.oracle earlier).covered covered covering ∧ reply.answer = .ok true

/-- The property of the state was asked for, with this answer. -/
def PropertyAnswered (env : Environment κ σ) (g : Graph σ) (h : History κ) (s : StateId)
    (holds : Bool) : Prop :=
  ∃ earlier state, Event.property s holds :: earlier <:+ h ∧ g.state? s = some state ∧
    env.satisfies earlier state = holds

/-- The oracle was asked for exactly the claimed successors of the state. -/
def SuccessorsAnswered (env : Environment κ σ) (g : Graph σ) (h : History κ) (s : StateId)
    (answer : Bool) : Prop :=
  ∃ earlier state claimed reply, Event.successors s (g.children s) reply :: earlier <:+ h ∧
    g.state? s = some state ∧ g.states (g.children s) = .ok claimed ∧
    reply = (env.oracle earlier).successors state claimed ∧ reply.answer = .ok answer

def CoveringAnswered (env : Environment κ σ) (g : Graph σ) (h : History κ) (s c : StateId)
    (answer : Bool) : Prop :=
  ∃ earlier covered covering reply, Event.covering s c reply :: earlier <:+ h ∧
    g.state? s = some covered ∧ g.state? c = some covering ∧
    reply = (env.oracle earlier).covered covered covering ∧ reply.answer = .ok answer

section Evidence

variable {env : Environment κ σ} {g : Graph σ} {h h' : History κ} {s c : StateId}

theorem PropertyHeld.mono (hs : h <:+ h') (hp : PropertyHeld env g h s) :
    PropertyHeld env g h' s := by
  obtain ⟨earlier, state, hsuffix, hrest⟩ := hp
  exact ⟨earlier, state, hsuffix.trans hs, hrest⟩

theorem SuccessorsConfirmed.mono (hs : h <:+ h') (hc : SuccessorsConfirmed env g h s) :
    SuccessorsConfirmed env g h' s := by
  obtain ⟨earlier, state, claimed, reply, hsuffix, hrest⟩ := hc
  exact ⟨earlier, state, claimed, reply, hsuffix.trans hs, hrest⟩

theorem CoveringConfirmed.mono (hs : h <:+ h') (hc : CoveringConfirmed env g h s c) :
    CoveringConfirmed env g h' s c := by
  obtain ⟨earlier, covered, covering, reply, hsuffix, hrest⟩ := hc
  exact ⟨earlier, covered, covering, reply, hsuffix.trans hs, hrest⟩

variable {p : Progress κ π} {rest : Reached StateId π} {node : Node σ} {reply : Reply κ}

theorem Looks.propertyHeld (hl : Looks env g p s rest node) :
    PropertyHeld env g (p.looked s rest true).history s :=
  ⟨_, node.state, List.suffix_refl _, Graph.state?_of_node? hl.known, hl.holds⟩

theorem AsksSuccessors.answered {answer : Bool}
    (ha : AsksSuccessors env g p s rest node reply) (hr : reply.answer = .ok answer) :
    SuccessorsAnswered env g
      ((p.looked s rest true).record (.successors s node.children reply)).history s answer := by
  obtain ⟨claimed, hclaimed, hreply⟩ := ha.replies
  have hchildren := Graph.children_of_node? ha.looks.known
  refine ⟨_, node.state, claimed, reply, ?_, Graph.state?_of_node? ha.looks.known, ?_, hreply, hr⟩
  · rw [hchildren]
    exact List.suffix_refl _
  · rw [hchildren]
    exact hclaimed

theorem AsksSuccessors.confirmed (ha : AsksSuccessors env g p s rest node reply)
    (hr : reply.answer = .ok true) :
    SuccessorsConfirmed env g
      ((p.looked s rest true).record (.successors s node.children reply)).history s :=
  ha.answered hr

theorem AsksCovering.answered {answer : Bool} (ha : AsksCovering env g p s rest node c reply)
    (hr : reply.answer = .ok answer) :
    CoveringAnswered env g
      ((p.looked s rest true).record (.covering s c reply)).history s c answer := by
  obtain ⟨other, hother, hreply⟩ := ha.replies
  exact ⟨_, node.state, other.state, reply, List.suffix_refl _,
    Graph.state?_of_node? ha.looks.known, Graph.state?_of_node? hother, hreply, hr⟩

theorem AsksCovering.confirmed (ha : AsksCovering env g p s rest node c reply)
    (hr : reply.answer = .ok true) :
    CoveringConfirmed env g
      ((p.looked s rest true).record (.covering s c reply)).history s c :=
  ha.answered hr

end Evidence

end Certificate
end StateSpace
