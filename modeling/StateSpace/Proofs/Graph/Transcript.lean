import StateSpace.Proofs.Discovery
import StateSpace.Proofs.Graph.SameClaims

/-!
# StateSpace.Proofs.Graph.Transcript

What a graph holds after the steps that built it.

* `Call`, `Graph.transcript`: the steps, each with the name that it handed out.
* `added`, `drawn`, `linked`: what a transcript says by itself. States are added under the names
  handed out for them, edges are asked for, and of several links from a state the last one counts.
* `Graph.Tracks`: the nodes of a graph as its transcript tells them. Every step that records both
  ends of an edge keeps this.
* `recorded_of_build`: a graph built by such steps holds what was asked for, once and under the
  names that were handed out.
-/

namespace StateSpace

structure Call (σ : Type) where
  step : BuildStep σ
  issued? : Option StateId
deriving Repr

namespace Call

variable {σ : Type}

/-- The state that a call adds, under its name. -/
def added? : Call σ → Option (StateId × σ)
  | ⟨.state s, some id⟩ => some (id, s)
  | ⟨.child _ s, some id⟩ => some (id, s)
  | _ => none

/-- The edge that a call asks for. -/
def drawn? : Call σ → Option (StateId × StateId)
  | ⟨.child parent _, some id⟩ => some (parent, id)
  | ⟨.edge parent child, _⟩ => some (parent, child)
  | _ => none

/-- The covering link that a call asks for. -/
def linked? : Call σ → Option (StateId × StateId)
  | ⟨.cover covered covering, _⟩ => some (covered, covering)
  | _ => none

end Call

namespace Graph

variable {σ : Type} {root : σ} {g g' : Graph σ} {a b : StateId} {step : BuildStep σ}
  {steps : List (BuildStep σ)}

/-- The steps before the first fault, each with the name that it handed out. -/
def transcript (g : Graph σ) : List (BuildStep σ) → List (Call σ)
  | [] => []
  | step :: rest =>
    match g.extend step with
    | .error _ => []
    | .ok g' => ⟨step, g.issued? step⟩ :: g'.transcript rest

/-! ## What a transcript says -/

/-- The states with their names, the root first. -/
def added (root : σ) (log : List (Call σ)) : List (StateId × σ) :=
  (0, root) :: log.filterMap Call.added?

def drawn (log : List (Call σ)) : List (StateId × StateId) := log.filterMap Call.drawn?

def linked (log : List (Call σ)) : List (StateId × StateId) := log.filterMap Call.linked?

/-- Where the edges from a node lead, in the order in which they were asked for. -/
def heads (edges : List (StateId × StateId)) (a : StateId) : List StateId :=
  edges.filterMap fun edge => if edge.1 = a then some edge.2 else none

/-- Where the edges to a node come from, in the order in which they were asked for. -/
def tails (edges : List (StateId × StateId)) (a : StateId) : List StateId :=
  edges.filterMap fun edge => if edge.2 = a then some edge.1 else none

/-- Where the last link from a node leads. -/
def lastLink? (links : List (StateId × StateId)) (a : StateId) : Option StateId :=
  links.reverse.lookup a

theorem filterMap_cons_eq_append {α β : Type} (f : α → Option β) (x : α) (l : List α) :
    (x :: l).filterMap f = (f x).toList ++ l.filterMap f := by
  cases h : f x <;> simp [h]

section Concat

variable {edges links : List (StateId × StateId)} {c d : StateId}

theorem heads_concat :
    heads (edges ++ [(c, d)]) a = if c = a then heads edges a ++ [d] else heads edges a := by
  by_cases hc : c = a <;> simp [heads, hc]

theorem tails_concat :
    tails (edges ++ [(c, d)]) a = if d = a then tails edges a ++ [c] else tails edges a := by
  by_cases hd : d = a <;> simp [tails, hd]

theorem lastLink?_concat :
    lastLink? (links ++ [(c, d)]) a = if c = a then some d else lastLink? links a := by
  rw [lastLink?, List.reverse_concat, List.lookup_cons]
  by_cases hc : c = a
  · simp [hc]
  · simp [hc, lastLink?, beq_eq_false_iff_ne.2 (Ne.symm hc)]

end Concat

theorem mem_heads {edges : List (StateId × StateId)} : b ∈ heads edges a ↔ (a, b) ∈ edges := by
  simp only [heads, List.mem_filterMap, Prod.exists]
  constructor
  · rintro ⟨c, d, hmem, heq⟩
    split at heq
    · cases heq
      rename_i hc
      exact hc ▸ hmem
    · cases heq
  · exact fun hmem => ⟨a, b, hmem, if_pos rfl⟩

/-! ## Lists without repetition -/

theorem insertLast_eraseDups {l : List StateId} :
    insertLast l.eraseDups b = (l ++ [b]).eraseDups := by
  rw [insertLast, Reached.eraseDups_concat]
  simp only [List.mem_eraseDups]

theorem nodup_eraseDups (l : List StateId) : l.eraseDups.Nodup := by
  induction l using List.reverseRecOn with
  | nil => exact List.nodup_nil
  | append_singleton l b ih =>
    rw [← insertLast_eraseDups]
    exact nodup_insertLast ih

/-! ## The graph after a step -/

section Changes

variable {change : Node σ → Node σ} {parent child covered covering : StateId} {state : σ}

theorem ids_update : (g.update a change).ids = g.ids := by simp [ids, size, update]

theorem state?_update (h : ∀ n, (change n).state = n.state) :
    (g.update b change).state? a = g.state? a := by
  by_cases ha : b = a <;> cases hn : g.node? a <;> simp [state?, node?_update, ha, hn, h]

/-- A graph that differs from another one in an edge that was asked for. -/
structure Drawn (parent child : StateId) (g g' : Graph σ) : Prop where
  ids : g'.ids = g.ids
  state? : ∀ a, g'.state? a = g.state? a
  children : ∀ a, g'.children a =
    if parent = a then insertLast (g.children a) child else g.children a
  parents : ∀ a, g'.parents a =
    if child = a then insertLast (g.parents a) parent else g.parents a
  coveredBy? : ∀ a, g'.coveredBy? a = g.coveredBy? a

/-- A graph that differs from another one in a covering link that was asked for. -/
structure Linked (covered covering : StateId) (g g' : Graph σ) : Prop where
  ids : g'.ids = g.ids
  state? : ∀ a, g'.state? a = g.state? a
  children : ∀ a, g'.children a = g.children a
  parents : ∀ a, g'.parents a = g.parents a
  coveredBy? : ∀ a, g'.coveredBy? a = if covered = a then some covering else g.coveredBy? a

theorem drawn_of_addEdge (he : g.addEdge parent child = .ok g') : Drawn parent child g g' := by
  unfold addEdge at he
  split at he
  · cases he
  · rename_i hparent
    split at he
    · cases he
    · rename_i hchild
      rw [Decidable.not_not] at hparent hchild
      obtain ⟨n, hn⟩ := exists_node? hparent
      obtain ⟨m, hm⟩ := exists_node? hchild
      cases he
      constructor
      case ids => rw [ids_update, ids_update]
      case state? =>
        intro a
        simp only [state?_update, implies_true]
      case children =>
        intro a
        simp only [children_update, implies_true]
        by_cases ha : parent = a
        · subst ha
          simp [Graph.children, node?_update, hn]
        · simp [Graph.children, node?_update, ha]
      case parents =>
        intro a
        by_cases ha : child = a
        · subst ha
          by_cases hp : parent = child <;> simp [Graph.parents, node?_update, hp, hm]
        · by_cases hp : parent = a <;> cases ho : g.node? a <;>
            simp [Graph.parents, node?_update, ha, hp, ho]
      case coveredBy? =>
        intro a
        simp only [coveredBy?_update, implies_true]

theorem linked_of_cover (hc : g.cover covered covering = .ok g') :
    Linked covered covering g g' := by
  unfold cover at hc
  split at hc
  · cases hc
  · rename_i hcovered
    split at hc
    · cases hc
    · rw [Decidable.not_not] at hcovered
      obtain ⟨n, hn⟩ := exists_node? hcovered
      cases hc
      constructor
      case ids => exact ids_update
      case state? => exact fun a => state?_update fun _ => rfl
      case children => exact fun a => children_update fun _ => rfl
      case parents => exact fun a => parents_update fun _ => rfl
      case coveredBy? =>
        intro a
        by_cases ha : covered = a
        · subst ha
          simp [Graph.coveredBy?, node?_update, hn]
        · simp [Graph.coveredBy?, node?_update, ha]

theorem ids_addState : (g.addState state).ids = g.ids ++ [g.size] := by
  rw [ids, size, addState, Array.size_push, List.range_succ]
  rfl

theorem state?_addState :
    (g.addState state).state? a = if a = g.size then some state else g.state? a := by
  by_cases ha : a = g.size <;> simp [state?, node?_addState, ha]

theorem children_addState : (g.addState state).children a = g.children a := by
  by_cases ha : a = g.size <;> simp [children, node?_addState, ha, node?_size]

theorem parents_addState : (g.addState state).parents a = g.parents a := by
  by_cases ha : a = g.size <;> simp [parents, node?_addState, ha, node?_size]

theorem coveredBy?_addState : (g.addState state).coveredBy? a = g.coveredBy? a := by
  by_cases ha : a = g.size <;> simp [coveredBy?, node?_addState, ha, node?_size]

end Changes

/-! ## The graph after a transcript -/

/-- The graph holds these states under these names, and of the edges and links that were asked for
each edge once and of each node the last link. -/
structure Tracks (named : List (StateId × σ)) (edges links : List (StateId × StateId))
    (g : Graph σ) : Prop where
  ids : g.ids = named.map Prod.fst
  state? : ∀ a s, g.state? a = some s ↔ (a, s) ∈ named
  children : ∀ a, g.children a = (heads edges a).eraseDups
  parents : ∀ a, g.parents a = (tails edges a).eraseDups
  coveredBy? : ∀ a, g.coveredBy? a = lastLink? links a

namespace Tracks

variable {named : List (StateId × σ)} {edges links : List (StateId × StateId)}
  {parent child covered covering : StateId}

theorem start (root : σ) : Tracks (added root []) [] [] (start root) := by
  constructor
  case ids => rfl
  case state? =>
    intro a s
    cases a with
    | zero => simp [Graph.state?, node?, Graph.start, added, eq_comm]
    | succ a => simp [Graph.state?, node?, Graph.start, added]
  case children | parents | coveredBy? =>
    intro a
    cases a <;> rfl

theorem addState (h : Tracks named edges links g) (state : σ) :
    Tracks (named ++ [(g.size, state)]) edges links (g.addState state) := by
  constructor
  case ids => rw [ids_addState, h.ids, List.map_append, List.map_singleton]
  case state? =>
    intro a s
    rw [state?_addState, List.mem_append, ← h.state?]
    by_cases ha : a = g.size
    · simp [ha, Graph.state?, node?_size, eq_comm]
    · simp [ha]
  case children => exact fun a => children_addState.trans (h.children a)
  case parents => exact fun a => parents_addState.trans (h.parents a)
  case coveredBy? => exact fun a => coveredBy?_addState.trans (h.coveredBy? a)

theorem draw (h : Tracks named edges links g) (hd : Drawn parent child g g') :
    Tracks named (edges ++ [(parent, child)]) links g' := by
  constructor
  case ids => exact hd.ids.trans h.ids
  case state? =>
    intro a s
    rw [hd.state?]
    exact h.state? a s
  case children =>
    intro a
    rw [hd.children, h.children, heads_concat]
    by_cases ha : parent = a <;> simp [ha, insertLast_eraseDups]
  case parents =>
    intro a
    rw [hd.parents, h.parents, tails_concat]
    by_cases ha : child = a <;> simp [ha, insertLast_eraseDups]
  case coveredBy? => exact fun a => (hd.coveredBy? a).trans (h.coveredBy? a)

theorem link (h : Tracks named edges links g) (hl : Linked covered covering g g') :
    Tracks named edges (links ++ [(covered, covering)]) g' := by
  constructor
  case ids => exact hl.ids.trans h.ids
  case state? =>
    intro a s
    rw [hl.state?]
    exact h.state? a s
  case children => exact fun a => (hl.children a).trans (h.children a)
  case parents => exact fun a => (hl.parents a).trans (h.parents a)
  case coveredBy? =>
    intro a
    rw [hl.coveredBy?, h.coveredBy?, lastLink?_concat]

/-- A step leaves the graph as a call to it tells. -/
theorem extend (h : Tracks named edges links g) (hstep : step.isPaired)
    (he : g.extend step = .ok g') :
    Tracks (named ++ (Call.added? ⟨step, g.issued? step⟩).toList)
      (edges ++ (Call.drawn? ⟨step, g.issued? step⟩).toList)
      (links ++ (Call.linked? ⟨step, g.issued? step⟩).toList) g' := by
  cases step with
  | state state =>
    cases he
    simpa [issued?, BuildStep.addsNode, Call.added?, Call.drawn?, Call.linked?]
      using h.addState state
  | child parent state =>
    simpa [issued?, BuildStep.addsNode, Call.added?, Call.drawn?, Call.linked?]
      using (h.addState state).draw (drawn_of_addEdge he)
  | edge parent child =>
    simpa [Call.added?, Call.drawn?, Call.linked?] using h.draw (drawn_of_addEdge he)
  | childOnly parent child => cases hstep
  | parentOnly child parent => cases hstep
  | cover covered covering =>
    simpa [Call.added?, Call.drawn?, Call.linked?] using h.link (linked_of_cover he)

theorem extendAll (h : Tracks named edges links g) (hsteps : ∀ step ∈ steps, step.isPaired)
    (he : g.extendAll steps = .ok g') :
    Tracks (named ++ (g.transcript steps).filterMap Call.added?)
      (edges ++ drawn (g.transcript steps)) (links ++ linked (g.transcript steps)) g' := by
  induction steps generalizing g named edges links with
  | nil =>
    cases he
    simpa [transcript, drawn, linked] using h
  | cons step rest ih =>
    rw [Graph.extendAll] at he
    split at he
    · cases he
    · rename_i next hnext
      have hnow := h.extend (hsteps step List.mem_cons_self) hnext
      have hrest := ih hnow (fun s hs => hsteps s (List.mem_cons_of_mem step hs)) he
      simpa [transcript, hnext, drawn, linked, filterMap_cons_eq_append] using hrest

end Tracks

theorem tracks_of_build (hsteps : ∀ step ∈ steps, step.isPaired) (hb : build root steps = .ok g) :
    Tracks (added root ((start root).transcript steps)) (drawn ((start root).transcript steps))
      (linked ((start root).transcript steps)) g :=
  (Tracks.start root).extendAll hsteps hb

/-! ## What is recorded -/

structure Recorded (root : σ) (log : List (Call σ)) (g : Graph σ) : Prop where
  state?_root : g.state? g.root = some root
  /-- The nodes are those that were added, in the order in which their names were handed out. -/
  ids : g.ids = (added root log).map Prod.fst
  nodup_ids : ((added root log).map Prod.fst).Nodup
  state? : ∀ a s, g.state? a = some s ↔ (a, s) ∈ added root log
  holds_parents : ∀ a, ∀ b ∈ g.parents a, g.Holds b
  holds_children : ∀ a, ∀ b ∈ g.children a, g.Holds b
  holds_coveredBy? : ∀ a, ∀ b ∈ g.coveredBy? a, g.Holds b
  symm : ∀ a b, a ∈ g.parents b ↔ b ∈ g.children a
  nodup_parents : ∀ a, (g.parents a).Nodup
  nodup_children : ∀ a, (g.children a).Nodup
  /-- There are just the edges that were asked for. -/
  mem_children : ∀ a b, b ∈ g.children a ↔ (a, b) ∈ drawn log
  /-- The edges at a node are listed in the order in which they were first asked for. -/
  children : ∀ a, g.children a = (heads (drawn log) a).eraseDups
  parents : ∀ a, g.parents a = (tails (drawn log) a).eraseDups
  coveredBy? : ∀ a, g.coveredBy? a = lastLink? (linked log) a

theorem recorded_of_build (hsteps : ∀ step ∈ steps, step.isPaired)
    (hb : build root steps = .ok g) : Recorded root ((start root).transcript steps) g := by
  have ht := tracks_of_build hsteps hb
  have hp := paired_of_build hsteps hb
  constructor
  case state?_root => exact (ht.state? 0 root).2 List.mem_cons_self
  case ids => exact ht.ids
  case nodup_ids =>
    rw [← ht.ids]
    exact List.nodup_range
  case state? => exact ht.state?
  case holds_parents => exact fun a b hb => holds_of_mem_children ((hp.symm b a).1 hb)
  case holds_children => exact hp.inRange.children
  case holds_coveredBy? => exact hp.inRange.covering
  case symm => exact hp.symm
  case nodup_parents =>
    intro a
    rw [ht.parents]
    exact nodup_eraseDups _
  case nodup_children =>
    intro a
    rw [ht.children]
    exact nodup_eraseDups _
  case mem_children =>
    intro a b
    rw [ht.children, List.mem_eraseDups, mem_heads]
  case children => exact ht.children
  case parents => exact ht.parents
  case coveredBy? => exact ht.coveredBy?

/-- A merge point with a loop, which is asked for once too often and covered twice. -/
def knotting : List (BuildStep String) :=
  [.child 0 "l", .child 0 "r", .child 1 "m", .edge 2 3, .edge 1 3, .edge 3 3, .state "lone",
    .cover 3 4, .cover 3 2]

def knotted : Graph String where
  nodes := #[
    { state := "root", children := [1, 2] },
    { state := "l", parents := [0], children := [3] },
    { state := "r", parents := [0], children := [3] },
    { state := "m", parents := [1, 2, 3], children := [3], coveredBy? := some 2 },
    { state := "lone" }]
  nonempty := by decide

theorem recorded_of_build_knotted :
    (∀ step ∈ knotting, step.isPaired) ∧ build "root" knotting = .ok knotted ∧
      Recorded "root" ((start "root").transcript knotting) knotted := by
  have hpaired : ∀ step ∈ knotting, step.isPaired := by decide
  have hbuild : build "root" knotting = .ok knotted := rfl
  exact ⟨hpaired, hbuild, recorded_of_build hpaired hbuild⟩

end Graph
end StateSpace
