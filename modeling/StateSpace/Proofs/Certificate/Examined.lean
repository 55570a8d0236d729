import StateSpace.Proofs.Certificate.Bookkeeping
import StateSpace.Proofs.Certificate.Evidence
import StateSpace.Proofs.Graph.Covering

/-!
# StateSpace.Proofs.Certificate.Examined

What a check knows of the states it has looked at.

* `Examined`: the property of the state held. If it is covered, it still waits for its covering
  state, or the link was confirmed. If it is not, its successors were confirmed, and each of them
  was admitted or is blocked.
* `Progress.Stuck`: a blocked state has a claimed predecessor that was not looked at, or one that
  never offers it for admission.
* `Settled`: all of this together; every step keeps it (`Settled.step`).

Within a visit the successors of the state are settled one by one. `Admitting` is the invariant of
that loop; it knows which successors are left.
-/

namespace StateSpace
namespace Certificate

open Std

variable {κ π σ : Type}

/-- The successor is blocked, or it was admitted from here. The root never is. -/
def Progress.Accounted (g : Graph σ) (p : Progress κ π) (e : StateId) : Prop :=
  e ∈ p.blocked ∨ e ∈ p.reached ∧ e ≠ g.root

def Progress.Stuck (g : Graph σ) (p : Progress κ π) (e : StateId) : Prop :=
  ∃ q ∈ g.parents e, ¬ p.Seen q ∨ g.coveredBy? q ≠ none ∨ e ∉ g.children q

structure Examined (env : Environment κ σ) (g : Graph σ) (p : Progress κ π) (s : StateId) :
    Prop where
  held : PropertyHeld env g p.history s
  covered : ∀ c, g.CoveredBy s c → s ∈ p.postponed ∨ s ∈ p.reached.waitlist ∨
    c ∈ p.reached ∧ (∃ t, g.LeadsTo s t) ∧ CoveringConfirmed env g p.history s c
  expanded : g.coveredBy? s = none → SuccessorsConfirmed env g p.history s ∧
    ∀ e ∈ g.children s, s ∈ g.parents e ∧ p.Accounted g e

structure Settled (env : Environment κ σ) (g : Graph σ) (p : Progress κ π) : Prop where
  books : Bookkeeping g p
  examined : ∀ s, p.Seen s → Examined env g p s
  stuck : ∀ e ∈ p.blocked, p.Stuck g e

/-! ## Growth -/

structure Grows (g : Graph σ) (p q : Progress κ π) : Prop where
  reached : ∀ s ∈ p.reached, s ∈ q.reached
  accounted : ∀ e, p.Accounted g e → q.Accounted g e
  history : p.history <:+ q.history

section Growth

variable {env : Environment κ σ} {g : Graph σ} {p q r : Progress κ π} {s e id : StateId}
  {rest : Reached StateId π}

theorem Grows.refl (p : Progress κ π) : Grows g p p :=
  ⟨fun _ hs => hs, fun _ he => he, List.suffix_refl _⟩

theorem Grows.trans (h : Grows g p q) (h' : Grows g q r) : Grows g p r :=
  ⟨fun s hs => h'.reached s (h.reached s hs), fun e he => h'.accounted e (h.accounted e he),
    h.history.trans h'.history⟩

theorem Grows.looked (hpop : p.reached.pop? = some (id, rest)) (holds : Bool) :
    Grows g p (p.looked id rest holds) where
  reached _ hs := (Reached.mem_of_pop? hpop).2 hs
  accounted _ he := he.imp_right fun hr => ⟨(Reached.mem_of_pop? hpop).2 hr.1, hr.2⟩
  history := (List.suffix_cons _ _).trans (List.suffix_cons _ _)

theorem Grows.record (p : Progress κ π) (event : Event κ) : Grows g p (p.record event) :=
  ⟨fun _ hs => hs, fun _ he => he, List.suffix_cons _ _⟩

theorem Examined.grow (h : Examined env g p s) (hg : Grows g p q)
    (hwaits : s ∈ p.postponed ∨ s ∈ p.reached.waitlist →
      s ∈ q.postponed ∨ s ∈ q.reached.waitlist) : Examined env g q s := by
  constructor
  case held => exact h.held.mono hg.history
  case covered =>
    intro c hc
    rcases h.covered c hc with hp | hw | ⟨hr, ht, hconf⟩
    · exact (hwaits (.inl hp)).imp_right .inl
    · exact (hwaits (.inr hw)).imp_right .inl
    · exact .inr (.inr ⟨hg.reached c hr, ht, hconf.mono hg.history⟩)
  case expanded =>
    intro hu
    obtain ⟨hconf, hchildren⟩ := h.expanded hu
    exact ⟨hconf.mono hg.history,
      fun e he => ⟨(hchildren e he).1, hg.accounted e (hchildren e he).2⟩⟩

theorem Examined.look (h : Examined env g p s) (hpop : p.reached.pop? = some (id, rest))
    (hne : s ≠ id) (holds : Bool) : Examined env g (p.looked id rest holds) s := by
  refine h.grow (.looked hpop holds) (Or.imp_right fun hw => ?_)
  rw [Reached.waitlist_of_pop? hpop] at hw
  exact (List.mem_cons.1 hw).resolve_left hne

theorem Progress.Stuck.of_seen (h : p.Stuck g e) (hs : ∀ s, q.Seen s → p.Seen s) :
    q.Stuck g e := by
  obtain ⟨u, hu, hcause⟩ := h
  exact ⟨u, hu, hcause.imp_left fun hn hq => hn (hs u hq)⟩

/-- Looking at a state frees only the successors it offers itself. -/
theorem Progress.Stuck.look (h : p.Stuck g e) (hpop : p.reached.pop? = some (id, rest))
    (holds : Bool) : (p.looked id rest holds).Stuck g e ∨
      g.coveredBy? id = none ∧ e ∈ g.children id := by
  obtain ⟨u, hu, hcause⟩ := h
  by_cases hstill : (p.looked id rest holds).Stuck g e
  · exact .inl hstill
  · refine .inr ?_
    have hall : (p.looked id rest holds).Seen u ∧ g.coveredBy? u = none ∧ e ∈ g.children u := by
      refine Classical.byContradiction fun hn => hstill ⟨u, hu, ?_⟩
      simpa only [not_and_or, not_not, ne_eq] using hn
    obtain ⟨hseen, hnone, hchild⟩ := hall
    have hunseen : ¬ p.Seen u := by
      rcases hcause with hn | hc | hc
      · exact hn
      · exact absurd hnone hc
      · exact absurd hchild hc
    have heq : u = id := by
      obtain ⟨hmem, heq | hfresh⟩ := (seen_looked hpop).1 hseen
      · exact heq
      · exact absurd ⟨hmem, hfresh⟩ hunseen
    exact heq ▸ ⟨hnone, hchild⟩

theorem Progress.Stuck.look_of_covered {c : StateId} (h : p.Stuck g e)
    (hpop : p.reached.pop? = some (id, rest)) (hc : g.coveredBy? id = some c) (holds : Bool) :
    (p.looked id rest holds).Stuck g e := by
  rcases h.look hpop holds with hs | ⟨hnone, _⟩
  · exact hs
  · rw [hc] at hnone
    cases hnone

end Growth

/-! ## The successors of a state -/

/-- The invariant of the loop over the successors of `id`, which began at `p` and is at `q`. -/
structure Admitting (g : Graph σ) (id : StateId) (p : Progress κ π) (left : List StateId)
    (q : Progress κ π) : Prop where
  books : Bookkeeping g q
  grows : Grows g p q
  seen : ∀ s, q.Seen s ↔ p.Seen s
  waitlist : ∀ s ∈ p.reached.waitlist, s ∈ q.reached.waitlist
  postponed : q.postponed = p.postponed
  offered : ∀ e ∈ left, e ∈ g.children id
  done : ∀ e ∈ g.children id, e ∈ left ∨ id ∈ g.parents e ∧ q.Accounted g e
  stuck : ∀ e ∈ q.blocked, q.Stuck g e ∨ e ∈ left

section Loop

variable {env : Environment κ σ} {g : Graph σ} {precision : π} {p q q' : Progress κ π}
  {id child : StateId} {left : List StateId}

/-- A successor that was admitted with the predecessors it claims is not the root. -/
theorem Bookkeeping.ne_root_of_admitted (h : Bookkeeping g p) (hparent : id ∈ g.parents child)
    (hmem : child ∈ p.reached) (hsame : p.admittedParents[child]? = some (g.parents child)) :
    child ≠ g.root := by
  intro heq
  have hnil := (h.admitted child hmem).symm.trans hsame
  rw [if_pos heq, Option.some.injEq] at hnil
  rw [← hnil] at hparent
  exact List.not_mem_nil hparent

theorem Admitting.start (h : Bookkeeping g p)
    (hstuck : ∀ e ∈ p.blocked, p.Stuck g e ∨ e ∈ g.children id) :
    Admitting g id p (g.children id) p where
  books := h
  grows := .refl p
  seen _ := Iff.rfl
  waitlist _ hs := hs
  postponed := rfl
  offered _ he := he
  done _ he := .inl he
  stuck := hstuck

namespace Admitting

theorem offered_tail (h : Admitting g id p (child :: left) q) : ∀ e ∈ left, e ∈ g.children id :=
  fun e he => h.offered e (List.mem_cons_of_mem child he)

theorem done_tail (h : Admitting g id p (child :: left) q) (hparent : id ∈ g.parents child)
    (hsettled : q'.Accounted g child) (hmono : ∀ e, q.Accounted g e → q'.Accounted g e) :
    ∀ e ∈ g.children id, e ∈ left ∨ id ∈ g.parents e ∧ q'.Accounted g e := by
  intro e he
  rcases h.done e he with hmem | ⟨hp, ha⟩
  · rcases List.mem_cons.1 hmem with rfl | hmem
    · exact .inr ⟨hparent, hsettled⟩
    · exact .inl hmem
  · exact .inr ⟨hp, hmono e ha⟩

theorem block (h : Admitting g id p (child :: left) q) (hparent : id ∈ g.parents child)
    (hlacks : q.lacksParent (g.parents child) = true)
    (hbooks : Bookkeeping g { q with blocked := q.blocked.insert child }) :
    Admitting g id p left { q with blocked := q.blocked.insert child } := by
  have hmono : ∀ e, q.Accounted g e →
      Progress.Accounted g { q with blocked := q.blocked.insert child } e :=
    fun e he => he.imp_left fun hb => StateIds.mem_insert.2 (.inr hb)
  have hchild : q.Stuck g child := by
    obtain ⟨u, hu, hunseen⟩ := lacksParent_eq_true_iff.1 hlacks
    exact ⟨u, hu, .inl hunseen⟩
  refine ⟨hbooks, ⟨h.grows.reached, fun e he => hmono e (h.grows.accounted e he),
    h.grows.history⟩, h.seen, h.waitlist, h.postponed, h.offered_tail,
    h.done_tail hparent (.inl (StateIds.mem_insert.2 (.inl rfl))) hmono, ?_⟩
  intro e he
  rcases StateIds.mem_insert.1 he with rfl | he
  · exact .inl hchild
  · rcases h.stuck e he with hstuck | hl
    · exact .inl hstuck
    · rcases List.mem_cons.1 hl with rfl | hl
      · exact .inl hchild
      · exact .inr hl

theorem keep (h : Admitting g id p (child :: left) q) (hparent : id ∈ g.parents child)
    (hmem : child ∈ q.reached) (hsame : q.admittedParents[child]? = some (g.parents child)) :
    Admitting g id p left q := by
  have hne := h.books.ne_root_of_admitted hparent hmem hsame
  refine ⟨h.books, h.grows, h.seen, h.waitlist, h.postponed, h.offered_tail,
    h.done_tail hparent (.inr ⟨hmem, hne⟩) (fun _ he => he), ?_⟩
  intro e he
  refine (h.stuck e he).imp_right fun hl => ?_
  rcases List.mem_cons.1 hl with rfl | hl
  · exact absurd ((h.books.blocked _ he).1 hmem) hne
  · exact hl

theorem discover (h : Admitting g id p (child :: left) q) (hparent : id ∈ g.parents child)
    (hnew : child ∉ q.reached)
    (hbooks : Bookkeeping g (q.admitted child precision (g.parents child))) :
    Admitting g id p left (q.admitted child precision (g.parents child)) := by
  have hne : child ≠ g.root := fun heq => hnew (heq ▸ h.books.root_mem)
  have hreached : ∀ s ∈ q.reached, s ∈ q.reached.add child precision :=
    fun s hs => Reached.mem_add.2 (.inl hs)
  have hsettled : child ∈ q.reached.add child precision := Reached.mem_add.2 (.inr rfl)
  have hwait : (q.reached.add child precision).waitlist = q.reached.waitlist ++ [child] :=
    Reached.waitlist_add_of_not_mem hnew
  have hmono : ∀ e, q.Accounted g e →
      (q.admitted child precision (g.parents child)).Accounted g e := by
    rintro e (hb | ⟨hr, her⟩)
    · by_cases heq : e = child
      · exact .inr ⟨heq ▸ hsettled, heq ▸ hne⟩
      · exact .inl (StateIds.mem_erase.2 ⟨heq, hb⟩)
    · exact .inr ⟨hreached e hr, her⟩
  refine ⟨hbooks, ⟨fun s hs => hreached s (h.grows.reached s hs),
    fun e he => hmono e (h.grows.accounted e he), h.grows.history⟩,
    fun s => (seen_admitted hnew).trans (h.seen s), ?_, h.postponed, h.offered_tail,
    h.done_tail hparent (.inr ⟨hsettled, hne⟩) hmono, ?_⟩
  · intro s hs
    show s ∈ (q.reached.add child precision).waitlist
    rw [hwait]
    exact List.mem_append_left _ (h.waitlist s hs)
  · intro e he
    obtain ⟨hec, he⟩ := StateIds.mem_erase.1 he
    refine (h.stuck e he).imp (fun hs => hs.of_seen fun s => (seen_admitted hnew).1) fun hl => ?_
    exact (List.mem_cons.1 hl).resolve_left hec

theorem step (hid : p.Seen id) (hun : g.coveredBy? id = none)
    (h : Admitting g id p (child :: left) q)
    (hm : admitChild g precision id child q = .next q') : Admitting g id p left q' := by
  have hbooks : Bookkeeping g q' :=
    h.books.admitChild_step ((h.seen id).2 hid) hun (h.offered child List.mem_cons_self) hm
  obtain ⟨hparent, hm⟩ := admitChild_next hm
  rcases hm with ⟨hlacks, rfl⟩ | ⟨-, hmem, hsame, rfl⟩ | ⟨-, hnew, rfl⟩
  · exact h.block hparent hlacks hbooks
  · exact h.keep hparent hmem hsame
  · exact h.discover hparent hnew hbooks

end Admitting

/-- The loop over the successors, up to its end or the first conflict. -/
theorem admitting_cases (h : Bookkeeping g p) (hid : p.Seen id) (hun : g.coveredBy? id = none)
    (hstuck : ∀ e ∈ p.blocked, p.Stuck g e ∨ e ∈ g.children id) :
    (∃ q, admitAll g precision id (g.children id) p = .next q ∧ Admitting g id p [] q) ∨
      ∃ child left q, Admitting g id p (child :: left) q ∧
        ∃ outcome, admitChild g precision id child q = .halt q outcome ∧
          admitAll g precision id (g.children id) p = .halt q outcome :=
  admitAll_cases (fun _ _ _ _ h hm => h.step hid hun hm) (Admitting.start h hstuck)

end Loop

/-! ## Steps -/

section Step

variable {env : Environment κ σ} {g : Graph σ} {precision : π} {p p' : Progress κ π}
  {id c : StateId} {rest : Reached StateId π} {node : Node σ} {reply : Reply κ}

namespace Settled

theorem start {reached : Reached StateId π} (hr : reached.IsFresh g.root) :
    Settled env g (.start reached g.root : Progress κ π) where
  books := .start hr
  examined s hs := by
    have hroot : s = g.root := by
      have := hs.1
      rwa [Reached.mem_iff_mem_states, Progress.start, hr.1, List.mem_singleton] at this
    exact absurd (by simp [Progress.start, hroot]) hs.2
  stuck e he := absurd he ExtTreeSet.not_mem_empty

theorem examined_look (h : Settled env g p) (hpop : p.reached.pop? = some (id, rest))
    {s : StateId} (hne : s ≠ id) (hs : (p.looked id rest true).Seen s) :
    Examined env g (p.looked id rest true) s := by
  obtain ⟨hmem, heq | hfresh⟩ := (seen_looked hpop).1 hs
  · exact absurd heq hne
  · exact (h.examined s ⟨hmem, hfresh⟩).look hpop hne true

theorem seen_self (h : Settled env g p) (hpop : p.reached.pop? = some (id, rest)) :
    (p.looked id rest true).Seen id :=
  (seen_looked hpop).2 ⟨h.books.mem_of_pop? hpop, .inl rfl⟩

theorem postpone (h : Settled env g p) (hl : Looks env g p id rest node)
    (hc : node.coveredBy? = some c) :
    Settled env g { p.looked id rest true with postponed := p.postponed.insert id } := by
  have hlink : g.coveredBy? id = some c := hl.coveredBy?_eq.trans hc
  have hseen : (p.looked id rest true).Seen id := h.seen_self hl.pop
  constructor
  case books => exact (h.books.look hl.pop true).postpone hseen hlink
  case examined =>
    intro s hs
    by_cases heq : s = id
    · subst heq
      refine ⟨hl.propertyHeld, fun d _ => .inl (StateIds.mem_insert.2 (.inl rfl)), ?_⟩
      intro hnone
      rw [hlink] at hnone
      cases hnone
    · exact (h.examined_look hl.pop heq hs).grow ⟨fun _ hs => hs, fun _ he => he,
        List.suffix_refl _⟩ (Or.imp_left fun hp => StateIds.mem_insert.2 (.inr hp))
  case stuck => exact fun e he => (h.stuck e he).look_of_covered hl.pop hlink true

theorem cover (h : Settled env g p) (ha : AsksCovering env g p id rest node c reply)
    (hr : reply.answer = .ok true) :
    Settled env g ((p.looked id rest true).record (.covering id c reply)) := by
  have hpop := ha.looks.pop
  have hlink : g.coveredBy? id = some c := ha.coveredBy?_eq
  have hgrows : Grows g (p.looked id rest true)
      ((p.looked id rest true).record (.covering id c reply)) := .record _ _
  constructor
  case books => exact (h.books.look hpop true).record _
  case examined =>
    intro s hs
    by_cases heq : s = id
    · subst heq
      refine ⟨ha.looks.propertyHeld.mono hgrows.history, ?_, ?_⟩
      · intro d hd
        rw [Graph.CoveredBy, hlink] at hd
        cases hd
        have hends : ∃ t, g.LeadsTo s t := (Graph.exists_leadsTo_of_coveringEnds ha.ends).1 rfl
        exact .inr (.inr ⟨ha.reached, hends, ha.confirmed hr⟩)
      · intro hnone
        rw [hlink] at hnone
        cases hnone
    · exact (h.examined_look hpop heq hs).grow hgrows fun hw => hw
  case stuck => exact fun e he => (h.stuck e he).look_of_covered hpop hlink true

theorem expand_cases (h : Settled env g p) (ha : AsksSuccessors env g p id rest node reply)
    {asked : Progress κ π}
    (hasked : asked = (p.looked id rest true).record (.successors id node.children reply)) :
    (∃ q, admitAll g precision id node.children asked = .next q ∧ Admitting g id asked [] q) ∨
      ∃ child left q, Admitting g id asked (child :: left) q ∧
        ∃ outcome, admitChild g precision id child q = .halt q outcome ∧
          admitAll g precision id node.children asked = .halt q outcome := by
  have hpop := ha.looks.pop
  have hun : g.coveredBy? id = none := ha.coveredBy?_eq
  subst hasked
  rw [← Graph.children_of_node? ha.looks.known]
  refine admitting_cases ((h.books.look hpop true).record _) (h.seen_self hpop) hun ?_
  intro e he
  rcases (h.stuck e he).look hpop true with hs | ⟨_, hmem⟩
  · exact .inl hs
  · exact .inr hmem

theorem expand (h : Settled env g p) (ha : AsksSuccessors env g p id rest node reply)
    (hr : reply.answer = .ok true)
    (hm : admitAll g precision id node.children
      ((p.looked id rest true).record (.successors id node.children reply)) = .next p') :
    Settled env g p' := by
  have hpop := ha.looks.pop
  have hun : g.coveredBy? id = none := ha.coveredBy?_eq
  rcases h.expand_cases ha rfl with ⟨q, hq, hloop⟩ | ⟨_, _, q, _, o, _, hq⟩
  · rw [hm] at hq
    cases hq
    have hgrows := hloop.grows
    have hrecord : Grows g (p.looked id rest true)
        ((p.looked id rest true).record (.successors id node.children reply)) := .record _ _
    refine ⟨hloop.books, ?_, fun e he => (hloop.stuck e he).resolve_right List.not_mem_nil⟩
    intro s hs
    by_cases heq : s = id
    · subst heq
      refine ⟨ha.looks.propertyHeld.mono (hrecord.trans hgrows).history, ?_, fun _ => ⟨?_, ?_⟩⟩
      · intro c hc
        rw [Graph.CoveredBy, hun] at hc
        cases hc
      · exact (ha.confirmed hr).mono hgrows.history
      · exact fun e he => (hloop.done e he).resolve_left List.not_mem_nil
    · have hbefore := h.examined_look hpop heq ((hloop.seen s).1 hs)
      refine (hbefore.grow hrecord fun hw => hw).grow hgrows ?_
      rw [hloop.postponed]
      exact Or.imp_right (hloop.waitlist s)
  · rw [hm] at hq
    cases hq

theorem again (h : Settled env g p) (hidle : p.reached.waitlist = [])
    (hm : startPass g p = .next p') : Settled env g p' := by
  obtain ⟨rfl, -⟩ := h.books.startPass_next hm
  refine ⟨h.books.requeue hidle (StateIds.nodup_toList _) fun s => ExtTreeSet.mem_toList.1, ?_,
    h.stuck⟩
  intro s hs
  refine (h.examined s hs).grow ⟨fun _ hs => hs, fun _ he => he, List.suffix_refl _⟩ ?_
  rintro (hp | hw)
  · exact .inr (List.mem_append_right _ (ExtTreeSet.mem_toList.2 hp))
  · exact .inr (List.mem_append_left _ hw)

theorem step (h : Settled env g p) (hm : step env g precision p = .next p') :
    Settled env g p' := by
  have hcases := step_cases env g precision p
  rw [hm] at hcases
  cases hcases with
  | again hpop _ hstart => exact h.again (Reached.waitlist_of_pop?_none hpop) hstart
  | postponed hl hc _ => exact h.postpone hl hc
  | covered ha hr => exact h.cover ha hr
  | expand ha hr hall => exact h.expand ha hr hall

end Settled

end Step

end Certificate
end StateSpace
