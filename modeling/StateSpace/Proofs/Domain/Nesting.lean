import Mathlib.Logic.Function.Iterate
import StateSpace.Proofs.Domain.Composite

/-!
# StateSpace.Proofs.Domain.Nesting

Composites of composites.

* `Nest`, `DomainTree`: states and domains that are composed over and over, to the same depth
  everywhere; each domain may stand in boxes.
* `Shaped`, `leaves`, `flatten`: states of the shape of a domain, and what is at the leaves.
* `below_eq_all`: states of the right shape are compared by asking the leaves, each about its own
  component, from the left. So a domain and the flat composite of its leaves ask and answer the same
  (`below_eq_composite`).
* `shaped_of_below`: states of another shape never lie below each other.
-/

namespace StateSpace

/-- A value in some boxes. -/
structure Boxed (α : Type) where
  boxes : Nat
  content : α

/-- States that are composed `n` times over. -/
@[reducible] def Nest (σ : Type) : Nat → Type
  | 0 => σ
  | n + 1 => Composite (Nest σ n)

/-- Domains that are composed `n` times over. -/
@[reducible] def DomainTree (κ σ : Type) : Nat → Type
  | 0 => Boxed (Domain κ σ)
  | n + 1 => Boxed (List (DomainTree κ σ n))

def Nest.flatten {σ : Type} : {n : Nat} → Nest σ n → List σ
  | 0, s => [s]
  | _ + 1, s => s.components.flatMap flatten

namespace DomainTree

variable {κ σ : Type}

def domain : {n : Nat} → DomainTree κ σ n → Domain κ (Nest σ n)
  | 0, t => Domain.boxed^[t.boxes] t.content
  | _ + 1, t => Domain.boxed^[t.boxes] (.composite (t.content.map domain))

/-- The domains at the bottom, from the left. -/
def leaves : {n : Nat} → DomainTree κ σ n → List (Domain κ σ)
  | 0, t => [t.content]
  | _ + 1, t => t.content.flatMap leaves

/-- The state has a component for each member, all the way down. -/
def Shaped : {n : Nat} → DomainTree κ σ n → Nest σ n → Prop
  | 0, _, _ => True
  | _ + 1, t, s => List.Forall₂ Shaped t.content s.components

/-- The leaves with the components they are asked about, from the left. -/
def comparisons {n : Nat} (t : DomainTree κ σ n) (a b : Nest σ n) :
    List (Domain κ σ × σ × σ) :=
  t.leaves.zip (a.flatten.zip b.flatten)

variable {n : Nat} {t : DomainTree κ σ n} {a b : Nest σ n}

theorem boxed_iterate (d : Domain κ σ) (k : Nat) : Domain.boxed^[k] d = d :=
  Function.iterate_fixed rfl k

theorem domain_succ (t : DomainTree κ σ (n + 1)) :
    t.domain = .composite (t.content.map domain) :=
  boxed_iterate _ _

/-! ## From the members to the whole

What holds of each member and its component holds of all members and their components. -/

section Members

variable {ts : List (DomainTree κ σ n)} {as bs : List (Nest σ n)}

theorem length_flatMap_flatten
    (hmember : ∀ (t : DomainTree κ σ n) (a : Nest σ n), t.Shaped a →
      a.flatten.length = t.leaves.length)
    (h : List.Forall₂ Shaped ts as) :
    (as.flatMap Nest.flatten).length = (ts.flatMap leaves).length := by
  induction h with
  | nil => rfl
  | cons hhead _ ih => simp [hmember _ _ hhead, ih]

theorem Shaped.length_flatten (h : t.Shaped a) : a.flatten.length = t.leaves.length := by
  induction n with
  | zero => rfl
  | succ n ih => exact length_flatMap_flatten (fun _ _ => ih) h

/-- The leaves of the first member come first, and they are as many as its component has parts. -/
theorem pointwise_eq_all_flatMap
    (hmember : ∀ (t : DomainTree κ σ n) (a b : Nest σ n), t.Shaped a → t.Shaped b →
      t.domain.below a b = .all Domain.compare (t.comparisons a b))
    (has : List.Forall₂ Shaped ts as) (hbs : List.Forall₂ Shaped ts bs) :
    Domain.pointwise (ts.map domain) as bs = .all Domain.compare ((ts.flatMap leaves).zip
      ((as.flatMap Nest.flatten).zip (bs.flatMap Nest.flatten))) := by
  induction has generalizing bs with
  | nil => rfl
  | cons ha _ ih =>
    cases hbs with
    | cons hb hbs =>
      have hlen := ha.length_flatten
      have hlen' := hb.length_flatten
      rw [List.map_cons, Domain.pointwise, hmember _ _ _ ha hb, ih hbs, comparisons,
        ← Asked.all_append, ← List.zip_append (by simp [hlen, hlen']),
        ← List.zip_append (hlen.trans hlen'.symm)]
      rfl

theorem forall₂_shaped_of_pointwise
    (hmember : ∀ (t : DomainTree κ σ n) (a b : Nest σ n), t.domain.Below a b →
      t.Shaped a ∧ t.Shaped b)
    (has : as.length = ts.length) (hbs : bs.length = ts.length)
    (h : (Domain.pointwise (ts.map domain) as bs).answer = .ok true) :
    List.Forall₂ Shaped ts as ∧ List.Forall₂ Shaped ts bs := by
  induction ts generalizing as bs with
  | nil =>
    cases List.eq_nil_of_length_eq_zero has
    cases List.eq_nil_of_length_eq_zero hbs
    exact ⟨.nil, .nil⟩
  | cons t rest ih =>
    obtain ⟨a, as, rfl⟩ := List.exists_cons_of_length_eq_add_one has
    obtain ⟨b, bs, rfl⟩ := List.exists_cons_of_length_eq_add_one hbs
    obtain ⟨hhead, htail⟩ := Asked.both_eq_true_iff.1 h
    obtain ⟨ha, hb⟩ := hmember t a b hhead
    obtain ⟨has, hbs⟩ := ih (Nat.succ.inj has) (Nat.succ.inj hbs) htail
    exact ⟨.cons ha has, .cons hb hbs⟩

end Members

/-! ## Trees and their leaves -/

theorem Shaped.arity {t : DomainTree κ σ (n + 1)} {a : Nest σ (n + 1)} (h : t.Shaped a) :
    a.arity = (t.content.map domain).length := by
  rw [List.length_map]
  exact (List.Forall₂.length_eq h).symm

/-- By induction on the depth, and for each depth along the members. -/
theorem below_eq_all (ha : t.Shaped a) (hb : t.Shaped b) :
    t.domain.below a b = .all Domain.compare (t.comparisons a b) := by
  induction n with
  | zero =>
    rw [domain, boxed_iterate]
    exact Asked.all_singleton.symm
  | succ n ih =>
    rw [domain_succ, Domain.below_composite_of_arity ha.arity hb.arity, ← Domain.pointwise_eq_all]
    exact pointwise_eq_all_flatMap (fun _ _ _ => ih) ha hb

theorem below_eq_composite (ha : t.Shaped a) (hb : t.Shaped b) :
    t.domain.below a b = (Domain.composite t.leaves).below ⟨a.flatten⟩ ⟨b.flatten⟩ := by
  rw [below_eq_all ha hb, comparisons,
    Domain.below_composite_of_arity ha.length_flatten hb.length_flatten]

/-- Where all answers are yes, every composite was compared, and is one of the right arity. -/
theorem shaped_of_below (h : t.domain.Below a b) : t.Shaped a ∧ t.Shaped b := by
  induction n with
  | zero => exact ⟨trivial, trivial⟩
  | succ n ih =>
    rw [domain_succ] at h
    by_cases hfit : a.arity = (t.content.map domain).length ∧
        b.arity = (t.content.map domain).length
    · rw [Domain.Below, Domain.below_composite_of_arity hfit.1 hfit.2,
        ← Domain.pointwise_eq_all] at h
      rw [List.length_map] at hfit
      exact forall₂_shaped_of_pointwise (fun _ _ _ => ih) hfit.1 hfit.2 h
    · rw [Domain.Below, Domain.below_composite_of_misfit (by omega)] at h
      cases h

/-! ## What is asked -/

/-- The leaves that are asked: those up to and with the first that does not say yes. -/
def asked (t : DomainTree κ σ n) (a b : Nest σ n) : List (Domain κ σ × σ × σ) :=
  (t.comparisons a b).take
    (((t.comparisons a b).findIdx fun x => !(Domain.compare x).isYes) + 1)

/-- A list of parts that ask one question each, named by their places. -/
theorem flatMap_eq_map_range {α β : Type} {l : List α} {f : α → List β} {name : Nat → β}
    (h : ∀ i x, l[i]? = some x → f x = [name i]) :
    l.flatMap f = (List.range l.length).map name := by
  induction l generalizing name with
  | nil => rfl
  | cons x rest ih =>
    have hrest : rest.flatMap f = (List.range rest.length).map (name ∘ Nat.succ) :=
      ih fun i y hy => h (i + 1) y hy
    rw [List.flatMap_cons, h 0 x rfl, hrest, List.length_cons, List.range_succ_eq_map,
      List.map_cons, List.map_map]
    rfl

structure Flattened (t : DomainTree κ σ n) (a b : Nest σ n) : Prop where
  length_left : a.flatten.length = t.leaves.length
  length_right : b.flatten.length = t.leaves.length
  below_iff : t.domain.Below a b ↔ ∀ x ∈ t.comparisons a b, x.1.Below x.2.1 x.2.2
  /-- The first leaf that does not say yes decides. -/
  answer : (t.domain.below a b).answer =
    ((t.comparisons a b).find? fun x => !(Domain.compare x).isYes).elim (.ok true)
      fun x => (Domain.compare x).answer
  questions : (t.domain.below a b).questions =
    (t.asked a b).flatMap fun x => (Domain.compare x).questions
  /-- Where each leaf asks one question of its own, they are asked once and from the left. -/
  questions_of_named : ∀ name : Nat → κ,
    (∀ i x, (t.comparisons a b)[i]? = some x → (Domain.compare x).questions = [name i]) →
    (t.domain.below a b).questions = (List.range (t.asked a b).length).map name
  same_iff : t.domain.Same a b ↔ t.domain.Below a b ∧ t.domain.Below b a
  same_questions : (t.domain.same a b).questions = (t.domain.below a b).questions ++
    if (t.domain.below a b).isYes then (t.domain.below b a).questions else []
  below_eq : t.domain.below a b = (Domain.composite t.leaves).below ⟨a.flatten⟩ ⟨b.flatten⟩
  same_eq : t.domain.same a b = (Domain.composite t.leaves).same ⟨a.flatten⟩ ⟨b.flatten⟩

theorem flattened_of_shaped (ha : t.Shaped a) (hb : t.Shaped b) : Flattened t a b := by
  have hquestions : (t.domain.below a b).questions =
      (t.asked a b).flatMap fun x => (Domain.compare x).questions := by
    rw [below_eq_all ha hb]
    exact Asked.questions_all
  constructor
  case length_left => exact ha.length_flatten
  case length_right => exact hb.length_flatten
  case below_iff =>
    rw [Domain.Below, below_eq_all ha hb]
    exact Asked.all_eq_true_iff
  case answer =>
    rw [below_eq_all ha hb]
    exact Asked.answer_all
  case questions => exact hquestions
  case questions_of_named =>
    intro name hname
    rw [hquestions]
    refine flatMap_eq_map_range fun i x hx => hname i x ?_
    rw [asked, List.getElem?_take] at hx
    split at hx
    · exact hx
    · cases hx
  case same_iff => exact Domain.same_eq_true_iff
  case same_questions =>
    rw [Domain.same]
    cases hyes : (t.domain.below a b).isYes with
    | true => rw [Asked.both_of_isYes hyes, if_pos rfl]
    | false => rw [Asked.both_of_not_isYes hyes]; simp
  case below_eq => exact below_eq_composite ha hb
  case same_eq =>
    rw [Domain.same, Domain.same, below_eq_composite ha hb, below_eq_composite hb ha]

/-- Composites of composites, to any depth. The last part is about each composite on its own. -/
theorem flattened_domain (t : DomainTree κ σ n) :
    (∀ a b, t.Shaped a → t.Shaped b → Flattened t a b) ∧
    (∀ a b, t.domain.Below a b → t.Shaped a ∧ t.Shaped b) ∧
    ∀ (τ : Type) (ds : List (Domain κ τ)) (a b : Composite τ),
      a.arity ≠ b.arity ∨ a.arity ≠ ds.length ∨ b.arity ≠ ds.length →
      (Domain.composite ds).below a b =
        .known (.error (if a.arity ≠ b.arity then .arityDiffers else .arityUnfit)) ∧
      (Domain.composite ds).same a b =
        .known (.error (if a.arity ≠ b.arity then .arityDiffers else .arityUnfit)) :=
  ⟨fun _ _ => flattened_of_shaped, fun _ _ => shaped_of_below, fun _ _ _ _ h =>
    ⟨Domain.below_composite_of_misfit h, Domain.same_composite_of_misfit h⟩⟩

/-- Two composites in one, the second of them in a box. -/
def boxedPair : DomainTree Nat Cell 2 :=
  ⟨0, [⟨0, [⟨0, CellOrder.domain 0 .interval⟩, ⟨2, CellOrder.domain 1 .upper⟩]⟩,
    ⟨1, [⟨0, CellOrder.domain 2 .exact⟩]⟩]⟩

theorem flattened_domain_boxedPair :
    boxedPair.Shaped ⟨[⟨[⟨0, 1, false⟩, ⟨0, 5, false⟩]⟩, ⟨[⟨3, 3, false⟩]⟩]⟩ ∧
      boxedPair.Shaped ⟨[⟨[⟨0, 2, false⟩, ⟨0, 4, false⟩]⟩, ⟨[⟨3, 3, false⟩]⟩]⟩ ∧
      (boxedPair.domain.below ⟨[⟨[⟨0, 1, false⟩, ⟨0, 5, false⟩]⟩, ⟨[⟨3, 3, false⟩]⟩]⟩
        ⟨[⟨[⟨0, 2, false⟩, ⟨0, 4, false⟩]⟩, ⟨[⟨3, 3, false⟩]⟩]⟩).questions = [0, 1] := by
  have hfirst : boxedPair.Shaped ⟨[⟨[⟨0, 1, false⟩, ⟨0, 5, false⟩]⟩, ⟨[⟨3, 3, false⟩]⟩]⟩ := by
    simp [Shaped, boxedPair]
  have hsecond : boxedPair.Shaped ⟨[⟨[⟨0, 2, false⟩, ⟨0, 4, false⟩]⟩, ⟨[⟨3, 3, false⟩]⟩]⟩ := by
    simp [Shaped, boxedPair]
  exact ⟨hfirst, hsecond, ((flattened_domain boxedPair).1 _ _ hfirst hsecond).questions⟩

end DomainTree
end StateSpace
