import Mathlib.Data.List.Forall2
import StateSpace.Domain.Composite
import StateSpace.Proofs.Asked

/-!
# StateSpace.Proofs.Domain.Composite

The order of a composite domain, told by those of its members.

* `compare`, `below_composite_of_arity`: composites that fit their domain are compared by asking
  its members, each about its own component.
* `below_composite_of_misfit`: composites that do not fit are not compared at all.
* `Domain.IsPreorderOn`: a sensible order among some states. A composite of members with such orders
  has one among the composites of their states (`isPreorderOn_composite`), and there two composites
  are the same just if they are so in each component (`same_composite_iff`).
-/

namespace StateSpace
namespace Domain

variable {κ σ : Type} {ds : List (Domain κ σ)} {as bs : List σ} {a b : Composite σ}

/-- One question to a member: its domain, and the two components. -/
def compare (x : Domain κ σ × σ × σ) : Asked κ (Except Fault Bool) := x.1.below x.2.1 x.2.2

theorem pointwise_eq_all : pointwise ds as bs = .all compare (ds.zip (as.zip bs)) := by
  induction ds generalizing as bs with
  | nil => rfl
  | cons d rest ih =>
    cases as with
    | nil => rfl
    | cons x as =>
      cases bs with
      | nil => rfl
      | cons y bs =>
        rw [pointwise, ih]
        rfl

theorem below_composite_of_arity (ha : a.arity = ds.length) (hb : b.arity = ds.length) :
    (composite ds).below a b = .all compare (ds.zip (a.components.zip b.components)) := by
  rw [← pointwise_eq_all]
  simp [composite, ha, hb]

/-- Nothing is asked about composites of the wrong arity, not even about the components that are
there in all of them. -/
theorem below_composite_of_misfit
    (h : a.arity ≠ b.arity ∨ a.arity ≠ ds.length ∨ b.arity ≠ ds.length) :
    (composite ds).below a b =
      .known (.error (if a.arity ≠ b.arity then .arityDiffers else .arityUnfit)) := by
  by_cases hab : a.arity = b.arity
  · have hb : b.arity ≠ ds.length := by
      rcases h with h | h | h
      · exact absurd hab h
      · exact hab ▸ h
      · exact h
    simp [composite, hab, hb]
  · simp [composite, hab]

theorem same_composite_of_misfit
    (h : a.arity ≠ b.arity ∨ a.arity ≠ ds.length ∨ b.arity ≠ ds.length) :
    (composite ds).same a b =
      .known (.error (if a.arity ≠ b.arity then .arityDiffers else .arityUnfit)) := by
  rw [same, below_composite_of_misfit h]
  rfl

/-! ## Component by component -/

/-- Each of the two states lies below the other one. -/
def Same (d : Domain κ σ) (a b : σ) : Prop := (d.same a b).answer = .ok true

theorem Same.symm {d : Domain κ σ} {x y : σ} (h : d.Same x y) : d.Same y x :=
  same_eq_true_iff.2 (same_eq_true_iff.1 h).symm

/-- The members relate the components, each its own. -/
def Componentwise (R : Domain κ σ → σ → σ → Prop) (ds : List (Domain κ σ)) (a b : Composite σ) :
    Prop :=
  ∀ i d x y, ds[i]? = some d → a.get? i = some x → b.get? i = some y → R d x y

theorem mem_zip_zip_iff {x : Domain κ σ × σ × σ} : x ∈ ds.zip (as.zip bs) ↔
    ∃ i : Nat, ds[i]? = some x.1 ∧ as[i]? = some x.2.1 ∧ bs[i]? = some x.2.2 := by
  rw [List.mem_iff_getElem?]
  exact exists_congr fun i => by rw [List.getElem?_zip_eq_some, List.getElem?_zip_eq_some]

theorem below_composite_iff (ha : a.arity = ds.length) (hb : b.arity = ds.length) :
    (composite ds).Below a b ↔ Componentwise Below ds a b := by
  rw [Below, below_composite_of_arity ha hb, Asked.all_eq_true_iff]
  constructor
  · intro h i d x y hd hx hy
    exact h (d, x, y) (mem_zip_zip_iff.2 ⟨i, hd, hx, hy⟩)
  · intro h x hx
    obtain ⟨i, hd, hfst, hsnd⟩ := mem_zip_zip_iff.1 hx
    exact h i _ _ _ hd hfst hsnd

theorem same_composite_iff (ha : a.arity = ds.length) (hb : b.arity = ds.length) :
    (composite ds).Same a b ↔ Componentwise Same ds a b := by
  rw [Same, same_eq_true_iff, below_composite_iff ha hb, below_composite_iff hb ha]
  constructor
  · rintro ⟨hab, hba⟩ i d x y hd hx hy
    exact same_eq_true_iff.2 ⟨hab i d x y hd hx hy, hba i d y x hd hy hx⟩
  · refine fun h => ⟨fun i d x y hd hx hy => ?_, fun i d y x hd hy hx => ?_⟩
    · exact (same_eq_true_iff.1 (h i d x y hd hx hy)).1
    · exact (same_eq_true_iff.1 (h i d x y hd hx hy)).2

/-! ## Sensible orders -/

/-- The order has an answer for all states of `P`, and is reflexive and transitive among them. -/
structure IsPreorderOn (d : Domain κ σ) (P : σ → Prop) : Prop where
  total : ∀ {a b}, P a → P b → ∃ answer, (d.below a b).answer = .ok answer
  refl : ∀ {a}, P a → d.Below a a
  trans : ∀ {a b c}, P a → P b → P c → d.Below a b → d.Below b c → d.Below a c

theorem IsPreorder.on {d : Domain κ σ} (hd : d.IsPreorder) (P : σ → Prop) : d.IsPreorderOn P where
  total _ _ := hd.total _ _
  refl _ := hd.refl _
  trans _ _ _ := hd.trans

namespace IsPreorderOn

variable {d : Domain κ σ} {P : σ → Prop} {x y z : σ}

theorem same_refl (hd : d.IsPreorderOn P) (hx : P x) : d.Same x x :=
  same_eq_true_iff.2 ⟨hd.refl hx, hd.refl hx⟩

theorem same_trans (hd : d.IsPreorderOn P) (hx : P x) (hy : P y) (hz : P z) (hxy : d.Same x y)
    (hyz : d.Same y z) : d.Same x z := by
  obtain ⟨hxy, hyx⟩ := same_eq_true_iff.1 hxy
  obtain ⟨hyz, hzy⟩ := same_eq_true_iff.1 hyz
  exact same_eq_true_iff.2 ⟨hd.trans hx hy hz hxy hyz, hd.trans hz hy hx hzy hyx⟩

theorem exists_same (hd : d.IsPreorderOn P) (hx : P x) (hy : P y) :
    ∃ answer, (d.same x y).answer = .ok answer := by
  obtain ⟨answer, h⟩ := hd.total hx hy
  cases answer with
  | true =>
    rw [same, Asked.both_of_isYes (Asked.isYes_iff.2 h)]
    exact hd.total hy hx
  | false => exact ⟨false, by simp [same, Asked.both, Asked.andThen, h, Asked.known]⟩

end IsPreorderOn

/-- Composites of states that suit the members, each its own. -/
def Fits (Ps : List (σ → Prop)) (s : Composite σ) : Prop :=
  List.Forall₂ (fun P x => P x) Ps s.components

theorem Fits.length {Ps : List (σ → Prop)} (h : Fits Ps a) : a.arity = Ps.length :=
  (List.Forall₂.length_eq h).symm

theorem exists_getElem?_of_forall₂ {α β : Type} {R : α → β → Prop} {l : List α} {m : List β}
    (h : List.Forall₂ R l m) {i : Nat} {x : α} (hx : l[i]? = some x) :
    ∃ y, m[i]? = some y ∧ R x y := by
  induction h generalizing i with
  | nil => cases hx
  | cons hxy _ ih =>
    cases i with
    | zero =>
      cases hx
      exact ⟨_, rfl, hxy⟩
    | succ i => exact ih hx

theorem Fits.at {Ps : List (σ → Prop)} {P : σ → Prop} {i : Nat} {x : σ} (h : Fits Ps a)
    (hP : Ps[i]? = some P) (hx : a.get? i = some x) : P x := by
  obtain ⟨y, hy, hPy⟩ := exists_getElem?_of_forall₂ h hP
  cases hx.symm.trans hy
  exact hPy

theorem isPreorderOn_composite {Ps : List (σ → Prop)} (hds : List.Forall₂ IsPreorderOn ds Ps) :
    (composite ds).IsPreorderOn (Fits Ps) := by
  have harity : ∀ {a : Composite σ}, Fits Ps a → a.arity = ds.length :=
    fun ha => ha.length.trans hds.length_eq.symm
  constructor
  case total =>
    intro a b ha hb
    rw [below_composite_of_arity (harity ha) (harity hb)]
    have hmember : ∀ x ∈ ds.zip (a.components.zip b.components),
        ∃ answer, (compare x).answer = .ok answer := by
      intro x hx
      obtain ⟨i, hd, hfst, hsnd⟩ := mem_zip_zip_iff.1 hx
      obtain ⟨P, hP, hpre⟩ := exists_getElem?_of_forall₂ hds hd
      exact hpre.total (ha.at hP hfst) (hb.at hP hsnd)
    obtain ⟨answer, h, -⟩ := Asked.exists_all hmember
    exact ⟨answer, h⟩
  case refl =>
    intro a ha
    refine (below_composite_iff (harity ha) (harity ha)).2 fun i d x y hd hx hy => ?_
    obtain ⟨P, hP, hpre⟩ := exists_getElem?_of_forall₂ hds hd
    cases hx.symm.trans hy
    exact hpre.refl (ha.at hP hx)
  case trans =>
    intro a b c ha hb hc hab hbc
    rw [below_composite_iff (harity ha) (harity hb)] at hab
    rw [below_composite_iff (harity hb) (harity hc)] at hbc
    refine (below_composite_iff (harity ha) (harity hc)).2 fun i d x z hd hx hz => ?_
    obtain ⟨P, hP, hpre⟩ := exists_getElem?_of_forall₂ hds hd
    obtain ⟨y, hy, hPy⟩ := exists_getElem?_of_forall₂ hb hP
    exact hpre.trans (ha.at hP hx) hPy (hc.at hP hz) (hab i d x y hd hx hy) (hbc i d y z hd hy hz)

theorem fits_true_iff : Fits (ds.map fun _ _ => True) a ↔ a.arity = ds.length := by
  rw [Fits, List.forall₂_map_left_iff, List.forall₂_iff_zip, eq_comm]
  simp [Composite.arity]

/-- Members with sensible orders among all states. -/
theorem isPreorderOn_arity (hds : ∀ d ∈ ds, d.IsPreorder) :
    (composite ds).IsPreorderOn fun a => a.arity = ds.length := by
  have hall : List.Forall₂ IsPreorderOn ds (ds.map fun _ _ => True) := by
    rw [List.forall₂_map_right_iff, List.forall₂_same]
    exact fun d hd => (hds d hd).on _
  have hfits : (Fits (ds.map fun _ _ => True) : Composite σ → Prop) =
      fun a => a.arity = ds.length :=
    funext fun _ => propext fits_true_iff
  exact hfits ▸ isPreorderOn_composite hall

end Domain
end StateSpace
