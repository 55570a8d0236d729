import StateSpace.Certificate.Oracle
import StateSpace.Proofs.Domain.Composite

/-!
# StateSpace.Proofs.Certificate.SuccessorSets

What the oracle of a domain says about claimed successors.

* `SameSet`: two lists of states stand for the same set, where states that lie below each other
  count as one.
* `Reworded`: lists that differ in their order, in repetitions, and in states that were replaced by
  others that are the same in the domain. They stand for the same set (`Reworded.sameSet`).
* `exists_answer`: where the transfer function has successors, the oracle has an answer, and it is
  yes just if they stand for the same set as those that are claimed.
* `decides_ofDomain`: all of this for any domain with a sensible order, and for composites of such.
-/

namespace StateSpace
namespace Certificate

variable {κ σ : Type}

/-- Every state of one list is the same as some state of the other one. -/
structure SameSet (d : Domain κ σ) (l l' : List σ) : Prop where
  left : ∀ a ∈ l, ∃ b ∈ l', d.Same a b
  right : ∀ b ∈ l', ∃ a ∈ l, d.Same a b

inductive Reworded (d : Domain κ σ) (P : σ → Prop) : List σ → List σ → Prop where
  | permuted {l l' : List σ} : l.Perm l' → Reworded d P l l'
  | repeated {a : σ} {l : List σ} : a ∈ l → Reworded d P l (a :: l)
  | replaced {l l' : List σ} :
    List.Forall₂ (fun a b => P a ∧ P b ∧ d.Same a b) l l' → Reworded d P l l'
  | symm {l l' : List σ} : Reworded d P l l' → Reworded d P l' l
  | trans {l l' l'' : List σ} :
    Reworded d P l l' → Reworded d P l' l'' → Reworded d P l l''

variable {d : Domain κ σ} {P : σ → Prop}
  {transfer : σ → Except Analysis.Error (List σ)} {s : σ} {l l' l'' : List σ}
  {computed claimed : List σ}

/-! ## Sets of states -/

theorem SameSet.symm (h : SameSet d l l') : SameSet d l' l where
  left b hb := by
    obtain ⟨a, ha, hab⟩ := h.right b hb
    exact ⟨a, ha, hab.symm⟩
  right a ha := by
    obtain ⟨b, hb, hab⟩ := h.left a ha
    exact ⟨b, hb, hab.symm⟩

theorem SameSet.trans (hd : d.IsPreorderOn P) (hl : ∀ a ∈ l, P a) (hl' : ∀ a ∈ l', P a)
    (hl'' : ∀ a ∈ l'', P a) (h : SameSet d l l') (h' : SameSet d l' l'') : SameSet d l l'' where
  left a ha := by
    obtain ⟨b, hb, hab⟩ := h.left a ha
    obtain ⟨c, hc, hbc⟩ := h'.left b hb
    exact ⟨c, hc, hd.same_trans (hl a ha) (hl' b hb) (hl'' c hc) hab hbc⟩
  right c hc := by
    obtain ⟨b, hb, hbc⟩ := h'.right c hc
    obtain ⟨a, ha, hab⟩ := h.right b hb
    exact ⟨a, ha, hd.same_trans (hl a ha) (hl' b hb) (hl'' c hc) hab hbc⟩

theorem SameSet.cons {a b : σ} (h : SameSet d l l') (hab : d.Same a b) :
    SameSet d (a :: l) (b :: l') where
  left := by
    rw [List.forall_mem_cons]
    refine ⟨⟨b, List.mem_cons_self, hab⟩, fun x hx => ?_⟩
    obtain ⟨y, hy, hxy⟩ := h.left x hx
    exact ⟨y, List.mem_cons_of_mem b hy, hxy⟩
  right := by
    rw [List.forall_mem_cons]
    refine ⟨⟨a, List.mem_cons_self, hab⟩, fun y hy => ?_⟩
    obtain ⟨x, hx, hxy⟩ := h.right y hy
    exact ⟨x, List.mem_cons_of_mem a hx, hxy⟩

theorem SameSet.of_forall₂ (h : List.Forall₂ (fun a b => P a ∧ P b ∧ d.Same a b) l l') :
    SameSet d l l' := by
  induction h with
  | nil => exact ⟨nofun, nofun⟩
  | cons hhead _ ih => exact ih.cons hhead.2.2

theorem SameSet.of_mem_iff (hd : d.IsPreorderOn P) (hl : ∀ a ∈ l, P a) (h : ∀ a, a ∈ l ↔ a ∈ l') :
    SameSet d l l' where
  left a ha := ⟨a, (h a).1 ha, hd.same_refl (hl a ha)⟩
  right a ha := ⟨a, (h a).2 ha, hd.same_refl (hl a ((h a).2 ha))⟩

namespace Reworded

theorem forall_iff (h : Reworded d P l l') : (∀ a ∈ l, P a) ↔ ∀ a ∈ l', P a := by
  induction h with
  | permuted h => exact forall_congr' fun a => imp_congr_left h.mem_iff
  | repeated h =>
    rw [List.forall_mem_cons]
    exact ⟨fun hl => ⟨hl _ h, hl⟩, And.right⟩
  | replaced h =>
    induction h with
    | nil => rfl
    | cons hhead _ ih =>
      rw [List.forall_mem_cons, List.forall_mem_cons, ih]
      exact and_congr_left fun _ => ⟨fun _ => hhead.2.1, fun _ => hhead.1⟩
  | symm _ ih => exact ih.symm
  | trans _ _ ih ih' => exact ih.trans ih'

theorem sameSet (hd : d.IsPreorderOn P) (h : Reworded d P l l') (hl : ∀ a ∈ l, P a) :
    SameSet d l l' := by
  induction h with
  | permuted h => exact .of_mem_iff hd hl fun a => h.mem_iff
  | repeated h =>
    refine .of_mem_iff hd hl fun a => ?_
    rw [List.mem_cons]
    exact ⟨.inr, fun ha => ha.elim (fun heq => heq ▸ h) id⟩
  | replaced h => exact .of_forall₂ h
  | symm h ih => exact (ih (h.forall_iff.2 hl)).symm
  | trans h h' ih ih' =>
    have hmid := h.forall_iff.1 hl
    exact .trans hd hl hmid (h'.forall_iff.1 hmid) (ih hl) (ih' hmid)

end Reworded

/-! ## The oracle of a domain -/

theorem exists_answer (hd : d.IsPreorderOn P) (hcomputed : ∀ a ∈ computed, P a)
    (hclaimed : ∀ b ∈ claimed, P b) (ht : transfer s = .ok computed) :
    ∃ b, ((Oracle.ofDomain d transfer).successors s claimed).answer = .ok b ∧
      (b = true ↔ SameSet d computed claimed) := by
  obtain ⟨b, hb, hleft⟩ : ∃ b, (Oracle.eachMatches d computed claimed).answer = .ok b ∧
      (b = true ↔ ∀ c ∈ computed, ∃ s ∈ claimed, d.Same c s) :=
    Asked.exists_all_any fun c hc s hs => hd.exists_same (hcomputed c hc) (hclaimed s hs)
  obtain ⟨c, hc, hright⟩ : ∃ b, (Oracle.eachMatched d computed claimed).answer = .ok b ∧
      (b = true ↔ ∀ s ∈ claimed, ∃ c ∈ computed, d.Same c s) :=
    Asked.exists_all_any fun s hs c hc => hd.exists_same (hcomputed c hc) (hclaimed s hs)
  refine ⟨b && c, ?_, ?_⟩
  · simp [Oracle.ofDomain, ht, Asked.mapError_eq_ok_iff, Oracle.sameStates, Asked.andThen, hb, hc,
      Asked.known]
  · rw [Bool.and_eq_true, hleft, hright]
    exact ⟨fun h => ⟨h.1, h.2⟩, fun h => ⟨h.left, h.right⟩⟩

/-- The oracle confirms that the two states cover each other. -/
def CoverEachOther (oracle : Oracle κ σ) (a b : σ) : Prop :=
  (oracle.covered a b).answer = .ok true ∧ (oracle.covered b a).answer = .ok true

theorem coverEachOther_iff {a b : σ} :
    CoverEachOther (.ofDomain d transfer) a b ↔ d.Same a b := by
  rw [Domain.Same, Domain.same_eq_true_iff]
  exact and_congr Asked.mapError_eq_ok_iff Asked.mapError_eq_ok_iff

/-- What the oracle says about states of `P`, whether the transfer function has them as successors
or the claim. -/
structure Decides (d : Domain κ σ) (P : σ → Prop)
    (transfer : σ → Except Analysis.Error (List σ)) : Prop where
  /-- It fails just where the transfer function fails, and with the same error. -/
  error_iff : ∀ s claimed f, (∀ computed, transfer s = .ok computed → ∀ x ∈ computed, P x) →
    (∀ x ∈ claimed, P x) →
    (((Oracle.ofDomain d transfer).successors s claimed).answer = .error f ↔
      ∃ e, transfer s = .error e ∧ f = .error e)
  /-- Everywhere else it says whether the same states are claimed as were computed. -/
  answer : ∀ s computed claimed, transfer s = .ok computed → (∀ x ∈ computed, P x) →
    (∀ x ∈ claimed, P x) →
    ∃ b, ((Oracle.ofDomain d transfer).successors s claimed).answer = .ok b ∧
      (b = true ↔ SameSet d computed claimed)
  same_refl : ∀ a, P a → d.Same a a
  same_symm : ∀ a b, d.Same a b → d.Same b a
  same_trans : ∀ a b c, P a → P b → P c → d.Same a b → d.Same b c → d.Same a c
  /-- The answer depends on neither wording, that of the claim and that of the transfer function. -/
  answer_eq : ∀ transfer' s s' computed computed' claimed claimed', transfer s = .ok computed →
    transfer' s' = .ok computed' → (∀ x ∈ computed, P x) → (∀ x ∈ claimed, P x) →
    Reworded d P computed computed' → Reworded d P claimed claimed' →
    ((Oracle.ofDomain d transfer).successors s claimed).answer =
      ((Oracle.ofDomain d transfer').successors s' claimed').answer
  /-- The states of a matched pair cover each other. -/
  coverEachOther_iff : ∀ a b, CoverEachOther (.ofDomain d transfer) a b ↔ d.Same a b

theorem decides_of_isPreorderOn (hd : d.IsPreorderOn P) : Decides d P transfer := by
  constructor
  case error_iff =>
    intro s claimed f hcomputed hclaimed
    cases htransfer : transfer s with
    | error e => simp [Oracle.ofDomain, htransfer, Asked.known, eq_comm]
    | ok computed =>
      obtain ⟨b, hb, -⟩ := exists_answer hd (hcomputed computed htransfer) hclaimed htransfer
      simp [hb]
  case answer =>
    exact fun s computed claimed htransfer hcomputed hclaimed =>
      exists_answer hd hcomputed hclaimed htransfer
  case same_refl => exact fun a ha => hd.same_refl ha
  case same_symm => exact fun a b h => h.symm
  case same_trans => exact fun a b c ha hb hc => hd.same_trans ha hb hc
  case answer_eq =>
    intro transfer' s s' computed computed' claimed claimed' htransfer htransfer' hcomputed hclaimed
      hrecomputed hreclaimed
    have hcomputed' := hrecomputed.forall_iff.1 hcomputed
    have hclaimed' := hreclaimed.forall_iff.1 hclaimed
    obtain ⟨b, hb, hiff⟩ := exists_answer hd hcomputed hclaimed htransfer
    obtain ⟨b', hb', hiff'⟩ := exists_answer hd hcomputed' hclaimed' htransfer'
    have hset := hrecomputed.sameSet hd hcomputed
    have hset' := hreclaimed.sameSet hd hclaimed
    have heq : b = true ↔ b' = true := by
      rw [hiff, hiff']
      constructor
      · exact fun h => .trans hd hcomputed' hcomputed hclaimed' hset.symm
          (h.trans hd hcomputed hclaimed hclaimed' hset')
      · exact fun h => .trans hd hcomputed hcomputed' hclaimed hset
          (h.trans hd hcomputed' hclaimed' hclaimed hset'.symm)
    rw [hb, hb', Bool.eq_iff_iff.2 heq]
  case coverEachOther_iff => exact fun a b => coverEachOther_iff

/-- Any domain with a sensible order, composites of such domains, and among them those that compare
all composites of the right arity. -/
theorem decides_ofDomain :
    (∀ (d : Domain κ σ) (P : σ → Prop) (transfer : σ → Except Analysis.Error (List σ)),
      d.IsPreorderOn P → Decides d P transfer) ∧
    (∀ (ds : List (Domain κ σ)) (Ps : List (σ → Prop)), List.Forall₂ Domain.IsPreorderOn ds Ps →
      (Domain.composite ds).IsPreorderOn (Domain.Fits Ps)) ∧
    (∀ (ds : List (Domain κ σ)) (a b : Composite σ), a.arity = ds.length → b.arity = ds.length →
      ((Domain.composite ds).Same a b ↔ Domain.Componentwise Domain.Same ds a b)) ∧
    ∀ (ds : List (Domain κ σ))
      (transfer : Composite σ → Except Analysis.Error (List (Composite σ))),
      (∀ d ∈ ds, d.IsPreorder) →
      Decides (Domain.composite ds) (fun a => a.arity = ds.length) transfer :=
  ⟨fun _ _ _ => decides_of_isPreorderOn, fun _ _ => Domain.isPreorderOn_composite,
    fun _ _ _ => Domain.same_composite_iff,
    fun _ _ hds => decides_of_isPreorderOn (Domain.isPreorderOn_arity hds)⟩

/-- Two intervals side by side. -/
def intervals : List (Domain Nat Cell) :=
  [CellOrder.domain 0 .interval, CellOrder.domain 1 .interval]

/-- The successor is computed twice and claimed once, with another mark. -/
theorem decides_ofDomain_marked :
    (∀ d ∈ intervals, d.IsPreorder) ∧
      SameSet (Domain.composite intervals)
        [⟨[⟨0, 1, false⟩, ⟨2, 3, false⟩]⟩, ⟨[⟨0, 1, false⟩, ⟨2, 3, false⟩]⟩]
        [⟨[⟨0, 1, true⟩, ⟨2, 3, false⟩]⟩] := by
  have hmembers : ∀ d ∈ intervals, d.IsPreorder := by
    simp [intervals, CellOrder.isPreorder_interval]
  have hdecides := decides_ofDomain.2.2.2 intervals (fun s => .ok [s, s]) hmembers
  obtain ⟨b, hb, hiff⟩ := hdecides.answer ⟨[⟨0, 1, false⟩, ⟨2, 3, false⟩]⟩ _
    [⟨[⟨0, 1, true⟩, ⟨2, 3, false⟩]⟩] rfl (by decide) (by decide)
  exact ⟨hmembers, hiff.1 (Except.ok.inj hb).symm⟩

end Certificate
end StateSpace
