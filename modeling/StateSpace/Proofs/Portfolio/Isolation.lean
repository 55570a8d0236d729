import StateSpace.Portfolio.Rehearsal
import StateSpace.Proofs.Invariant.Supplier
import StateSpace.Proofs.Portfolio.Seating

/-!
# StateSpace.Proofs.Portfolio.Isolation

Setting up the analyses of a portfolio keeps them apart.

* `Network.GrownBy`: a network that has got some slots, and nothing else.
* `Setting.Extends`: everything that setting up one reference does to a roster (`extends_of_add`).
* `Setting.Filled`: the roster after some references. One more keeps this (`Filled.concat`), and so
  do all (`filled_of_addAll`).
* `Rehearsing.staffed_setUpAll`: in a rehearsal the analyses that were set up are at work, and no
  others.
* `isolated_addAll`: a reference that fails leaves no trace but its own seat, and the seat of every
  other reference is as it is in any portfolio that has this reference at the same position.
-/

namespace StateSpace

variable {τ κ σ π φ : Type}

/-! ## Growth -/

namespace Invariant
namespace Network

variable {n before after : Network κ φ} {pool : PoolId} {slots : List SlotId}

/-- The network has got some slots, which know nothing yet, and they have joined one pool. Nothing
else is new. -/
structure GrownBy (before : Network κ φ) (pool : PoolId) (slots : List SlotId)
    (after : Network κ φ) : Prop where
  numbered : slots = List.range' before.slots.size slots.length
  slots_size : after.slots.size = before.slots.size + slots.length
  pools_size : after.pools.size = before.pools.size
  members : after.members pool = before.members pool ++ slots.map .slot
  others : ∀ other, other ≠ pool → after.members other = before.members other
  published : ∀ slot, after.published slot = before.published slot

namespace GrownBy

theorem refl : n.GrownBy pool [] n where
  numbered := rfl
  slots_size := rfl
  pools_size := rfl
  members := (List.append_nil _).symm
  others _ _ := rfl
  published _ := rfl

theorem addSlot (h : before.GrownBy pool slots after) (hpool : pool < before.pools.size) :
    before.GrownBy pool (slots ++ [after.slots.size])
      (after.addSlot.register pool (.slot after.slots.size)) where
  numbered := by
    rw [List.length_append, List.length_singleton, List.range'_concat, ← h.numbered,
      h.slots_size, Nat.one_mul]
  slots_size := by
    have hpush : (after.addSlot.register pool (.slot after.slots.size)).slots.size =
        after.slots.size + 1 := Array.size_push ..
    rw [hpush, h.slots_size, List.length_append, List.length_singleton, Nat.add_assoc]
  pools_size := by
    have hmodify : (after.addSlot.register pool (.slot after.slots.size)).pools.size =
        after.pools.size := Array.size_modify ..
    rw [hmodify, h.pools_size]
  members := by
    have hlt : pool < after.addSlot.pools.size := h.pools_size ▸ hpool
    rw [members_register hlt, members_addSlot, h.members, List.map_append, List.append_assoc]
    rfl
  others other hne := by
    rw [members_register_of_ne (Ne.symm hne), members_addSlot, h.others other hne]
  published slot := by
    rw [published_register, published_addSlot, h.published slot]

end GrownBy

end Network
end Invariant

namespace Portfolio

open Invariant

namespace Setting

variable [DecidableEq σ] {x : Setting τ κ σ π φ}

/-! ## All references -/

section Rosters

variable {roster next last : Roster τ κ σ π φ} {before : Network κ φ} {seat : Seat τ σ π}
  {reference : String} {past rest : List String}

/-- The roster with one more seat. If the seat has a slot, then that is a new one, and the only new
member of the pool. -/
inductive Extends (x : Setting τ κ σ π φ) (roster : Roster τ κ σ π φ) (seat : Seat τ σ π) :
    Roster τ κ σ π φ → Prop where
  | apart : seat.slot? = none →
      Extends x roster seat { roster with seats := roster.seats ++ [seat] }
  | publishing : seat.slot? = some roster.network.slots.size → Extends x roster seat
      { network := roster.network.addSlot.register x.pool (.slot roster.network.slots.size)
        seats := roster.seats ++ [seat] }

theorem extends_welcome {o : Order} {c : Components τ σ π} (ho : x.Ordered reference o)
    (hcreate : x.factory.create o.configuration x.entry = .ok c) :
    ∃ seat, x.Seated (roster.seats.length + 1) reference seat ∧
      x.Extends roster seat (x.welcome roster o c) := by
  unfold welcome
  split
  · rename_i hrole
    exact ⟨_, .built ho hcreate (iff_of_true rfl hrole), .publishing rfl⟩
  · rename_i hrole
    exact ⟨_, .built ho hcreate (iff_of_false (by simp) hrole), .apart rfl⟩

/-- Everything that setting up one reference does. -/
theorem extends_of_add (h : x.add roster reference = .ok next) :
    ∃ seat, x.Seated (roster.seats.length + 1) reference seat ∧ x.Extends roster seat next := by
  have hsafe : x.Tolerates reference := by
    intro fault hfault
    simp [add, hfault] at h
  rcases ordered_or_refused hsafe with ⟨o, ho⟩ | ⟨e, he⟩
  · simp only [add, order_of_ordered ho] at h
    split at h
    · rename_i e hcreate
      cases h
      exact ⟨_, .unbuilt ho hcreate, .apart rfl⟩
    · rename_i c hcreate
      cases h
      exact extends_welcome ho hcreate
  · simp only [add, order_of_refused he] at h
    cases h
    exact ⟨_, .refused he, .apart rfl⟩

theorem exists_add (hsafe : x.Tolerates reference) (roster : Roster τ κ σ π φ) :
    ∃ next, x.add roster reference = .ok next := by
  rcases ordered_or_refused hsafe with ⟨o, ho⟩ | ⟨e, he⟩
  · simp only [add, order_of_ordered ho]
    split <;> exact ⟨_, rfl⟩
  · simp only [add, order_of_refused he]
    exact ⟨_, rfl⟩

/-- The slots that the analyses publish in, in the order of the references. -/
def slots (roster : Roster τ κ σ π φ) : List SlotId := roster.seats.filterMap Seat.slot?

/-- Every reference has a seat, in order, also one that fails. -/
structure SeatedAll (x : Setting τ κ σ π φ) (references : List String)
    (seats : List (Seat τ σ π)) : Prop where
  length : seats.length = references.length
  seated : ∀ i reference, references[i]? = some reference →
    ∃ seat, seats[i]? = some seat ∧ x.Seated (i + 1) reference seat

theorem SeatedAll.concat {seats : List (Seat τ σ π)} (h : x.SeatedAll past seats)
    (hseat : x.Seated (seats.length + 1) reference seat) :
    x.SeatedAll (past ++ [reference]) (seats ++ [seat]) where
  length := by simp [h.length]
  seated i reference' hi := by
    rcases Nat.lt_trichotomy i past.length with hlt | rfl | hgt
    · rw [List.getElem?_append_left hlt] at hi
      rw [List.getElem?_append_left (h.length ▸ hlt)]
      exact h.seated i reference' hi
    · rw [List.getElem?_concat_length] at hi
      cases hi
      refine ⟨seat, ?_, h.length ▸ hseat⟩
      rw [← h.length, List.getElem?_concat_length]
    · have hpast : (past ++ [reference])[i]? = none := List.getElem?_eq_none (by
        rw [List.length_append]
        exact hgt)
      cases hpast.symm.trans hi

/-- Two portfolios seat a reference alike if it has the same place in both. -/
theorem SeatedAll.unnumbered_eq {references references' : List String}
    {seats seats' : List (Seat τ σ π)} {i : Nat} (h : x.SeatedAll references seats)
    (h' : x.SeatedAll references' seats') (hi : references'[i]? = references[i]?) :
    seats'[i]?.map Seat.unnumbered = seats[i]?.map Seat.unnumbered := by
  cases hreference : references[i]? with
  | none =>
    rw [hreference, List.getElem?_eq_none_iff] at hi
    rw [List.getElem?_eq_none_iff] at hreference
    have hnone : seats[i]? = none := List.getElem?_eq_none (h.length ▸ hreference)
    have hnone' : seats'[i]? = none := List.getElem?_eq_none (h'.length ▸ hi)
    rw [hnone, hnone']
  | some reference =>
    obtain ⟨seat, hseat, hseated⟩ := h.seated i reference hreference
    obtain ⟨seat', hseat', hseated'⟩ := h'.seated i reference (hi.trans hreference)
    rw [hseat, hseat', Option.map_some, Option.map_some, hseated'.unnumbered_eq hseated]

/-- The roster after some references. -/
structure Filled (x : Setting τ κ σ π φ) (before : Network κ φ) (references : List String)
    (roster : Roster τ κ σ π φ) : Prop where
  seats : x.SeatedAll references roster.seats
  network : before.GrownBy x.pool (slots roster) roster.network

theorem filled_nil (before : Network κ φ) : x.Filled before [] ⟨before, []⟩ where
  seats := ⟨rfl, fun _ _ h => by cases h⟩
  network := .refl

theorem Filled.concat (h : x.Filled before past roster) (hpool : x.pool < before.pools.size)
    (hseat : x.Seated (roster.seats.length + 1) reference seat)
    (hext : x.Extends roster seat next) : x.Filled before (past ++ [reference]) next := by
  cases hext with
  | apart hslot =>
    refine ⟨h.seats.concat hseat, ?_⟩
    have hslots : slots { roster with seats := roster.seats ++ [seat] } = slots roster := by
      simp [slots, hslot]
    rw [hslots]
    exact h.network
  | publishing hslot =>
    refine ⟨h.seats.concat hseat, ?_⟩
    have hslots : slots roster ++ [roster.network.slots.size] =
        (roster.seats ++ [seat]).filterMap Seat.slot? := by
      simp [slots, hslot]
    rw [slots, ← hslots]
    exact h.network.addSlot hpool

theorem filled_of_addAll (hpool : x.pool < before.pools.size) (h : x.Filled before past roster)
    (hadd : x.addAll roster rest = .ok last) : x.Filled before (past ++ rest) last := by
  induction rest generalizing past roster with
  | nil =>
    cases hadd
    rw [List.append_nil]
    exact h
  | cons reference rest ih =>
    rw [addAll] at hadd
    split at hadd
    · cases hadd
    · rename_i next hnext
      obtain ⟨seat, hseat, hext⟩ := extends_of_add hnext
      have hlast := ih (h.concat hpool hseat hext) hadd
      rwa [List.append_assoc] at hlast

theorem exists_addAll (hsafe : ∀ reference ∈ rest, x.Tolerates reference)
    (roster : Roster τ κ σ π φ) : ∃ last, x.addAll roster rest = .ok last := by
  induction rest generalizing roster with
  | nil => exact ⟨roster, rfl⟩
  | cons reference rest ih =>
    obtain ⟨next, hnext⟩ := exists_add (hsafe reference List.mem_cons_self) roster
    rw [addAll, hnext]
    exact ih (fun other hother => hsafe other (List.mem_cons_of_mem _ hother)) next

end Rosters

/-- The roster of all references. -/
structure Isolated (x : Setting τ κ σ π φ) (before : Network κ φ) (references : List String)
    (roster : Roster τ κ σ π φ) : Prop extends x.Filled before references roster where
  /-- There is somebody at work on those analyses only that were set up. -/
  staffed : ∀ {ρ : Type} (scopes : Scopes) (caller : ScopeId) (outcomes : List Race.SetUp),
    List.Forall₂ Seat.Allows roster.seats outcomes →
    ∃ race : Race ρ, (Race.start scopes caller references.length).replay? (outcomes.map .setUp) =
      some race ∧ Staffed roster.seats outcomes race
  /-- In particular, every seat can come to its own outcome. -/
  staffed_outcome : ∀ {ρ : Type} (scopes : Scopes) (caller : ScopeId),
    ∃ race : Race ρ, (Race.start scopes caller references.length).replay?
        ((roster.seats.map Seat.outcome).map .setUp) = some race ∧
      Staffed roster.seats (roster.seats.map Seat.outcome) race
  /-- What comes of a reference depends on its position, and not on what the other references are or
  come to. -/
  unaffected : ∀ (before' : Network κ φ) (references' : List String)
    (roster' : Roster τ κ σ π φ) (i : Nat), x.pool < before'.pools.size →
    x.addAll ⟨before', []⟩ references' = .ok roster' → references'[i]? = references[i]? →
    roster'.seats[i]?.map Seat.unnumbered = roster.seats[i]?.map Seat.unnumbered

end Setting

/-! ## Rehearsals -/

namespace Rehearsing

variable {x : Rehearsing} {references : List String} {seats : List (Seat Script Nat String)}

theorem race_foldl_enter {race : Race (Reached Nat String)}
    (h : x.race.replay? ((seats.map Seat.outcome).map .setUp) = some race) :
    (seats.foldl enter x).race = race := by
  induction seats generalizing x with
  | nil => exact Option.some.inj h
  | cons seat rest ih =>
    obtain ⟨next, hnext, hrest⟩ := Race.replay?_cons h
    have henter : (x.enter seat).race = next := by
      simp [enter, take, hnext]
    exact ih (henter ▸ hrest)

theorem network_foldl_enter : (seats.foldl enter x).play.network = x.play.network := by
  induction seats generalizing x with
  | nil => rfl
  | cons seat rest ih => exact ih

/-- When everything is set up, those analyses are at work whose references did not fail. -/
theorem staffed_setUpAll {roster : Roster Script Unit Nat String (Conjunction Nat)}
    {scopes : Scopes} {caller : ScopeId}
    (hadd : x.play.setting.addAll ⟨x.play.network, []⟩ references = .ok roster)
    (h : x.play.setting.Isolated x.play.network references roster)
    (hrace : x.race = Race.start scopes caller references.length) :
    ∃ y, x.setUpAll references = .ok y ∧ y.play.network = roster.network ∧
      Staffed roster.seats (roster.seats.map Seat.outcome) y.race := by
  obtain ⟨race, hreplay, hstaffed⟩ := h.staffed_outcome (ρ := Reached Nat String) scopes caller
  rw [← hrace] at hreplay
  let begun : Rehearsing := { x with play := { x.play with network := roster.network } }
  have hlast : (roster.seats.foldl enter begun).race = race := race_foldl_enter hreplay
  refine ⟨roster.seats.foldl enter begun, ?_, network_foldl_enter, hlast ▸ hstaffed⟩
  rw [setUpAll, hadd]

end Rehearsing

/-! ## Isolation -/

namespace Setting

variable [DecidableEq σ] {x : Setting τ κ σ π φ}

/-- Setting up the analyses of a portfolio keeps them apart, whichever of them fail. -/
theorem isolated_addAll {before : Network κ φ} {references : List String}
    (hpool : x.pool < before.pools.size) (hsafe : ∀ reference ∈ references, x.Tolerates reference) :
    ∃ roster, x.addAll ⟨before, []⟩ references = .ok roster ∧
      x.Isolated before references roster := by
  obtain ⟨roster, hadd⟩ := exists_addAll hsafe ⟨before, []⟩
  have hfilled : x.Filled before references roster :=
    filled_of_addAll hpool (filled_nil before) hadd
  have hlength : roster.seats.length = references.length := hfilled.seats.length
  refine ⟨roster, hadd, hfilled, ?staffed, ?staffed_outcome, ?unaffected⟩
  case staffed =>
    intro ρ scopes caller outcomes hallows
    exact hlength ▸ exists_staffed hallows scopes caller
  case staffed_outcome =>
    intro ρ scopes caller
    exact hlength ▸ exists_staffed_outcome roster.seats scopes caller
  case unaffected =>
    intro before' references' roster' i hpool' hadd' hi
    have hfilled' : x.Filled before' references' roster' :=
      filled_of_addAll hpool' (filled_nil before') hadd'
    exact hfilled.seats.unnumbered_eq hfilled'.seats hi

/-- A file is missing, and of the others one is garbled, one sets a bad limit, and one describes an
analysis that cannot be built. -/
def mixedFiles : Configuration.Files
  | "quick" => .ok "script.produce = 1"
  | "curious" => .ok "script.consume = true\nlimits.time.wall = 60"
  | "garbled" => .ok "[script\n"
  | "timeless" => .ok "limits.time.wall = -3"
  | "hopeless" => .ok "script.create = Construction"
  | _ => .error .notFound

def mixedSetting : Setting Script Unit Nat String (Conjunction Nat) where
  files := mixedFiles
  base := Configuration.empty.set referencesOption "quick"
  factory := scriptFactory true
  entry := ⟨7⟩
  pool := 0

def mixedReferences : List String :=
  ["missing", "quick::reached-inv-sup", "quick::sup", "garbled::reached-inv-sup", "timeless",
    "hopeless::reached-inv-sup", "curious::reached-inv-sup", "curious"]

def mixedRehearsing : Rehearsing where
  play := .ofConfiguration mixedFiles mixedSetting.base true mixedSetting.entry
    Scopes.empty.addRoot 0 { references := mixedReferences, poll := Options.defaultPoll }
  race := .start Scopes.empty.addRoot 0 mixedReferences.length

/-- Of the four suppliers two fail, and the slots of the others have no gap between them. A
rehearsal has nobody at work on the five references that fail. -/
theorem isolated_addAll_mixed :
    mixedSetting.pool < (Network.addPool {} : Network Unit (Conjunction Nat)).pools.size ∧
      (∀ reference ∈ mixedReferences, mixedSetting.Tolerates reference) ∧
      ∃ roster, mixedSetting.addAll ⟨Network.addPool {}, []⟩ mixedReferences = .ok roster ∧
        mixedSetting.Isolated (Network.addPool {}) mixedReferences roster ∧
        roster.seats.map Seat.slot? = [none, some 0, none, none, none, none, some 1, none] ∧
        ∃ y, mixedRehearsing.setUpAll mixedReferences = .ok y ∧
          y.play.network = roster.network ∧
          Staffed roster.seats (roster.seats.map Seat.outcome) y.race := by
  have hpool : mixedSetting.pool <
      (Network.addPool {} : Network Unit (Conjunction Nat)).pools.size := by decide
  have hsafe : ∀ reference ∈ mixedReferences, mixedSetting.Tolerates reference := by
    decide +kernel
  obtain ⟨roster, hadd, hisolated⟩ := isolated_addAll hpool hsafe
  have hslots : ((mixedSetting.addAll ⟨Network.addPool {}, []⟩ mixedReferences).map fun r =>
      r.seats.map Seat.slot?).toOption =
        some [none, some 0, none, none, none, none, some 1, none] := by
    decide +kernel
  have hrehearsed := mixedRehearsing.staffed_setUpAll hadd hisolated rfl
  rw [hadd] at hslots
  exact ⟨hpool, hsafe, roster, hadd, hisolated, Option.some.inj hslots, hrehearsed⟩

end Setting

end Portfolio
end StateSpace
