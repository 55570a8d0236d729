import StateSpace.Limit
import StateSpace.Portfolio.Options
import StateSpace.Proofs.Number.Nearest

/-!
# StateSpace.Proofs.Configuration.Seconds

The durations that a configuration sets: the time between two looks at a portfolio, and the limit
on the wall time of an analysis.

* `Duration.ofSeconds_error_iff`, `Duration.ofSeconds_zero_iff`: which numbers of seconds are
  beyond every duration, and which ones are rounded to no time at all.
* `Configuration.TooLong`, `Configuration.TooShort`: an option holds such a number.
* `configured_durations`: a rule is broken exactly for options that are too long, and no time at
  all comes exactly from options that are too short. All other configurations are either rejected
  with an error or give a duration above zero.
-/

namespace StateSpace

namespace Duration

/-- The whole nanoseconds nearest to `significand · 2 ^ exponent` seconds. -/
def nearestNanoseconds (significand : Nat) (exponent : Int) : Nat :=
  divNearestEven (significand * nanosecondsPerSecond * twoPow exponent.toNat)
    (twoPow (-exponent).toNat)

variable {significand : Nat} {exponent : Int}

theorem secondsBound_eq : secondsBound = 18446744073709551616 := rfl

theorem ofSeconds_of_lt
    (h : nearestNanoseconds significand exponent < secondsBound * nanosecondsPerSecond) :
    ofSeconds significand exponent = .ok ⟨nearestNanoseconds significand exponent⟩ :=
  if_pos ((Nat.div_lt_iff_lt_mul (by decide)).2 h)

theorem ofSeconds_of_le
    (h : secondsBound * nanosecondsPerSecond ≤ nearestNanoseconds significand exponent) :
    ofSeconds significand exponent = .error .durationOverflow :=
  if_neg (Nat.not_lt.2 ((Nat.le_div_iff_mul_le (by decide)).2 h))

/-- Numbers with at most 53 bits leave no room below the bound for one that is rounded up to it. -/
theorem bound_le_nearestNanoseconds_iff (hs : significand < twoPow 53) :
    secondsBound * nanosecondsPerSecond ≤ nearestNanoseconds significand exponent ↔
      (2 : ℚ) ^ 64 ≤ significand * 2 ^ exponent := by
  have hbound : (2 : ℚ) ^ 64 = (secondsBound : Nat) := by norm_num [secondsBound, twoPow]
  rw [hbound, ← scaled_le_iff]
  constructor
  · intro h
    have hround : 2 * (secondsBound * nanosecondsPerSecond * twoPow (-exponent).toNat) ≤
        2 * (significand * nanosecondsPerSecond * twoPow exponent.toNat) +
          twoPow (-exponent).toNat :=
      (Nat.mul_le_mul_left 2 (Nat.mul_le_mul_right _ h)).trans (divNearestEven_two_mul_le ..)
    have hs : significand < 9007199254740992 := hs
    rw [Nat.mul_right_comm significand] at hround
    simp only [secondsBound_eq, nanosecondsPerSecond] at hround ⊢
    obtain he | he := le_total 0 exponent
    · have hden : twoPow (-exponent).toNat = 1 := twoPow_toNat_of_nonpos (by omega)
      rw [hden] at hround ⊢
      omega
    · have hnum : twoPow exponent.toNat = 1 := twoPow_toNat_of_nonpos he
      have hpos := twoPow_pos (-exponent).toNat
      rw [hnum] at hround ⊢
      omega
  · intro h
    refine le_divNearestEven (twoPow_pos _) ?_
    calc secondsBound * nanosecondsPerSecond * twoPow (-exponent).toNat
        = secondsBound * twoPow (-exponent).toNat * nanosecondsPerSecond := Nat.mul_right_comm ..
      _ ≤ significand * twoPow exponent.toNat * nanosecondsPerSecond := Nat.mul_le_mul_right _ h
      _ = significand * nanosecondsPerSecond * twoPow exponent.toNat := Nat.mul_right_comm ..

theorem nearestNanoseconds_eq_zero_iff :
    nearestNanoseconds significand exponent = 0 ↔
      (significand : ℚ) * 2 ^ exponent ≤ 1 / 2000000000 := by
  rw [nearestNanoseconds, divNearestEven_eq_zero_iff (twoPow_pos _)]
  calc 2 * (significand * nanosecondsPerSecond * twoPow exponent.toNat) ≤ twoPow (-exponent).toNat
      ↔ ¬ 1 * twoPow (-exponent).toNat < 2000000000 * significand * twoPow exponent.toNat := by
        rw [not_lt, one_mul, nanosecondsPerSecond]
        ring_nf
    _ ↔ ¬ ((1 : Nat) : ℚ) < (2000000000 * significand : Nat) * 2 ^ exponent :=
        not_congr (lt_scaled_iff 1 _ exponent)
    _ ↔ (significand : ℚ) * 2 ^ exponent ≤ 1 / 2000000000 := by
        rw [not_lt, le_div_iff₀ (by norm_num)]
        push_cast
        ring_nf

/-- There is no duration for numbers from the bound on. -/
theorem ofSeconds_error_iff (hs : significand < twoPow 53) :
    (∃ f, ofSeconds significand exponent = .error f) ↔
      (2 : ℚ) ^ 64 ≤ significand * 2 ^ exponent := by
  rw [← bound_le_nearestNanoseconds_iff hs]
  obtain h | h := lt_or_ge (nearestNanoseconds significand exponent)
    (secondsBound * nanosecondsPerSecond)
  · simp [ofSeconds_of_lt h, h]
  · simp [ofSeconds_of_le h, h]

/-- Up to half a nanosecond nothing is left. -/
theorem ofSeconds_zero_iff :
    (∃ d, ofSeconds significand exponent = .ok d ∧ d.nanoseconds = 0) ↔
      (significand : ℚ) * 2 ^ exponent ≤ 1 / 2000000000 := by
  rw [← nearestNanoseconds_eq_zero_iff]
  obtain h | h := lt_or_ge (nearestNanoseconds significand exponent)
    (secondsBound * nanosecondsPerSecond)
  · simp [ofSeconds_of_lt h]
  · have hpos : 0 < secondsBound * nanosecondsPerSecond := by decide
    simp only [ofSeconds_of_le h, reduceCtorEq, false_and, exists_false, false_iff]
    omega

end Duration

/-! ## Options -/

namespace Configuration

variable {c : Configuration} {key : String} {x : Binary64}

/-- Only numbers above zero are made into durations. All others are rejected with an error. -/
theorem secondsOf_cases (key : String) (x : Binary64) :
    (∃ significand exponent, x = .finite false significand exponent ∧ 0 < significand ∧
      secondsOf key x = (Duration.ofSeconds significand exponent).mapError .fault) ∨
    (∀ q, x.value? = some q → q ≤ 0) ∧ ∃ e, secondsOf key x = .error (.error e) := by
  cases x with
  | nan => exact .inr ⟨nofun, _, rfl⟩
  | infinite negative => exact .inr ⟨nofun, _, rfl⟩
  | finite negative significand exponent =>
    cases negative with
    | true =>
      refine .inr ⟨?_, _, rfl⟩
      rintro q ⟨⟩
      exact neg_nonpos.2 (by positivity)
    | false =>
      cases significand with
      | zero =>
        refine .inr ⟨?_, _, rfl⟩
        rintro q ⟨⟩
        simp
      | succ m => exact .inl ⟨m + 1, exponent, rfl, m.succ_pos, rfl⟩

theorem secondsOf_fault_iff (key : String) (hx : x.Fits) :
    (∃ f, secondsOf key x = .error (.fault f)) ↔ ∃ q, x.value? = some q ∧ 2 ^ 64 ≤ q := by
  obtain ⟨significand, exponent, rfl, -, h⟩ | ⟨hvalue, e, h⟩ := secondsOf_cases key x
  · simp only [h, Binary64.value?, Option.some.injEq, exists_eq_left',
      ← Duration.ofSeconds_error_iff hx]
    cases Duration.ofSeconds significand exponent <;> simp [Except.mapError]
  · simp only [h, Except.error.injEq, reduceCtorEq, exists_false, false_iff, not_exists, not_and]
    intro q hq hlong
    linarith [hvalue q hq]

theorem secondsOf_zero_iff (key : String) :
    (∃ d, secondsOf key x = .ok d ∧ d.nanoseconds = 0) ↔
      ∃ q, x.value? = some q ∧ 0 < q ∧ q ≤ 1 / 2000000000 := by
  obtain ⟨significand, exponent, rfl, hs, h⟩ | ⟨hvalue, e, h⟩ := secondsOf_cases key x
  · have hpos : (0 : ℚ) < significand * 2 ^ exponent := by positivity
    simp only [h, Binary64.value?, Option.some.injEq, exists_eq_left', hpos, true_and,
      ← Duration.ofSeconds_zero_iff]
    cases Duration.ofSeconds significand exponent <;> simp [Except.mapError]
  · simp only [h, reduceCtorEq, false_and, exists_false, false_iff, not_exists, not_and]
    intro q hq hpos
    exact absurd (hvalue q hq) (not_le.2 hpos)

/-- The option holds this finite number of seconds. -/
def HoldsSeconds (c : Configuration) (key : String) (q : ℚ) : Prop :=
  ∃ x, c.read key ValueReader.literal = .ok (some x) ∧ x.value? = some q

/-- The option holds a number of seconds beyond every duration. -/
def TooLong (c : Configuration) (key : String) : Prop :=
  ∃ q, c.HoldsSeconds key q ∧ 2 ^ 64 ≤ q

/-- The option holds a number above zero, but at most half a nanosecond. -/
def TooShort (c : Configuration) (key : String) : Prop :=
  ∃ q, c.HoldsSeconds key q ∧ 0 < q ∧ q ≤ 1 / 2000000000

theorem fits_of_read (h : c.read key ValueReader.literal = .ok (some x)) : x.Fits := by
  unfold read at h
  split at h
  · cases h
  · rename_i value _
    cases hl : Literal.read value.toList with
    | error e => simp [ValueReader.literal, hl, Except.mapError] at h
    | ok y =>
      obtain rfl : y = x := by simpa [ValueReader.literal, hl, Except.mapError] using h
      exact Literal.fits_of_read hl

/-- What an option holds decides what its seconds are. -/
theorem readSeconds_eq (c : Configuration) (key : String) :
    (∃ x, c.read key ValueReader.literal = .ok (some x) ∧
      c.readSeconds key = (secondsOf key x).map some) ∨
    (∀ q, ¬ c.HoldsSeconds key q) ∧
      (c.readSeconds key = .ok none ∨ ∃ e, c.readSeconds key = .error (.error e)) := by
  unfold readSeconds
  split
  · rename_i e h
    refine .inr ⟨fun q hq => ?_, .inr ⟨e, rfl⟩⟩
    obtain ⟨x, hx, _⟩ := hq
    cases h.symm.trans hx
  · rename_i h
    refine .inr ⟨fun q hq => ?_, .inl rfl⟩
    obtain ⟨x, hx, _⟩ := hq
    cases h.symm.trans hx
  · rename_i x h
    refine .inl ⟨x, h, ?_⟩
    cases secondsOf key x <;> rfl

theorem holdsSeconds_iff (h : c.read key ValueReader.literal = .ok (some x)) (q : ℚ) :
    c.HoldsSeconds key q ↔ x.value? = some q := by
  simp [HoldsSeconds, h]

theorem readSeconds_fault_iff :
    (∃ f, c.readSeconds key = .error (.fault f)) ↔ c.TooLong key := by
  obtain ⟨x, hx, h⟩ | ⟨hnone, h⟩ := c.readSeconds_eq key
  · simp only [TooLong, holdsSeconds_iff hx, ← secondsOf_fault_iff key (fits_of_read hx), h]
    cases secondsOf key x <;> simp [Except.map]
  · obtain h | ⟨e, h⟩ := h <;> simp [TooLong, hnone, h]

theorem readSeconds_zero_iff :
    (∃ d, c.readSeconds key = .ok (some d) ∧ d.nanoseconds = 0) ↔ c.TooShort key := by
  obtain ⟨x, hx, h⟩ | ⟨hnone, h⟩ := c.readSeconds_eq key
  · simp only [TooShort, holdsSeconds_iff hx, ← secondsOf_zero_iff key, h]
    cases secondsOf key x <;> simp [Except.map]
  · obtain h | ⟨e, h⟩ := h <;> simp [TooShort, hnone, h]

end Configuration

namespace Portfolio
namespace Options

theorem ofConfiguration_of_nil {c : Configuration} (h : c.list referencesOption = []) :
    ofConfiguration c = .error (.error (.missingOption referencesOption)) := by
  rw [ofConfiguration, h]

theorem ofConfiguration_of_ne_nil {c : Configuration} (h : c.list referencesOption ≠ []) :
    ofConfiguration c =
      (c.readSeconds pollOption).map fun poll => ⟨c.list referencesOption, poll.getD defaultPoll⟩ := by
  unfold ofConfiguration
  split
  · contradiction
  · rename_i hlist
    rw [hlist]
    obtain e | (_ | poll) := c.readSeconds pollOption <;> rfl

theorem fault_iff (c : Configuration) :
    (∃ f, ofConfiguration c = .error (.fault f)) ↔
      c.list referencesOption ≠ [] ∧ c.TooLong pollOption := by
  by_cases h : c.list referencesOption = []
  · simp [ofConfiguration_of_nil h, h]
  · rw [ofConfiguration_of_ne_nil h, ← Configuration.readSeconds_fault_iff]
    cases c.readSeconds pollOption <;> simp [Except.map, h]

theorem poll_zero_iff (c : Configuration) :
    (∃ o, ofConfiguration c = .ok o ∧ o.poll.nanoseconds = 0) ↔
      c.list referencesOption ≠ [] ∧ c.TooShort pollOption := by
  by_cases h : c.list referencesOption = []
  · simp [ofConfiguration_of_nil h, h]
  · have hdefault : defaultPoll.nanoseconds ≠ 0 := by decide
    rw [ofConfiguration_of_ne_nil h, ← Configuration.readSeconds_zero_iff]
    obtain e | (_ | poll) := c.readSeconds pollOption <;> simp [Except.map, h, hdefault]

end Options
end Portfolio

namespace WallLimit

theorem ofConfiguration_eq (c : Configuration) :
    ofConfiguration c = (c.readSeconds option).map fun time => time.map .mk := by
  unfold ofConfiguration
  obtain e | (_ | time) := c.readSeconds option <;> rfl

theorem fault_iff (c : Configuration) :
    (∃ f, ofConfiguration c = .error (.fault f)) ↔ c.TooLong option := by
  rw [ofConfiguration_eq, ← Configuration.readSeconds_fault_iff]
  cases c.readSeconds option <;> simp [Except.map]

theorem time_zero_iff (c : Configuration) :
    (∃ l, ofConfiguration c = .ok (some l) ∧ l.time.nanoseconds = 0) ↔ c.TooShort option := by
  rw [ofConfiguration_eq, ← Configuration.readSeconds_zero_iff]
  obtain e | (_ | time) := c.readSeconds option <;> simp [Except.map]

end WallLimit

open Portfolio

/-- The durations of a configuration are above zero and break no rule, but for the two ends: from
`2 ^ 64` seconds on there is no duration, and up to half a nanosecond it is rounded to zero. -/
theorem configured_durations (c : Configuration) :
    ((∃ f, Options.ofConfiguration c = .error (.fault f)) ↔
      c.list referencesOption ≠ [] ∧ c.TooLong pollOption) ∧
    ((∃ o, Options.ofConfiguration c = .ok o ∧ o.poll.nanoseconds = 0) ↔
      c.list referencesOption ≠ [] ∧ c.TooShort pollOption) ∧
    ((∃ f, WallLimit.ofConfiguration c = .error (.fault f)) ↔ c.TooLong WallLimit.option) ∧
    ((∃ l, WallLimit.ofConfiguration c = .ok (some l) ∧ l.time.nanoseconds = 0) ↔
      c.TooShort WallLimit.option) :=
  ⟨Options.fault_iff c, Options.poll_zero_iff c, WallLimit.fault_iff c, WallLimit.time_zero_iff c⟩

/-- Positive numbers of seconds at the two ends. -/
theorem configured_durations_extreme :
    Options.ofConfiguration (.ofList [(referencesOption, "a"), (pollOption, "1e20")]) =
      .error (.fault .durationOverflow) ∧
    Options.ofConfiguration (.ofList [(referencesOption, "a"), (pollOption, "4.9e-10")]) =
      .ok ⟨["a"], ⟨0⟩⟩ ∧
    WallLimit.ofConfiguration (.ofList [(WallLimit.option, "1e20")]) =
      .error (.fault .durationOverflow) ∧
    WallLimit.ofConfiguration (.ofList [(WallLimit.option, "4.9e-10")]) = .ok (some ⟨⟨0⟩⟩) := by
  decide +kernel

end StateSpace
