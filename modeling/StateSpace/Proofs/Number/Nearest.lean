import Mathlib.Algebra.Order.Field.Power
import Mathlib.Data.Rat.Cast.Order
import Mathlib.Tactic.Linarith
import Mathlib.Tactic.Positivity
import Mathlib.Tactic.Ring
import StateSpace.Number.Literal

/-!
# StateSpace.Proofs.Number.Nearest

Numbers that were rounded.

* `two_mul_le_divNearestEven`, `divNearestEven_two_mul_le`: a quotient and the integer it is
  rounded to are at most one half apart. One half itself is rounded to zero, not to one
  (`divNearestEven_eq_zero_iff`).
* `Binary64.value?`: the exact value of a finite number.
* `Binary64.Fits`: the significand has at most 53 bits. So it is with every number that stands
  for a quotient (`fits_nearest`), and with every number that was read (`fits_of_read`).
-/

namespace StateSpace

/-! ## Powers of two -/

theorem twoPow_toNat (e : Int) :
    (twoPow e.toNat : ℚ) = 2 ^ e * twoPow (-e).toNat := by
  obtain ⟨n, rfl | rfl⟩ := e.eq_nat_or_neg
  · simp [twoPow]
  · simp [twoPow]

theorem twoPow_pos (n : Nat) : 0 < twoPow n := Nat.two_pow_pos n

theorem twoPow_toNat_of_nonpos {e : Int} (he : e ≤ 0) : twoPow e.toNat = 1 := by
  rw [Int.toNat_of_nonpos he]
  rfl

theorem scaled_le_iff (a b : Nat) (e : Int) :
    a * twoPow (-e).toNat ≤ b * twoPow e.toNat ↔ (a : ℚ) ≤ b * 2 ^ e := by
  have hpos : (0 : ℚ) < twoPow (-e).toNat := Nat.cast_pos.2 (twoPow_pos _)
  rw [← Nat.cast_le (α := ℚ), Nat.cast_mul, Nat.cast_mul, twoPow_toNat e, ← mul_assoc]
  exact mul_le_mul_iff_left₀ hpos

theorem lt_scaled_iff (a b : Nat) (e : Int) :
    a * twoPow (-e).toNat < b * twoPow e.toNat ↔ (a : ℚ) < b * 2 ^ e := by
  have hpos : (0 : ℚ) < twoPow (-e).toNat := Nat.cast_pos.2 (twoPow_pos _)
  rw [← Nat.cast_lt (α := ℚ), Nat.cast_mul, Nat.cast_mul, twoPow_toNat e, ← mul_assoc]
  exact mul_lt_mul_iff_left₀ hpos

/-! ## Quotients -/

section Quotient

variable {num den : Nat}

/-- The quotient, or one more if the rest is at least half a unit. -/
theorem divNearestEven_cases (num den : Nat) :
    divNearestEven num den = num / den ∧ 2 * (num % den) ≤ den ∨
      divNearestEven num den = num / den + 1 ∧ den ≤ 2 * (num % den) := by
  unfold divNearestEven
  dsimp only
  split_ifs <;> omega

theorem divNearestEven_two_mul_le (num den : Nat) :
    2 * (divNearestEven num den * den) ≤ 2 * num + den := by
  have hnum := Nat.div_add_mod' num den
  obtain ⟨hdown, _⟩ | ⟨hup, hrest⟩ := divNearestEven_cases num den
  · rw [hdown]
    omega
  · rw [hup, Nat.add_one_mul (num / den)]
    omega

theorem two_mul_le_divNearestEven (num : Nat) (hden : 0 < den) :
    2 * num ≤ 2 * (divNearestEven num den * den) + den := by
  have hnum := Nat.div_add_mod' num den
  obtain ⟨hdown, hrest⟩ | ⟨hup, _⟩ := divNearestEven_cases num den
  · rw [hdown]
    omega
  · have hmod := Nat.mod_lt num hden
    rw [hup, Nat.add_one_mul (num / den)]
    omega

theorem divNearestEven_eq_zero_iff (hden : 0 < den) :
    divNearestEven num den = 0 ↔ 2 * num ≤ den := by
  constructor
  · intro h
    simpa [h] using two_mul_le_divNearestEven num hden
  · intro h
    have hquotient : num / den = 0 := Nat.div_eq_of_lt (by omega)
    have hrest : num % den = num := Nat.mod_eq_of_lt (by omega)
    unfold divNearestEven
    rw [hquotient, hrest]
    dsimp only
    split_ifs <;> omega

theorem le_divNearestEven {n : Nat} (hden : 0 < den) (h : n * den ≤ num) :
    n ≤ divNearestEven num den := by
  have hquotient : n ≤ num / den := (Nat.le_div_iff_mul_le hden).2 h
  obtain ⟨hd, _⟩ | ⟨hd, _⟩ := divNearestEven_cases num den <;> omega

theorem divNearestEven_le {n : Nat} (h : num < den * n) : divNearestEven num den ≤ n := by
  have hquotient := Nat.div_lt_of_lt_mul h
  obtain ⟨hd, _⟩ | ⟨hd, _⟩ := divNearestEven_cases num den <;> omega

end Quotient

namespace Binary64

variable {num den : Nat} {negative : Bool}

/-- The exact value of a finite number. -/
def value? : Binary64 → Option ℚ
  | .finite true significand exponent => some (-(significand * 2 ^ exponent))
  | .finite false significand exponent => some (significand * 2 ^ exponent)
  | _ => none

/-- The significand has at most 53 bits. -/
def Fits : Binary64 → Prop
  | .finite _ significand _ => significand < twoPow 53
  | _ => True

theorem num_lt_of_log2 (num : Nat) (hden : den ≠ 0) :
    (num : ℚ) < den * 2 ^ 53 * 2 ^ ((num.log2 : Int) - den.log2 - 52) := by
  have hdenLog : (2 : ℚ) ^ den.log2 ≤ den := by exact_mod_cast Nat.log2_self_le hden
  have hexponents : (num.log2 : Int) + 1 = den.log2 + 53 + (num.log2 - den.log2 - 52) := by omega
  calc (num : ℚ)
      < 2 ^ (num.log2 + 1) := by exact_mod_cast Nat.lt_log2_self
    _ = 2 ^ ((num.log2 : Int) + 1) := by norm_cast
    _ = 2 ^ den.log2 * 2 ^ 53 * 2 ^ ((num.log2 : Int) - den.log2 - 52) := by
        rw [hexponents, zpow_add₀ two_ne_zero, zpow_add₀ two_ne_zero]
        norm_cast
    _ ≤ den * 2 ^ 53 * 2 ^ ((num.log2 : Int) - den.log2 - 52) := by gcongr

/-- Once it is scaled, the quotient has at most 53 bits before its point. -/
theorem lt_scaled_exponentFor (num : Nat) (hden : den ≠ 0) :
    num * twoPow (-exponentFor num den).toNat <
      den * twoPow 53 * twoPow (exponentFor num den).toNat := by
  -- A greater exponent only makes the scaled quotient smaller.
  have hraise : ∀ e : Int, (num : ℚ) < den * 2 ^ 53 * 2 ^ e →
      (num : ℚ) < den * 2 ^ 53 * 2 ^ max e leastExponent := fun e he => by
    refine he.trans_le ?_
    gcongr
    · exact one_le_two
    · exact le_max_left _ _
  rw [lt_scaled_iff, Nat.cast_mul]
  unfold exponentFor
  dsimp only
  split_ifs with hshort
  · rw [decide_eq_true_iff, Nat.mul_right_comm, lt_scaled_iff] at hshort
    refine hraise _ (hshort.trans_eq ?_)
    rw [zpow_sub_one₀ two_ne_zero, Nat.cast_mul]
    norm_num [twoPow]
    ring
  · exact hraise _ (num_lt_of_log2 num hden)

theorem fits_nearest (hden : den ≠ 0) : (nearest negative num den).Fits := by
  have hle : divNearestEven (num * twoPow (-exponentFor num den).toNat)
      (den * twoPow (exponentFor num den).toNat) ≤ twoPow 53 := by
    refine divNearestEven_le ?_
    rw [Nat.mul_right_comm]
    exact lt_scaled_exponentFor num hden
  unfold nearest
  dsimp only
  split_ifs with hnum hcarried hlarge hlarge
  · exact twoPow_pos 53
  · trivial
  · exact Nat.pow_lt_pow_right one_lt_two (by decide)
  · trivial
  · rw [decide_eq_true_iff] at hcarried
    exact lt_of_le_of_ne hle hcarried

theorem fits_nearestDecimal (digits count : Nat) (exponent : Int) :
    (nearestDecimal negative digits count exponent).Fits := by
  unfold nearestDecimal
  split_ifs
  · exact twoPow_pos 53
  · trivial
  · exact twoPow_pos 53
  · exact fits_nearest (Nat.pow_pos (by decide)).ne'

end Binary64

/-! ## Literals -/

namespace Literal

open Binary64

variable {l : List Char} {x : Binary64}

theorem fits_of_number? {negative : Bool} (h : number? negative l = some x) : x.Fits := by
  simp only [number?] at h
  split_ifs at h
  obtain ⟨e, -, rfl⟩ := Option.map_eq_some_iff.1 h
  exact fits_nearestDecimal ..

theorem fits_of_unsigned? {negative : Bool} (h : unsigned? negative l = some x) : x.Fits := by
  unfold unsigned? at h
  split at h
  · cases h; trivial
  · cases h; trivial
  · cases h; trivial
  · exact fits_of_number? h

theorem fits_of_orInvalid {negative : Bool}
    (h : read.orInvalid (unsigned? negative l) = .ok x) : x.Fits := by
  cases hx : unsigned? negative l with
  | none => rw [hx] at h; cases h
  | some y =>
    rw [hx] at h
    cases h
    exact fits_of_unsigned? hx

theorem fits_of_read (h : read l = .ok x) : x.Fits := by
  unfold read at h
  split at h
  · cases h
  · exact fits_of_orInvalid h
  · exact fits_of_orInvalid h
  · exact fits_of_orInvalid h

end Literal

end StateSpace
