import StateSpace.Number.Power

/-!
# StateSpace.Number.Binary64

Floating-point numbers of 64 bits, as exact integers.

* `Binary64` — a finite number is `significand · 2 ^ exponent` with a sign;
* `divNearestEven` — a quotient rounded to the nearest integer, a half to the even one;
* `Binary64.nearest` — the number nearest to a quotient of naturals, a tie to the even significand;
* `Binary64.bits` — the 64 bits that stand for a number.

Finite numbers are kept in the one form in which the significand has 53 bits, or the exponent is
the least one.
-/

namespace StateSpace

inductive Binary64 where
  | nan
  | infinite (negative : Bool)
  | finite (negative : Bool) (significand : Nat) (exponent : Int)
deriving DecidableEq, Repr

/-- The quotient rounded to the nearest integer; exactly between two, the even one. -/
def divNearestEven (num den : Nat) : Nat :=
  let quotient := num / den
  let rest := 2 * (num % den)
  if rest < den then quotient
  else if den < rest then quotient + 1
  else if quotient % 2 = 0 then quotient
  else quotient + 1

namespace Binary64

/-- The exponent of the least positive number, and so of all numbers with fewer than 53 bits. -/
def leastExponent : Int := -1074

/-- The greatest exponent of a finite number. -/
def greatestExponent : Int := 971

/-- The exponent that gives the quotient 53 bits before its point, or the least exponent. -/
def exponentFor (num den : Nat) : Int :=
  let guess := (num.log2 : Int) - den.log2 - 52
  let short := decide
    (num * twoPow (-guess).toNat < den * twoPow guess.toNat * twoPow 52)
  max (if short then guess - 1 else guess) leastExponent

def nearest (negative : Bool) (num den : Nat) : Binary64 :=
  if num = 0 then .finite negative 0 leastExponent
  else
    let e := exponentFor num den
    let m := divNearestEven (num * twoPow (-e).toNat) (den * twoPow e.toNat)
    let carried := decide (m = twoPow 53)
    let significand := if carried then twoPow 52 else m
    let exponent := if carried then e + 1 else e
    if greatestExponent < exponent then .infinite negative
    else .finite negative significand exponent

/-- The number nearest to `digits · 10 ^ exponent`, where `count` is the number of decimal digits
of `digits`. Values beyond every finite number, or far below the least one, need no power of ten. -/
def nearestDecimal (negative : Bool) (digits count : Nat) (exponent : Int) : Binary64 :=
  if digits = 0 then .finite negative 0 leastExponent
  else if 310 < exponent + count then .infinite negative
  else if exponent + count < -330 then .finite negative 0 leastExponent
  else nearest negative (digits * tenPow exponent.toNat) (tenPow (-exponent).toNat)

/-- Sign, eleven bits of exponent, and the significand without its leading bit. -/
def bits : Binary64 → UInt64
  | .nan => 0x7FF8000000000000
  | .infinite negative => signBit negative ||| 0x7FF0000000000000
  | .finite negative significand exponent =>
    if significand < twoPow 52 then signBit negative ||| UInt64.ofNat significand
    else
      let biased := (exponent - leastExponent + 1).toNat
      signBit negative ||| UInt64.ofNat (biased * twoPow 52 + (significand - twoPow 52))
where
  signBit (negative : Bool) : UInt64 := if negative then 0x8000000000000000 else 0

end Binary64

end StateSpace
