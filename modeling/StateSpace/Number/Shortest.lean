import StateSpace.Number.Binary64

/-!
# StateSpace.Number.Shortest

Floating-point numbers as decimal texts, positionally and with the fewest digits that identify
them.

* `Decimal` — `digits · 10 ^ exponent`;
* `Binary64.identifies` — a decimal lies among the reals that round to a number;
* `Binary64.shortest` — the decimal with the fewest digits that identifies a number; of two, the
  nearer one, and of two equally near, the greater one;
* `Binary64.text` — the text of a number.
-/

namespace StateSpace

structure Decimal where
  digits : Nat
  exponent : Int
deriving DecidableEq, Repr

namespace Decimal

/-- Compares `a · 10 ^ i` with `n · 2 ^ j`. -/
def compareScaled (a : Nat) (i : Int) (n : Nat) (j : Int) : Ordering :=
  compare (a * tenPow i.toNat * twoPow (-j).toNat) (n * twoPow j.toNat * tenPow (-i).toNat)

/-- Positional notation, without a point where no digit follows it. -/
def text (d : Decimal) : String :=
  let digits := Nat.toDigits 10 d.digits
  if 0 ≤ d.exponent then
    String.ofList (digits ++ List.replicate d.exponent.toNat '0')
  else
    let places := (-d.exponent).toNat
    let padded := List.replicate (places + 1 - digits.length) '0' ++ digits
    let whole := padded.take (padded.length - places)
    let part := (padded.drop (padded.length - places)).reverse.dropWhile (· = '0')
    String.ofList (if part.isEmpty then whole else whole ++ '.' :: part.reverse)

end Decimal

namespace Binary64

/-- The decimal rounds to `m · 2 ^ q`: it lies between the midpoints to the two neighbours, which
themselves round to an even significand. Below a power of two the lower neighbour is nearer. -/
def identifies (m : Nat) (q : Int) (d : Decimal) : Bool :=
  let below := if m = twoPow 52 ∧ q ≠ leastExponent then 4 * m - 1 else 4 * m - 2
  let above := 4 * m + 2
  let even := m % 2 = 0
  let low := Decimal.compareScaled d.digits d.exponent below (q - 2)
  let high := Decimal.compareScaled d.digits d.exponent above (q - 2)
  (low = .gt || (even && low = .eq)) && (high = .lt || (even && high = .eq))

def scale (m : Nat) (q : Int) : Int :=
  let num := m * twoPow q.toNat
  let den := twoPow (-q).toNat
  if den ≤ num then (Nat.toDigits 10 (num / den)).length
  else
    match (List.range 400).find? fun j => den ≤ num * tenPow j with
    | some j => 1 - (j : Int)
    | none => -400

/-- The identifying decimal with `n` digits, if there is one. -/
def withDigits? (m : Nat) (q : Int) (n : Nat) : Option Decimal :=
  let exponent := scale m q - n
  let num := m * twoPow q.toNat * tenPow (-exponent).toNat
  let den := twoPow (-q).toNat * tenPow exponent.toNat
  let lower : Decimal := ⟨num / den, exponent⟩
  let upper : Decimal := ⟨num / den + 1, exponent⟩
  match identifies m q lower, identifies m q upper with
  | true, true => some (if 2 * (num % den) < den then lower else upper)
  | true, false => some lower
  | false, true => some upper
  | false, false => none

/-- The shortest identifying decimal of a positive number; its exact value if none is found. -/
def shortest (m : Nat) (q : Int) : Decimal :=
  match (List.range 17).findSome? fun n => withDigits? m q (n + 1) with
  | some d => d
  | none => ⟨m * twoPow q.toNat * Nat.pow 5 (-q).toNat, -(((-q).toNat : Nat) : Int)⟩

/-- The text of a number, never with an exponent. -/
def text : Binary64 → String
  | .nan => "NaN"
  | .infinite false => "inf"
  | .infinite true => "-inf"
  | .finite negative significand exponent =>
    let magnitude := if significand = 0 then "0" else (shortest significand exponent).text
    if negative then "-" ++ magnitude else magnitude

end Binary64

end StateSpace
