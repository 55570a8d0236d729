import StateSpace.Number.Binary64
import StateSpace.Number.Integer

/-!
# StateSpace.Number.Literal

Floating-point numbers written in decimal notation.

A literal is an optional sign, then either one of the words `inf`, `infinity` and `nan` in any
case, or digits with an optional point, at least one digit in all, and an optional exponent.
It stands for the number nearest to its exact value.
-/

namespace StateSpace

inductive LiteralError where
  | empty
  | invalid
deriving DecidableEq, Repr

def LiteralError.message : LiteralError → String
  | .empty => "cannot parse float from empty string"
  | .invalid => "invalid float literal"

namespace Literal

/-- The value of decimal digits. -/
def valueOfDigits (l : List Char) : Nat :=
  l.foldl (fun value c => 10 * value + (c.toNat - '0'.toNat)) 0

/-- The leading digits of a text, and the rest. -/
def splitDigits (l : List Char) : List Char × List Char :=
  (l.takeWhile Char.isDigit, l.dropWhile Char.isDigit)

/-- Reads the digits of an exponent, to the end of the text. -/
def exponentDigits? (l : List Char) : Option Nat :=
  if !l.isEmpty && l.all Char.isDigit then some (valueOfDigits l) else none

/-- Reads what follows the digits: nothing, or an exponent. -/
def exponent? : List Char → Option Int
  | [] => some 0
  | 'e' :: rest => signed? rest
  | 'E' :: rest => signed? rest
  | _ => none
where
  signed? : List Char → Option Int
    | '+' :: digits => (exponentDigits? digits).map Int.ofNat
    | '-' :: digits => (exponentDigits? digits).map fun n => -(n : Int)
    | digits => (exponentDigits? digits).map Int.ofNat

/-- Reads the fraction after a point, if there is a point. -/
def fraction (l : List Char) : List Char × List Char :=
  match l with
  | '.' :: rest => splitDigits rest
  | _ => ([], l)

def number? (negative : Bool) (l : List Char) : Option Binary64 :=
  let (whole, afterWhole) := splitDigits l
  let (part, afterPart) := fraction afterWhole
  let digits := whole ++ part
  if digits.isEmpty then none
  else
    (exponent? afterPart).map fun e =>
      .nearestDecimal negative (valueOfDigits digits)
        (digits.dropWhile (· = '0')).length (e - part.length)

def unsigned? (negative : Bool) (l : List Char) : Option Binary64 :=
  match String.ofList (l.map Char.toLower) with
  | "inf" => some (.infinite negative)
  | "infinity" => some (.infinite negative)
  | "nan" => some .nan
  | _ => number? negative l

def read : List Char → Except LiteralError Binary64
  | [] => .error .empty
  | '+' :: rest => orInvalid (unsigned? false rest)
  | '-' :: rest => orInvalid (unsigned? true rest)
  | l => orInvalid (unsigned? false l)
where
  orInvalid : Option Binary64 → Except LiteralError Binary64
    | some x => .ok x
    | none => .error .invalid

end Literal

end StateSpace
