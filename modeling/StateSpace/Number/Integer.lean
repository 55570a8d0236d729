import StateSpace.Number.Power

/-!
# StateSpace.Number.Integer

Integers of a fixed width, written in decimal digits.

* `IntegerType` — how many bits, with or without a sign;
* `IntegerType.read` — reads a number: an optional sign, then digits. The digits are judged from
  the left, and the first problem is the one reported: a character that is no digit, or a value
  beyond the type.
-/

namespace StateSpace

inductive IntegerError where
  | empty
  | badDigit
  | tooLarge
  | tooSmall
deriving DecidableEq, Repr

def IntegerError.message : IntegerError → String
  | .empty => "cannot parse integer from empty string"
  | .badDigit => "invalid digit found in string"
  | .tooLarge => "number too large to fit in target type"
  | .tooSmall => "number too small to fit in target type"

structure IntegerType where
  bits : Nat
  signed : Bool
deriving DecidableEq, Repr

namespace IntegerType

def unsigned32 : IntegerType := ⟨32, false⟩
def signed64 : IntegerType := ⟨64, true⟩

def least (t : IntegerType) : Int :=
  if t.signed then -(twoPow (t.bits - 1) : Int) else 0

def greatest (t : IntegerType) : Int :=
  (if t.signed then twoPow (t.bits - 1) else twoPow t.bits : Nat) - 1

def digit? (c : Char) : Option Nat :=
  if c.isDigit then some (c.toNat - '0'.toNat) else none

/-- Goes on reading digits after those with the value `value`. -/
def readUp (t : IntegerType) (value : Int) : List Char → Except IntegerError Int
  | [] => .ok value
  | c :: rest =>
    match digit? c with
    | none => .error .badDigit
    | some d =>
      let next := 10 * value + d
      if t.greatest < next then .error .tooLarge else readUp t next rest

/-- Goes on reading digits of a number below zero. -/
def readDown (t : IntegerType) (value : Int) : List Char → Except IntegerError Int
  | [] => .ok value
  | c :: rest =>
    match digit? c with
    | none => .error .badDigit
    | some d =>
      let next := 10 * value - d
      if next < t.least then .error .tooSmall else readDown t next rest

/-- Reads a number of the type. Only a signed type knows the minus sign. -/
def read (t : IntegerType) : List Char → Except IntegerError Int
  | [] => .error .empty
  | ['+'] => .error .badDigit
  | '+' :: digits => t.readUp 0 digits
  | '-' :: digits =>
    if t.signed && !digits.isEmpty then t.readDown 0 digits else .error .badDigit
  | digits => t.readUp 0 digits

example : (read ⟨8, true⟩ "-128".toList).toOption = some (-128) := by decide
example : (read ⟨8, false⟩ "+255".toList).toOption = some 255 := by decide

end IntegerType

end StateSpace
