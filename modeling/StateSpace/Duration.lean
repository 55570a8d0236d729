import StateSpace.Fault
import StateSpace.Number.Binary64

/-!
# StateSpace.Duration

Lengths of time in whole nanoseconds.

* `Duration.ofSeconds` — the duration nearest to a number of seconds, a tie to the even nanosecond.
  No duration holds `2 ^ 64` seconds or more.
* `Duration.make` — the duration of some seconds and nanoseconds together.
* `Duration.text` — the duration in the largest unit of which it holds at least one, with the
  fewest fraction digits.
-/

namespace StateSpace

structure Duration where
  nanoseconds : Nat
deriving DecidableEq, Repr

namespace Duration

def nanosecondsPerSecond : Nat := 1000000000

/-- The number of seconds that no duration holds. -/
def secondsBound : Nat := twoPow 64

def seconds (d : Duration) : Nat := d.nanoseconds / nanosecondsPerSecond

/-- The nanoseconds beyond the whole seconds. -/
def subsecond (d : Duration) : Nat := d.nanoseconds % nanosecondsPerSecond

def ofParts (seconds nanoseconds : Nat) : Duration :=
  ⟨seconds * nanosecondsPerSecond + nanoseconds⟩

/-- The duration of some seconds and nanoseconds, if there is such a duration. -/
def make (seconds nanoseconds : Nat) : Except Fault Duration :=
  let d := ofParts seconds nanoseconds
  if d.seconds < secondsBound then .ok d else .error .partsOverflow

/-- The duration nearest to `significand · 2 ^ exponent` seconds. -/
def ofSeconds (significand : Nat) (exponent : Int) : Except Fault Duration :=
  let num := significand * nanosecondsPerSecond * twoPow exponent.toNat
  let d : Duration := ⟨divNearestEven num (twoPow (-exponent).toNat)⟩
  if d.seconds < secondsBound then .ok d else .error .durationOverflow

/-- The whole number of units and its decimal fraction, `rest` of `10 ^ places`. -/
def inUnit (whole rest places : Nat) (unit : String) : String :=
  let digits := Nat.toDigits 10 rest
  let padded := List.replicate (places - digits.length) '0' ++ digits
  let part := (padded.reverse.dropWhile (· = '0')).reverse
  if part.isEmpty then s!"{whole}{unit}"
  else s!"{whole}.{String.ofList part}{unit}"

def text (d : Duration) : String :=
  let n := d.nanoseconds
  if nanosecondsPerSecond ≤ n then inUnit d.seconds d.subsecond 9 "s"
  else if 1000000 ≤ n then inUnit (n / 1000000) (n % 1000000) 6 "ms"
  else if 1000 ≤ n then inUnit (n / 1000) (n % 1000) 3 "µs"
  else s!"{n}ns"

end Duration

end StateSpace
