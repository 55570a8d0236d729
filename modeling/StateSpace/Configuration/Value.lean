import StateSpace.Configuration.Basic
import StateSpace.Number.Literal
import StateSpace.Text.Split

/-!
# StateSpace.Configuration.Value

Typed values of options.

* `ValueReader` — reads a value of some type from a text, or says what is wrong with the text;
* `Configuration.read` — the typed value of an option. An option without a value is no error;
* `Configuration.list` — the items of an option that is written with commas.
-/

namespace StateSpace

inductive ValueError where
  | integer (e : IntegerError)
  | literal (e : LiteralError)
  /-- Neither `true` nor `false`. -/
  | truthValue
deriving DecidableEq, Repr

def ValueError.message : ValueError → String
  | .integer e => e.message
  | .literal e => e.message
  | .truthValue => "provided string was not `true` or `false`"

abbrev ValueReader (α : Type) := String → Except ValueError α

namespace ValueReader

def integer (t : IntegerType) : ValueReader Int := fun s =>
  (t.read s.toList).mapError .integer

def literal : ValueReader Binary64 := fun s =>
  (Literal.read s.toList).mapError .literal

def truthValue : ValueReader Bool := fun s =>
  if s = "true" then .ok true
  else if s = "false" then .ok false
  else .error .truthValue

def text : ValueReader String := .ok

end ValueReader

namespace Configuration

def read {α : Type} (c : Configuration) (key : String) (reader : ValueReader α) :
    Except Error (Option α) :=
  match c.get? key with
  | none => .ok none
  | some value =>
    match reader value with
    | .ok a => .ok (some a)
    | .error e => .error (.invalidValue key value e.message)

def list (c : Configuration) (key : String) : List String :=
  match c.get? key with
  | none => []
  | some value => (Text.items value.toList).map String.ofList

end Configuration

end StateSpace
