import Std.Data.ExtTreeMap
import StateSpace.Configuration.Error

/-!
# StateSpace.Configuration.Basic

Configurations: options with values, both plain texts. The keys are kept in the order of their
code points.

Options are set and cleared one by one, or taken over from another configuration, whose values
then win.
-/

namespace StateSpace

open Std

structure Configuration where
  options : ExtTreeMap String String
deriving DecidableEq

namespace Configuration

def empty : Configuration := ⟨∅⟩

instance : Inhabited Configuration := ⟨empty⟩

def get? (c : Configuration) (key : String) : Option String := c.options[key]?

def has (c : Configuration) (key : String) : Bool := (c.get? key).isSome

def size (c : Configuration) : Nat := c.options.size

def isEmpty (c : Configuration) : Bool := c.size = 0

/-- All options with their values, in the order of the keys. -/
def toList (c : Configuration) : List (String × String) := c.options.toList

def set (c : Configuration) (key value : String) : Configuration :=
  ⟨c.options.insert key value⟩

def clear (c : Configuration) (key : String) : Configuration := ⟨c.options.erase key⟩

def ofList (l : List (String × String)) : Configuration :=
  l.foldl (fun c (key, value) => c.set key value) empty

def copyFrom (c other : Configuration) : Configuration := ⟨c.options ∪ other.options⟩

/-- Takes over one option of another configuration, if it has a value there. -/
def copyOption (c other : Configuration) (key : String) : Configuration :=
  match other.get? key with
  | some value => c.set key value
  | none => c

theorem get?_empty (key : String) : empty.get? key = none := by
  simp [get?, empty]

theorem get?_set (c : Configuration) (k key value : String) :
    (c.set k value).get? key = if k = key then some value else c.get? key := by
  simp [get?, set, ExtTreeMap.getElem?_insert]

theorem get?_clear (c : Configuration) (k key : String) :
    (c.clear k).get? key = if k = key then none else c.get? key := by
  simp [get?, clear, ExtTreeMap.getElem?_erase]

theorem get?_copyFrom (c other : Configuration) (key : String) :
    (c.copyFrom other).get? key = (other.get? key).or (c.get? key) := by
  simp [get?, copyFrom, ExtTreeMap.getElem?_union]

theorem get?_copyOption (c other : Configuration) (k key : String) :
    (c.copyOption other k).get? key =
      if k = key then (other.get? key).or (c.get? key) else c.get? key := by
  unfold copyOption
  split
  · rename_i value h
    rw [get?_set]
    split
    · rename_i hk
      rw [← hk, h, Option.some_or]
    · rfl
  · rename_i h
    split
    · rename_i hk
      rw [← hk, h, Option.none_or]
    · rfl

/-- Configurations with the same values are the same. -/
theorem ext_get? {c d : Configuration} (h : ∀ key, c.get? key = d.get? key) : c = d := by
  cases c
  cases d
  exact congrArg Configuration.mk (ExtTreeMap.ext_getElem? fun key => h key)

theorem empty_copyFrom (c : Configuration) : empty.copyFrom c = c :=
  ext_get? fun key => by rw [get?_copyFrom, get?_empty, Option.or_none]

end Configuration

end StateSpace
