/-!
# StateSpace.Status

How far the result of an analysis can be trusted.

* `sound` — no proof obligation was skipped;
* `precise` — no over-approximation was made that could hide a real violation.
-/

namespace StateSpace

structure Status where
  sound : Bool
  precise : Bool
deriving DecidableEq, Repr

namespace Status

def soundAndPrecise : Status := ⟨true, true⟩
def unsoundAndPrecise : Status := ⟨false, true⟩
def soundAndImprecise : Status := ⟨true, false⟩
def unsoundAndImprecise : Status := ⟨false, false⟩

/-- The status of a result that rests on two others. -/
def meet (a b : Status) : Status :=
  ⟨a.sound && b.sound, a.precise && b.precise⟩

def withSound (s : Status) (sound : Bool) : Status := { s with sound }

def withPrecise (s : Status) (precise : Bool) : Status := { s with precise }

/-- A result that settles the question: nothing skipped and nothing lost. -/
def isConclusive (s : Status) : Bool := s.sound && s.precise

def text (s : Status) : String :=
  let sound := if s.sound then "sound" else "unsound"
  let precise := if s.precise then "precise" else "imprecise"
  s!"{sound} and {precise}"

instance : ToString Status := ⟨text⟩

end Status

end StateSpace
