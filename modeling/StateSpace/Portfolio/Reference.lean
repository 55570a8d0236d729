import StateSpace.Configuration.Error
import StateSpace.Text.Split

/-!
# StateSpace.Portfolio.Reference

References to the configurations of the analyses of a portfolio: a path, or a path and a tag with
two colons between them. The tag tells how the analysis takes part in the exchange of invariants.
-/

namespace StateSpace
namespace Portfolio

inductive Role where
  | none
  | reachedSetSupplier
  /-- A tag that is understood and makes no difference. -/
  | analysisSupplier
deriving DecidableEq, Repr

namespace Role

def tag? : Role → Option String
  | .none => Option.none
  | .reachedSetSupplier => some "reached-inv-sup"
  | .analysisSupplier => some "cpa-inv-sup"

/-- The role that a tag stands for. -/
def ofTag? (tag : String) : Option Role :=
  if tag = "reached-inv-sup" then some .reachedSetSupplier
  else if tag = "cpa-inv-sup" then some .analysisSupplier
  else Option.none

end Role

structure Reference where
  path : String
  role : Role
deriving DecidableEq, Repr

namespace Reference

inductive Defect where
  | unknownTag (tag : String)
  | manySeparators
  | emptyPath
deriving DecidableEq, Repr

def Defect.message : Defect → String
  | .unknownTag tag => s!"unknown tag `{tag}`"
  | .manySeparators => "more than one `::` separator"
  | .emptyPath => "empty path"

/-- A reference with a path that is not empty. -/
def checked (path : String) (role : Role) : Except Defect Reference :=
  if path.isEmpty then .error .emptyPath else .ok ⟨path, role⟩

/-- The reference that the parts between the separators make up. -/
def ofParts : List String → Except Defect Reference
  | [path] => checked path .none
  | [path, tag] =>
    match Role.ofTag? tag with
    | some role => checked path role
    | none => .error (.unknownTag tag)
  | _ => .error .manySeparators

/-- The parts of a text between its separators, without the blanks around them. -/
def parts (l : List Char) : List String :=
  (Text.splitDouble ':' l).map fun part => String.ofList (Text.trim part)

def read (s : String) : Except Configuration.Error Reference :=
  match ofParts (parts s.toList) with
  | .ok r => .ok r
  | .error d => .error (.invalidReference s d.message)

def text (r : Reference) : String :=
  match r.role.tag? with
  | some tag => s!"{r.path}::{tag}"
  | none => r.path

end Reference

end Portfolio
end StateSpace
