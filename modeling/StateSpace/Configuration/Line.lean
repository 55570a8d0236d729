import StateSpace.Text.Split

/-!
# StateSpace.Configuration.Line

The lines of a configuration text. What a line is, is judged without the blanks at its two ends, in
this order:

* a line that begins with `#include` names another text, unless nothing follows;
* a blank line, and one that begins with `#` or `//`, says nothing;
* a line that begins with `[` is a header if it ends with `]`;
* any other line assigns a value to a key, which must not be blank. The first `=` separates them.
-/

namespace StateSpace
namespace Configuration

inductive Line where
  | idle
  | includes (path : List Char)
  | header (name : List Char)
  | assignment (key value : List Char)
  | malformed
deriving DecidableEq, Repr

namespace Line

/-- The word that begins a line naming another text. -/
def includeWord : List Char := ['#', 'i', 'n', 'c', 'l', 'u', 'd', 'e']

def isComment : List Char → Bool
  | '#' :: _ => true
  | '/' :: '/' :: _ => true
  | _ => false

/-- What follows the opening bracket of a header. -/
def readHeader (l : List Char) : Line :=
  if l.getLast? = some ']' then .header (Text.trim l.dropLast) else .malformed

def readAssignment (l : List Char) : Line :=
  match Text.splitFirst? '=' l with
  | none => .malformed
  | some (before, after) =>
    if Text.trim before = [] then .malformed
    else .assignment (Text.trim before) (Text.trim after)

/-- What a line is that does not begin with the word for including. -/
def readPlain (l : List Char) : Line :=
  if l = [] || isComment l then .idle
  else
    match l with
    | '[' :: rest => readHeader rest
    | _ => readAssignment l

/-- What a line is, without the blanks at its ends. -/
def readTrimmed (l : List Char) : Line :=
  match Text.afterInitial? includeWord l with
  | some rest => if Text.trim rest = [] then .malformed else .includes (Text.trim rest)
  | none => readPlain l

def read (l : List Char) : Line := readTrimmed (Text.trim l)

end Line

/-- The key of an option below a header. A blank header leaves keys as they are. -/
def keyBelow (header key : List Char) : List Char :=
  if header = [] then key else header ++ '.' :: key

end Configuration
end StateSpace
