import StateSpace.Text.Blank

/-!
# StateSpace.Text.Split

Cutting a text into pieces.

* `splitAll` — the pieces between the occurrences of a character, at least one piece;
* `splitFirst?` — the two sides of the first occurrence of a character;
* `splitDouble` — the pieces between the occurrences of a doubled character;
* `lines` — the lines of a text, without their line ends;
* `afterInitial?` — what follows a given beginning.
-/

namespace StateSpace
namespace Text

/-- The pieces between the occurrences of `sep`. -/
def splitAll (sep : Char) : List Char → List (List Char)
  | [] => [[]]
  | c :: rest =>
    if c = sep then [] :: splitAll sep rest
    else
      match splitAll sep rest with
      | [] => [[c]]
      | piece :: pieces => (c :: piece) :: pieces

/-- What stands before and after the first `sep`, if there is one. -/
def splitFirst? (sep : Char) : List Char → Option (List Char × List Char)
  | [] => none
  | c :: rest =>
    if c = sep then some ([], rest)
    else (splitFirst? sep rest).map fun (before, after) => (c :: before, after)

/-- The pieces between the occurrences of `sep` twice in a row, found from the left. -/
def splitDouble (sep : Char) : List Char → List (List Char)
  | [] => [[]]
  | [c] => [[c]]
  | c :: d :: rest =>
    if c = sep ∧ d = sep then [] :: splitDouble sep rest
    else
      match splitDouble sep (d :: rest) with
      | [] => [[c]]
      | piece :: pieces => (c :: piece) :: pieces

/-- A line that was ended by a line feed, without the carriage return before that end. -/
def dropReturn (line : List Char) : List Char :=
  match line.getLast? with
  | some '\r' => line.dropLast
  | _ => line

/-- Lines from the pieces between line feeds. Only a line with an end may lose a carriage return,
and an empty last piece is no line. -/
def linesOfPieces : List (List Char) → List (List Char)
  | [] => []
  | [last] => if last.isEmpty then [] else [last]
  | piece :: pieces => dropReturn piece :: linesOfPieces pieces

def lines (l : List Char) : List (List Char) := linesOfPieces (splitAll '\n' l)

example : lines "a\r\n\nb\r".toList = ["a".toList, [], "b\r".toList] := by decide

/-- What follows `start` in a text that begins with it. -/
def afterInitial? : (start text : List Char) → Option (List Char)
  | [], text => some text
  | _ :: _, [] => none
  | c :: start, d :: text => if c = d then afterInitial? start text else none

/-- The items of a list written with commas: trimmed, the blank ones left out. -/
def items (l : List Char) : List (List Char) :=
  ((splitAll ',' l).map trim).filter (!·.isEmpty)

end Text
end StateSpace
