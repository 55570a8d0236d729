import StateSpace.Text.Extending
import StateSpace.Text.Unprintable

/-!
# StateSpace.Text.Quoted

Quoted texts: a text between quotation marks, in which every character that would not show as
itself is written as an escape.
-/

namespace StateSpace
namespace Text

/-- The halfwidth voicing marks: they extend the character before them, but are letters that stand
on their own. -/
def isVoicingMark (c : Char) : Bool := c = '\uff9e' || c = '\uff9f'

/-- The fillers of Hangul: letters without a shape. -/
def isFiller (c : Char) : Bool :=
  c = '\u115f' || c = '\u1160' || c = '\u3164' || c = '\uffa0'

/-- The character would not show as itself. -/
def isUnseen (c : Char) : Bool :=
  isUnprintable c || isFiller c || (isExtending c && !isVoicingMark c)

/-- The code point in hexadecimal digits between braces. -/
def codePointEscape (c : Char) : List Char :=
  '\\' :: 'u' :: '\x7b' :: Nat.toDigits 16 c.toNat ++ ['\x7d']

/-- One character inside a quoted text. -/
def escape : Char → List Char
  | '"' => ['\\', '"']
  | '\\' => ['\\', '\\']
  | '\n' => ['\\', 'n']
  | '\r' => ['\\', 'r']
  | '\t' => ['\\', 't']
  | '\x00' => ['\\', '0']
  | c => if isUnseen c then codePointEscape c else [c]

/-- The text between quotation marks. -/
def quoted (s : String) : String :=
  String.ofList ('"' :: s.toList.flatMap escape ++ ['"'])

end Text
end StateSpace
