import StateSpace.Text.Ranges

/-!
# StateSpace.Text.Blank

Blank characters: the Unicode property `White_Space`, 25 characters in ten ranges.

* `isBlank` — the property;
* `trim` — a text without the blanks at its two ends.
-/

namespace StateSpace
namespace Text

def blankRanges : Ranges :=
  [(0x09, 0x0D), (0x20, 0x20), (0x85, 0x85), (0xA0, 0xA0), (0x1680, 0x1680),
    (0x2000, 0x200A), (0x2028, 0x2029), (0x202F, 0x202F), (0x205F, 0x205F), (0x3000, 0x3000)]

example : blankRanges.areApart = true := by decide
example : blankRanges.count = 25 := by decide

def isBlank (c : Char) : Bool := blankRanges.has c

def trimStart (l : List Char) : List Char := l.dropWhile isBlank

def trimEnd (l : List Char) : List Char := (trimStart l.reverse).reverse

def trim (l : List Char) : List Char := trimEnd (trimStart l)

example : trim " \ta b\u00a0 ".toList = "a b".toList := by decide

end Text
end StateSpace
