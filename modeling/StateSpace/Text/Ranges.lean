/-!
# StateSpace.Text.Ranges

Classes of characters, given as tables.

* `Ranges` — closed ranges of code points;
* `Ranges.has` — a character lies in one of them;
* `Ranges.areApart`, `Ranges.count` — what tells a well-formed table, and how many code points
  it holds.
-/

namespace StateSpace
namespace Text

/-- The first and the last code point of each range. -/
abbrev Ranges := List (Nat × Nat)

namespace Ranges

def has (t : Ranges) (c : Char) : Bool := t.any fun r => r.1 ≤ c.toNat && c.toNat ≤ r.2

/-- The ranges ascend, and no two of them touch. -/
def areApart (t : Ranges) : Bool :=
  t.all (fun r => r.1 ≤ r.2) && (t.zip t.tail).all fun (r, s) => r.2 + 1 < s.1

/-- How many code points the ranges of a well-formed table hold. -/
def count (t : Ranges) : Nat := t.foldl (fun n r => n + (r.2 + 1 - r.1)) 0

end Ranges

end Text
end StateSpace
