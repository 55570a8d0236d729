/-!
# StateSpace.Number.Power

Powers of two and of ten, by which numbers are scaled.
-/

namespace StateSpace

def twoPow (n : Nat) : Nat := Nat.pow 2 n

def tenPow (n : Nat) : Nat := Nat.pow 10 n

end StateSpace
