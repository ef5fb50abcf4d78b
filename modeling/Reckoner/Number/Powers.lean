/-!
# Powers

The powers of the two bases that numbers are written in.
-/

namespace Reckoner

/-- A power of ten. -/
def tenTo (n : Nat) : Nat := Nat.pow 10 n

/-- A power of two. -/
def twoTo (n : Nat) : Nat := Nat.pow 2 n

end Reckoner
