/-!
# Tables of character ranges

Classes of characters beyond ASCII are kept as arrays of closed ranges of code
points, and case maps as arrays of strides.
-/

namespace HouseStyle

namespace Ranges

/-- Whether a character lies in one of the closed ranges. -/
def mem (c : Char) (table : Array (Nat × Nat)) : Bool :=
  table.any fun r => decide (r.1 ≤ c.toNat) && decide (c.toNat ≤ r.2)

end Ranges

/-- The code points `first`, `first + step`, … up to `last`, each of which maps
to the code point `shift` away. -/
structure Stride where
  first : Nat
  last : Nat
  step : Nat
  shift : Int

namespace Stride

/-- Whether a code point is one of those of the stride. -/
def covers (s : Stride) (n : Nat) : Bool :=
  decide (s.first ≤ n) && decide (n ≤ s.last) && (n - s.first) % s.step == 0

/-- The image of a character under a table of strides; a character that no
stride covers stays. -/
def apply (table : Array Stride) (c : Char) : Char :=
  match table.find? (·.covers c.toNat) with
  | some s => Char.ofNat (c.toNat + s.shift).toNat
  | none => c

end Stride

end HouseStyle
