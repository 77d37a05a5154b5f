import HouseStyle.Text.Blank

/-!
# Numerals

Whole numbers as people write them: an optional sign and decimal digits of any
script, between two of which a single underscore may stand. Blanks around a numeral
say nothing.

* `Numeral.digitValue?` reads a digit.
* `Numeral.parse?` reads a numeral.
-/

namespace HouseStyle.Numeral

/-- The zeros of the scripts that have decimal digits; nine more digits follow each. -/
def zeros : Array Nat := #[
  0x30, 0x660, 0x6F0, 0x7C0, 0x966, 0x9E6, 0xA66, 0xAE6, 0xB66, 0xBE6, 0xC66, 0xCE6,
  0xD66, 0xDE6, 0xE50, 0xED0, 0xF20, 0x1040, 0x1090, 0x17E0, 0x1810, 0x1946, 0x19D0,
  0x1A80, 0x1A90, 0x1B50, 0x1BB0, 0x1C40, 0x1C50, 0xA620, 0xA8D0, 0xA900, 0xA9D0,
  0xA9F0, 0xAA50, 0xABF0, 0xFF10, 0x104A0, 0x10D30, 0x11066, 0x110F0, 0x11136, 0x111D0,
  0x112F0, 0x11450, 0x114D0, 0x11650, 0x116C0, 0x11730, 0x118E0, 0x11950, 0x11C50,
  0x11D50, 0x11DA0, 0x16A60, 0x16AC0, 0x16B50, 0x1D7CE, 0x1D7D8, 0x1D7E2, 0x1D7EC,
  0x1D7F6, 0x1E140, 0x1E2F0, 0x1E950, 0x1FBF0]

/-- The value of a decimal digit. -/
def digitValue? (c : Char) : Option Nat :=
  (zeros.find? fun z => decide (z ≤ c.toNat) && decide (c.toNat < z + 10)).map (c.toNat - ·)

theorem digitValue?_lt {c : Char} {d : Nat} (h : digitValue? c = some d) : d < 10 := by
  obtain ⟨z, hz, rfl⟩ := Option.map_eq_some_iff.1 h
  have := Array.find?_some hz
  simp at this
  omega

/-- Blanks that may stand around a numeral: those of any script apart from the four
separators of ASCII. -/
def isMargin (c : Char) : Bool :=
  isBlank c && !(decide (28 ≤ c.toNat) && decide (c.toNat ≤ 31))

/-- The digits of a numeral without its sign; single underscores stand between digits
only. -/
def digits? : List Char → Option (List Nat)
  | [] => none
  | [c] => (digitValue? c).map fun d => [d]
  | c :: '_' :: rest => do return (← digitValue? c) :: (← digits? rest)
  | c :: rest => do return (← digitValue? c) :: (← digits? rest)

/-- The number that digits make. -/
def valueOf (ds : List Nat) : Nat :=
  ds.foldl (fun n d => 10 * n + d) 0

/-- The greatest number of digits that is read. -/
def maxDigits : Nat := 4300

/-- Reads a numeral without a sign. -/
def unsigned? (cs : List Char) : Option Nat :=
  match digits? cs with
  | some ds => if ds.length ≤ maxDigits then some (valueOf ds) else none
  | none => none

/-- Reads a numeral. -/
def parse? (s : String) : Option Int :=
  match dropEnds isMargin s.toList with
  | '-' :: cs => (unsigned? cs).map fun n => -(n : Int)
  | '+' :: cs => (unsigned? cs).map Int.ofNat
  | cs => (unsigned? cs).map Int.ofNat

end HouseStyle.Numeral
