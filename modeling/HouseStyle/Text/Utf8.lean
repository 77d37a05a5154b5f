import HouseStyle.Text.Quoted

/-!
# Reading UTF-8

Bytes become characters by the well-formed byte sequences of the Unicode
standard (its table 3-7): no overlong forms, no surrogates, nothing beyond
U+10FFFF. The first ill-formed sequence ends the reading with an error that
names the bytes at fault.

* `Utf8.decode` reads all bytes or reports the first ill-formed sequence.
* `Utf8.encode` is the well-formed sequence of a text.
-/

namespace HouseStyle.Utf8

/-- What is wrong with a byte sequence. -/
inductive Fault where
  /-- No character begins with this byte. -/
  | invalidStart
  /-- A byte that should continue a character does not. -/
  | invalidContinuation
  /-- The bytes end inside a character. -/
  | unexpectedEnd
  deriving DecidableEq

/-- The first ill-formed sequence: its position, its length and first byte. -/
structure DecodeError where
  position : Nat
  count : Nat
  first : UInt8
  fault : Fault
  deriving DecidableEq

/-- The wording of a fault. -/
def Fault.message : Fault → String
  | .invalidStart => "invalid start byte"
  | .invalidContinuation => "invalid continuation byte"
  | .unexpectedEnd => "unexpected end of data"

/-- The wording of a decoding error. -/
def DecodeError.message (e : DecodeError) : String :=
  let where_ :=
    if e.count = 1 then
      s!"byte 0x{String.ofList (Quoted.hex 2 e.first.toNat)} in position {e.position}"
    else
      s!"bytes in position {e.position}-{e.position + e.count - 1}"
  s!"'utf-8' codec can't decode {where_}: {e.fault.message}"

/-- Whether a byte can continue a character. -/
def isContinuation (b : UInt8) : Bool :=
  decide (0x80 ≤ b) && decide (b < 0xC0)

/-- Whether a byte can be the second one after the given first byte. -/
def allowsSecond (first second : UInt8) : Bool :=
  isContinuation second &&
    !(first == 0xE0 && decide (second < 0xA0)) && !(first == 0xED && decide (0xA0 ≤ second)) &&
    !(first == 0xF0 && decide (second < 0x90)) && !(first == 0xF4 && decide (0x90 ≤ second))

/-- The number of bytes of a character that begins with a byte, if one does. -/
def lengthFrom (b : UInt8) : Option Nat :=
  if b < 0x80 then some 1
  else if b < 0xC2 then none
  else if b < 0xE0 then some 2
  else if b < 0xF0 then some 3
  else if b < 0xF5 then some 4
  else none

/-- The payload of a continuation byte. -/
def payload (b : UInt8) : Nat :=
  b.toNat - 0x80

/-- What the bytes from `position` on begin with: a character and its length, or
a fault. -/
def decodeFirst (position : Nat) (b : UInt8) (rest : List UInt8) :
    Except DecodeError (Char × Nat) :=
  let fail (count : Nat) (fault : Fault) : Except DecodeError (Char × Nat) :=
    .error { position, count, first := b, fault }
  match lengthFrom b with
  | none => fail 1 .invalidStart
  | some 1 => .ok (Char.ofNat b.toNat, 1)
  | some n =>
    match rest with
    | [] => fail 1 .unexpectedEnd
    | b1 :: rest1 =>
      if !allowsSecond b b1 then fail 1 .invalidContinuation
      else if n = 2 then .ok (Char.ofNat ((b.toNat - 0xC0) * 64 + payload b1), 2)
      else
        match rest1 with
        | [] => fail 2 .unexpectedEnd
        | b2 :: rest2 =>
          if !isContinuation b2 then fail 2 .invalidContinuation
          else if n = 3 then
            .ok (Char.ofNat (((b.toNat - 0xE0) * 64 + payload b1) * 64 + payload b2), 3)
          else
            match rest2 with
            | [] => fail 3 .unexpectedEnd
            | b3 :: _ =>
              if !isContinuation b3 then fail 3 .invalidContinuation
              else
                .ok (Char.ofNat
                  ((((b.toNat - 0xF0) * 64 + payload b1) * 64 + payload b2) * 64 + payload b3), 4)

/-- Reads the bytes from `position` on, after `skip` bytes that belong to a
character already read; `done` holds the characters, last one first. -/
def decodeFrom (done : List Char) (position skip : Nat) :
    List UInt8 → Except DecodeError (List Char)
  | [] => .ok done.reverse
  | b :: rest =>
    match skip with
    | skip + 1 => decodeFrom done (position + 1) skip rest
    | 0 =>
      match decodeFirst position b rest with
      | .error e => .error e
      | .ok (c, n) => decodeFrom (c :: done) (position + 1) (n - 1) rest

/-- The characters that a sequence of bytes encodes. -/
def decode (bytes : List UInt8) : Except DecodeError (List Char) :=
  decodeFrom [] 0 0 bytes

/-- The bytes of a text. -/
def encode (s : String) : List UInt8 :=
  s.toUTF8.toList

end HouseStyle.Utf8
