/-!
# Spans

A span is a half-open range `[start, stop)` of character offsets into a text.
The order of its ends is part of the type, so a span is always a range; the
check happens once, where a pair of integers becomes a span (`Span.ofBounds?`).

* `Span.ofBounds?` accepts exactly the ordered pairs of natural numbers.
* `Span.overlaps`: two spans collide when they share a character or compete for
  one insertion point.
-/

namespace HouseStyle

/-- A half-open range `[start, stop)` of offsets into a text. -/
structure Span where
  start : Nat
  stop : Nat
  start_le_stop : start ≤ stop := by omega
  deriving DecidableEq

/-- A pair of integers that bounds no range. -/
structure SpanError where
  start : Int
  stop : Int
  deriving DecidableEq

namespace SpanError

/-- The wording of a refused range. -/
def message (e : SpanError) : String :=
  s!"invalid span [{e.start}, {e.stop})"

end SpanError

namespace Span

/-- The range from `start` on: up to `stop`, or empty when `stop` lies before. -/
def between (start stop : Nat) : Span :=
  { start, stop := max start stop }

@[simp] theorem between_start (a b : Nat) : (between a b).start = a := rfl

@[simp] theorem between_stop (a b : Nat) : (between a b).stop = max a b := rfl

/-- The empty range at an offset. -/
def point (offset : Nat) : Span :=
  { start := offset, stop := offset }

/-- The range between two integers, refused when the first is negative or lies
after the second. -/
def ofBounds? (start stop : Int) : Except SpanError Span :=
  if h : 0 ≤ start ∧ start ≤ stop then
    .ok { start := start.toNat, stop := stop.toNat, start_le_stop := by omega }
  else
    .error { start, stop }

/-- The number of characters in the range. -/
def length (s : Span) : Nat :=
  s.stop - s.start

/-- Whether the range holds no character. -/
def isEmpty (s : Span) : Bool :=
  s.start == s.stop

/-- Whether two ranges share a character, or an empty one of them lies strictly
inside the other or starts where the other does. -/
def overlaps (a b : Span) : Bool :=
  if a.isEmpty || b.isEmpty then
    a.start == b.start || (decide (a.start < b.stop) && decide (b.start < a.stop))
  else
    decide (a.start < b.stop) && decide (b.start < a.stop)

/-- Whether every offset of `b` lies in `a`. -/
def contains (a b : Span) : Bool :=
  decide (a.start ≤ b.start) && decide (b.stop ≤ a.stop)

/-- The order by start, then by end. -/
def precedes (a b : Span) : Bool :=
  decide (a.start < b.start) || (a.start == b.start && decide (a.stop < b.stop))

/-- The range moved `n` characters to the right. -/
def shift (n : Nat) (s : Span) : Span :=
  { start := s.start + n, stop := s.stop + n,
    start_le_stop := Nat.add_le_add_right s.start_le_stop n }

/-- The part of the range that lies in a text of `n` characters. -/
def clamp (n : Nat) (s : Span) : Span :=
  { start := min s.start n, stop := min s.stop n,
    start_le_stop := by have := s.start_le_stop; omega }

end Span

end HouseStyle
