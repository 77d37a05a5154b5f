import HouseStyle.Text.Span

/-!
# Source texts

A source text is kept exactly as read, as an array of characters, together with
the offsets at which its lines begin. A line ends at a line feed, and a carriage
return right before the line feed belongs to the break. Lines and columns count
from one, offsets from zero.

* `Source.lineStarts_eq`: the line table is determined by the characters, so two
  sources with the same characters are equal.
* `Source.position`: the line and column of an offset.
* `Source.newline`: the break the first line uses, which inserted text repeats.
-/

namespace HouseStyle

/-- The offsets right after the line feeds of `cs`, the first of whose
characters stands at offset `i`. -/
def startsAfterBreaks : Nat → List Char → List Nat
  | _, [] => []
  | i, c :: cs =>
    if c = '\n' then (i + 1) :: startsAfterBreaks (i + 1) cs
    else startsAfterBreaks (i + 1) cs

/-- A text and the offsets at which its lines begin. -/
structure Source where
  chars : Array Char
  lineStarts : Array Nat
  lineStarts_eq : lineStarts = (0 :: startsAfterBreaks 0 chars.toList).toArray

/-- A place in a text, as a reader counts: line and column start at one. -/
structure Position where
  line : Nat
  column : Nat
  deriving DecidableEq

/-- Where a finding begins and, when it covers a known range, where it ends. -/
structure Location where
  start : Position
  stop : Option Position
  deriving DecidableEq

namespace Source

/-- The source text over an array of characters. -/
def ofChars (chars : Array Char) : Source :=
  { chars, lineStarts := _, lineStarts_eq := rfl }

/-- The source text of a string. -/
def ofString (s : String) : Source :=
  ofChars s.toList.toArray

/-- The number of characters. -/
def size (t : Source) : Nat :=
  t.chars.size

/-- The characters between two offsets; an end beyond the text is cut. -/
def sliceChars (t : Source) (start stop : Nat) : List Char :=
  (t.chars.extract start stop).toList

/-- The text between two offsets; an end beyond the text is cut. -/
def slice (t : Source) (start stop : Nat) : String :=
  String.ofList (t.sliceChars start stop)

/-- The text a span covers. -/
def sliceSpan (t : Source) (s : Span) : String :=
  t.slice s.start s.stop

/-- The whole text. -/
def text (t : Source) : String :=
  String.ofList t.chars.toList

/-- The number of lines; an empty text has one. -/
def lineCount (t : Source) : Nat :=
  t.lineStarts.size

/-- The line break that ends the first line: a carriage return and a line feed,
or a line feed alone, which is also the answer for a text without breaks. -/
def newline (t : Source) : String :=
  match t.lineStarts[1]? with
  | some next => if 1 < next ∧ t.chars[next - 2]? = some '\r' then "\r\n" else "\n"
  | none => "\n"

/-- The line that holds an offset: the number of lines that begin at or before
it. Offsets past the end belong to the last line. -/
def lineOf (t : Source) (offset : Nat) : Nat :=
  t.lineStarts.countP (· ≤ offset)

/-- The offset at which a line begins, if the text has that line. -/
def lineStart? (t : Source) (line : Nat) : Option Nat :=
  t.lineStarts[line - 1]?

/-- The offset at which a line begins; the end of the text for a line that it
does not have. -/
def lineStart (t : Source) (line : Nat) : Nat :=
  (t.lineStart? line).getD t.size

/-- The offset after a line and its break. -/
def lineEndWithBreak (t : Source) (line : Nat) : Nat :=
  (t.lineStarts[line]?).getD t.size

/-- The offset after the last character of a line that is not part of its
break. -/
def lineEnd (t : Source) (line : Nat) : Nat :=
  match t.lineStarts[line]? with
  | some next => if 1 < next ∧ t.chars[next - 2]? = some '\r' then next - 2 else next - 1
  | none => t.size

/-- The text of a line without its break. -/
def lineText (t : Source) (line : Nat) : String :=
  t.slice (t.lineStart line) (t.lineEnd line)

/-- The offset of a line and a column that counts from zero, if the text has
that line. -/
def offset? (t : Source) (line column : Nat) : Option Nat :=
  (t.lineStart? line).map (· + column)

/-- The line and column of an offset. -/
def position (t : Source) (offset : Nat) : Position :=
  let line := t.lineOf offset
  { line, column := offset - t.lineStart line + 1 }

/-- The places of both ends of a span. -/
def location (t : Source) (s : Span) : Location :=
  { start := t.position s.start, stop := some (t.position s.stop) }

/-- The spaces and tabs that begin the line of an offset. -/
def indentation (t : Source) (offset : Nat) : String :=
  String.ofList ((t.lineText (t.lineOf offset)).toList.takeWhile fun c => c == ' ' || c == '\t')

end Source

end HouseStyle
