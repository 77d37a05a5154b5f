/-!
# Blanks and line breaks

Three notions of white space, each with its own users:

* `isBlank`: the white space of any script, which `trim` removes from both ends.
* `isStyleBlank`: the five characters that a stylesheet treats as white space.
* `isLineBreak`: the characters that end a line of prose; `splitLines` cuts a
  text after each of them and keeps the pair of carriage return and line feed
  together.
-/

namespace HouseStyle

/-- White space of any script. -/
def isBlank (c : Char) : Bool :=
  let n := c.toNat
  (decide (9 ≤ n) && decide (n ≤ 13)) || (decide (28 ≤ n) && decide (n ≤ 32)) ||
    n == 0x85 || n == 0xA0 || n == 0x1680 || (decide (0x2000 ≤ n) && decide (n ≤ 0x200A)) ||
    n == 0x2028 || n == 0x2029 || n == 0x202F || n == 0x205F || n == 0x3000

/-- White space of a stylesheet: space, tab, carriage return, line feed, form
feed. -/
def isStyleBlank (c : Char) : Bool :=
  c == ' ' || c == '\t' || c == '\r' || c == '\n' || c == '\x0c'

/-- A list without the members at either end that satisfy `p`. -/
def dropEnds {α : Type} (p : α → Bool) (items : List α) : List α :=
  ((items.dropWhile p).reverse.dropWhile p).reverse

/-- The characters of a text without the blanks at either end. -/
def trimChars (cs : List Char) : List Char :=
  dropEnds isBlank cs

/-- A text without the blanks at either end. -/
def trim (s : String) : String :=
  String.ofList (trimChars s.toList)

/-- Whether a text holds nothing but blanks. -/
def isBlankText (s : String) : Bool :=
  s.toList.all isBlank

/-- Characters that end a line of prose. -/
def isLineBreak (c : Char) : Bool :=
  let n := c.toNat
  (decide (10 ≤ n) && decide (n ≤ 13)) || (decide (0x1C ≤ n) && decide (n ≤ 0x1E)) ||
    n == 0x85 || n == 0x2028 || n == 0x2029

/-- The lines of `cs`, each with its break, when `line` holds the characters of
the current line, last one first. -/
def splitLinesFrom (line : List Char) : List Char → List (List Char)
  | [] => if line.isEmpty then [] else [line.reverse]
  | '\r' :: '\n' :: rest => ('\n' :: '\r' :: line).reverse :: splitLinesFrom [] rest
  | c :: rest =>
    if isLineBreak c then (c :: line).reverse :: splitLinesFrom [] rest
    else splitLinesFrom (c :: line) rest

/-- The lines of a text, each with the break that ends it. -/
def splitLines (cs : List Char) : List (List Char) :=
  splitLinesFrom [] cs

/-- A line without the break that ends it. -/
def dropBreak (line : List Char) : List Char :=
  line.takeWhile fun c => !isLineBreak c

/-- The lines of a text without their breaks. -/
def proseLines (s : String) : List String :=
  (splitLines s.toList).map fun line => String.ofList (dropBreak line)

end HouseStyle
