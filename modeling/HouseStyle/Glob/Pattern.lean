/-!
# Wildcards

A pattern of wildcards matches whole texts: a star stands for any characters, a
question mark for one, and brackets for one out of a set, which lists characters and
ranges and is negated by an exclamation mark. A bracket without its partner stands
for itself.

* `Wildcard.parse` reads a pattern, `Wildcard.matchesAll` applies it.
* `Wildcard.setOf` reads what stands between brackets.
-/

namespace HouseStyle.Wildcard

/-- A set of characters: those listed, and those between the ends of a range. -/
structure CharSet where
  negated : Bool
  singles : List Char
  ranges : List (Char × Char)
  deriving DecidableEq

/-- Whether a set holds a character. -/
def CharSet.contains (s : CharSet) (c : Char) : Bool :=
  (s.singles.contains c || s.ranges.any fun (lo, hi) => decide (lo ≤ c) && decide (c ≤ hi)) !=
    s.negated

/-- A part of a pattern. -/
inductive Part where
  /-- Any characters. -/
  | many
  /-- Any one character. -/
  | one
  | exactly (c : Char)
  | among (s : CharSet)
  deriving DecidableEq

/-- Whether a part that stands for one character stands for this one. -/
def Part.accepts : Part → Char → Bool
  | .many, _ => false
  | .one, _ => true
  | .exactly d, c => c == d
  | .among s, c => s.contains c

/-! ### Sets -/

/-- Cuts what stands between brackets at the hyphens that make ranges. The first
characters of `cs`, `keep` in number, belong to the piece in any case; the piece
so far is given last character first. -/
def cutAtHyphens (piece : List Char) : Nat → List Char → List (List Char)
  | _, [] => [piece.reverse]
  | 0, '-' :: rest => piece.reverse :: cutAtHyphens [] 2 rest
  | 0, c :: rest => cutAtHyphens (c :: piece) 0 rest
  | keep + 1, c :: rest => cutAtHyphens (c :: piece) keep rest

/-- Takes back a cut that leaves nothing behind the last hyphen. -/
def keepLastHyphen : List (List Char) → List (List Char)
  | [] => []
  | [piece] => [piece]
  | [piece, []] => [piece ++ ['-']]
  | piece :: rest => piece :: keepLastHyphen rest

/-- Drops the ranges that run backwards, the last one first, and joins the pieces
they stand between. -/
def dropEmptyRanges : List (List Char) → List (List Char)
  | [] => []
  | piece :: rest =>
    match dropEmptyRanges rest with
    | [] => [piece]
    | next :: more =>
      match piece.getLast?, next.head? with
      | some lo, some hi =>
        if hi < lo then (piece.dropLast ++ next.tail) :: more else piece :: next :: more
      | _, _ => piece :: next :: more

/-- The ranges between neighbouring pieces. -/
def rangesOf : List (List Char) → List (Char × Char)
  | a :: b :: rest =>
    match a.getLast?, b.head? with
    | some lo, some hi => (lo, hi) :: rangesOf (b :: rest)
    | _, _ => rangesOf (b :: rest)
  | _ => []

/-- A set from its pieces, the first of which may begin with the mark of
negation. -/
def setOfPieces : List (List Char) → CharSet
  | ('!' :: piece) :: rest =>
    { negated := true, singles := (piece :: rest).flatten, ranges := rangesOf (piece :: rest) }
  | pieces => { negated := false, singles := pieces.flatten, ranges := rangesOf pieces }

/-- The set that stands between brackets. -/
def setOf (cs : List Char) : CharSet :=
  let first := if cs.head? = some '!' then 2 else 1
  setOfPieces (dropEmptyRanges (keepLastHyphen (cutAtHyphens [] first cs)))

/-- The number of characters that a set takes up before its closing bracket, when
`cs` follows the opening one. A closing bracket that comes first, or first after
the mark of negation, belongs to the set. -/
def setLength? (cs : List Char) : Option Nat :=
  let marks :=
    match cs with
    | '!' :: ']' :: _ => 2
    | '!' :: _ => 1
    | ']' :: _ => 1
    | _ => 0
  let rest := cs.drop marks
  let body := (rest.takeWhile (· != ']')).length
  if body < rest.length then some (marks + body) else none

/-! ### Patterns -/

/-- The parts of a pattern, after `skip` characters that belong to a set already
read. -/
def parseFrom : Nat → List Char → List Part
  | _, [] => []
  | skip + 1, _ :: rest => parseFrom skip rest
  | 0, '*' :: rest => .many :: parseFrom 0 rest
  | 0, '?' :: rest => .one :: parseFrom 0 rest
  | 0, '[' :: rest =>
    match setLength? rest with
    | some n => .among (setOf (rest.take n)) :: parseFrom (n + 1) rest
    | none => .exactly '[' :: parseFrom 0 rest
  | 0, c :: rest => .exactly c :: parseFrom 0 rest

/-- The parts of a pattern. -/
def parse (pattern : List Char) : List Part :=
  parseFrom 0 pattern

/-- Whether parts match a whole text. -/
def matchesAll : List Part → List Char → Bool
  | [], cs => cs.isEmpty
  | .many :: ps, [] => matchesAll ps []
  | .many :: ps, c :: cs => matchesAll ps (c :: cs) || matchesAll (.many :: ps) cs
  | _ :: _, [] => false
  | p :: ps, c :: cs => p.accepts c && matchesAll ps cs
termination_by ps cs => (cs.length, ps.length)

/-- Whether a pattern matches a whole text. -/
def isMatch (pattern text : List Char) : Bool :=
  matchesAll (parse pattern) text

end HouseStyle.Wildcard
