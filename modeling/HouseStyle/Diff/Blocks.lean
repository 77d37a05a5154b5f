/-!
# Matching blocks

What two lists of lines have in common, as blocks of equal lines in order. The
longest block is found first, of several the one that begins earliest, and then the
blocks before and after it. In a long text a line that occurs too often begins no
block, though a block may grow over it.

* `Diff.blocks` are the blocks, and `Diff.steps` the runs of equal and of different
  lines between which they alternate.
-/

namespace HouseStyle.Diff

/-- A run of equal lines: where it begins in either text and how many there are. -/
structure Block where
  old : Nat
  new : Nat
  size : Nat
  deriving DecidableEq

/-- A part of both texts, from one line up to another. -/
structure Window where
  oldStart : Nat
  oldStop : Nat
  newStart : Nat
  newStop : Nat
  deriving DecidableEq

/-- Two texts as lines, with the places in the new one at which each line of the old
one may begin a block. -/
structure Pair where
  old : Array String
  new : Array String
  places : Array (List Nat)

/-! ### Places -/

/-- The number of lines from which on a text is long. -/
def longText : Nat := 200

/-- Whether a line occurs too often in a text to begin a block. -/
def isPopular (new : Array String) (line : String) : Bool :=
  decide (longText ≤ new.size) && decide (new.size / 100 + 1 < new.count line)

/-- The places at which a line may begin a block. -/
def placesOf (new : Array String) (line : String) : List Nat :=
  if isPopular new line then [] else (List.range new.size).filter fun j => new[j]? == some line

/-- Two texts as lines. -/
def Pair.ofLines (old new : List String) : Pair :=
  let news := new.toArray
  { old := old.toArray, new := news, places := (old.map (placesOf news)).toArray }

/-! ### The longest block -/

/-- The lengths of the blocks that end in one line of the old text, by the line of
the new text that they end in. -/
abbrev Row := List (Nat × Nat)

/-- The length of the block that ends right before a line of the new text. -/
def lengthBefore (row : Row) : Nat → Nat
  | 0 => 0
  | j + 1 => ((row.find? fun e => e.1 == j).map Prod.snd).getD 0

/-- The row of line `i` of the old text and the longest block so far; `previous` is
the row before it and `js` are the places to look at. -/
def extendRow (previous : Row) (i : Nat) : List Nat → Block → Row × Block
  | [], best => ([], best)
  | j :: js, best =>
    let size := lengthBefore previous j + 1
    let best' := if best.size < size then ⟨i + 1 - size, j + 1 - size, size⟩ else best
    let (row, last) := extendRow previous i js best'
    ((j, size) :: row, last)

/-- The longest block in the rows of the lines `is` of the old text. -/
def longestFrom (p : Pair) (w : Window) (previous : Row) : List Nat → Block → Block
  | [], best => best
  | i :: is, best =>
    let js := (p.places[i]?.getD []).filter fun j => decide (w.newStart ≤ j) && decide (j < w.newStop)
    let (row, best') := extendRow previous i js best
    longestFrom p w row is best'

/-- Whether a line of the old text equals one of the new text. -/
def Pair.agree (p : Pair) (i j : Nat) : Bool :=
  match p.old[i]?, p.new[j]? with
  | some a, some b => a == b
  | _, _ => false

/-- A block with the equal lines right before it. -/
def growBack (p : Pair) (w : Window) : Nat → Nat → Nat → Block
  | i + 1, j + 1, size =>
    if w.oldStart < i + 1 ∧ w.newStart < j + 1 ∧ p.agree i j then growBack p w i j (size + 1)
    else ⟨i + 1, j + 1, size⟩
  | i, j, size => ⟨i, j, size⟩

/-- A block with the equal lines right after it, of which there are at most so
many. -/
def growForward (p : Pair) (w : Window) : Nat → Block → Block
  | 0, b => b
  | limit + 1, b =>
    if b.old + b.size < w.oldStop ∧ b.new + b.size < w.newStop ∧
        p.agree (b.old + b.size) (b.new + b.size) then
      growForward p w limit { b with size := b.size + 1 }
    else b

/-- The longest block in a part of both texts. -/
def longest (p : Pair) (w : Window) : Block :=
  let lines := List.range' w.oldStart (w.oldStop - w.oldStart)
  let best := longestFrom p w [] lines ⟨w.oldStart, w.newStart, 0⟩
  growForward p w p.old.size (growBack p w best.old best.new best.size)

/-! ### All blocks -/

/-- The blocks in a part of both texts whose old lines are at most so many. -/
def blocksIn (p : Pair) : Nat → Window → List Block
  | 0, _ => []
  | limit + 1, w =>
    let b := longest p w
    if b.size = 0 then []
    else
      let before :=
        if w.oldStart < b.old ∧ w.newStart < b.new then
          blocksIn p limit { w with oldStop := b.old, newStop := b.new }
        else []
      let after :=
        if b.old + b.size < w.oldStop ∧ b.new + b.size < w.newStop then
          blocksIn p limit { w with oldStart := b.old + b.size, newStart := b.new + b.size }
        else []
      before ++ b :: after

/-- Blocks that touch as one. -/
def join : List Block → List Block
  | [] => []
  | b :: rest =>
    match join rest with
    | next :: more =>
      if b.old + b.size = next.old ∧ b.new + b.size = next.new then
        { b with size := b.size + next.size } :: more
      else b :: next :: more
    | [] => [b]

/-- The blocks of two texts. -/
def blocks (p : Pair) : List Block :=
  join (blocksIn p p.old.size ⟨0, p.old.size, 0, p.new.size⟩)

/-! ### Steps -/

/-- A run of lines that are equal, or of old lines that new ones replace. -/
structure Step where
  isEqual : Bool
  window : Window
  deriving DecidableEq

/-- The steps from a line of either text on. -/
def stepsFrom (p : Pair) (i j : Nat) : List Block → List Step
  | [] => if i < p.old.size ∨ j < p.new.size then [⟨false, ⟨i, p.old.size, j, p.new.size⟩⟩] else []
  | b :: rest =>
    let gap := if i < b.old ∨ j < b.new then [⟨false, ⟨i, b.old, j, b.new⟩⟩] else []
    gap ++ ⟨true, ⟨b.old, b.old + b.size, b.new, b.new + b.size⟩⟩ ::
      stepsFrom p (b.old + b.size) (b.new + b.size) rest

/-- The steps that lead from the old text to the new one. -/
def steps (p : Pair) : List Step :=
  stepsFrom p 0 0 (blocks p)

end HouseStyle.Diff
