import HouseStyle.Diff.Blocks
import HouseStyle.Files.Path
import HouseStyle.Text.Blank

/-!
# Unified diffs

The difference of two texts in the unified format: hunks of changed lines with up
to three equal lines around them, each behind a header that says which lines it
covers.

* `Diff.hunks` groups steps, `Diff.unified` prints them.
-/

namespace HouseStyle.Diff

/-- The number of equal lines around a change. -/
def contextLines : Nat := 3

/-- The last lines of a run of equal lines. -/
def lastLines (w : Window) : Window :=
  { w with
    oldStart := max w.oldStart (w.oldStop - contextLines)
    newStart := max w.newStart (w.newStop - contextLines) }

/-- The first lines of a run of equal lines. -/
def firstLines (w : Window) : Window :=
  { w with
    oldStop := min w.oldStop (w.oldStart + contextLines)
    newStop := min w.newStop (w.newStart + contextLines) }

/-- Steps without the equal lines at the start that are too far from a change. -/
def trimStart : List Step → List Step
  | ⟨true, w⟩ :: rest => ⟨true, lastLines w⟩ :: rest
  | steps => steps

/-- Steps without the equal lines at the end that are too far from a change. -/
def trimEnd : List Step → List Step
  | [] => []
  | [⟨true, w⟩] => [⟨true, firstLines w⟩]
  | s :: rest => s :: trimEnd rest

/-- Whether a step is a run of equal lines too long to stand in one hunk. -/
def Step.separates (s : Step) : Bool :=
  s.isEqual && decide (2 * contextLines < s.window.oldStop - s.window.oldStart)

/-- The groups of steps between long runs of equal lines; `hunk` are the steps of
the current one. -/
def groupsFrom (hunk : List Step) : List Step → List (List Step)
  | [] => [hunk]
  | s :: rest =>
    if s.separates then
      (hunk ++ [⟨true, firstLines s.window⟩]) :: groupsFrom [⟨true, lastLines s.window⟩] rest
    else groupsFrom (hunk ++ [s]) rest

/-- The hunks of a list of steps: groups that change something. -/
def hunks (steps : List Step) : List (List Step) :=
  (groupsFrom [] (trimEnd (trimStart steps))).filter fun hunk => hunk.any fun s => !s.isEqual

/-- The lines from one up to another, as a header names them. -/
def rangeText (start stop : Nat) : String :=
  if stop - start = 1 then toString (start + 1)
  else if stop ≤ start then s!"{start},0"
  else s!"{start + 1},{stop - start}"

/-- Some lines behind a mark. -/
def marked (mark : String) (lines : Array String) (start stop : Nat) : String :=
  String.join ((lines.extract start stop).toList.map (mark ++ ·))

/-- The lines of a step. -/
def stepText (p : Pair) (s : Step) : String :=
  let w := s.window
  if s.isEqual then marked " " p.old w.oldStart w.oldStop
  else marked "-" p.old w.oldStart w.oldStop ++ marked "+" p.new w.newStart w.newStop

/-- The header of a hunk that covers a part of both texts. -/
def headerText (w : Window) : String :=
  s!"@@ -{rangeText w.oldStart w.oldStop} +{rangeText w.newStart w.newStop} @@\n"

/-- The part of both texts that a hunk covers. -/
def windowOf (hunk : List Step) : Window :=
  let first := (hunk.head?.map Step.window).getD ⟨0, 0, 0, 0⟩
  let last := (hunk.getLast?.map Step.window).getD ⟨0, 0, 0, 0⟩
  ⟨first.oldStart, last.oldStop, first.newStart, last.newStop⟩

/-- A hunk with its header. -/
def hunkText (p : Pair) (hunk : List Step) : String :=
  headerText (windowOf hunk) ++ String.join (hunk.map (stepText p))

/-- The lines of a text, each with the break that ends it. -/
def linesOf (s : String) : List String :=
  (splitLines s.toList).map String.ofList

/-- The difference of two texts of a file; empty when there is none. -/
def unified (path : String) (old new : String) : String :=
  let p := Pair.ofLines (linesOf old) (linesOf new)
  match hunks (steps p) with
  | [] => ""
  | found => s!"--- a/{path}\n+++ b/{path}\n" ++ String.join (found.map (hunkText p))

end HouseStyle.Diff
