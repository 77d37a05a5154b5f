import HouseStyle.Run.File

/-!
# A run over many files

The files below some inputs are processed, each on its own and in any order; the
results are put in the order of their places. A run that is cancelled leaves out the
files that have not begun.

* `runFiles` processes some files in the order in which they finish.
* `run` finds the files and processes them.
* `RunResult.exitCode` sums a run up.
-/

namespace HouseStyle

/-- What a run comes to. -/
structure RunResult where
  files : List FileResult
  /-- The files as the run leaves them. -/
  tree : FileTree
  log : List LogLine

namespace RunResult

/-- The violations of all files. -/
def violations (r : RunResult) : List Violation :=
  r.files.flatMap fun f => f.report.violations

/-- The number of files whose text fixing changed. -/
def filesChanged (r : RunResult) : Nat :=
  r.files.countP FileResult.changed

/-- Two when there are files and none can be parsed, else one when there is an
error, else zero. -/
def exitCode (r : RunResult) : Nat :=
  if !r.files.isEmpty && r.files.all FileResult.parseFailed then 2
  else if r.violations.any fun v => v.severity == .error then 1
  else 0

end RunResult

/-- The tree after the files of some runs are written. -/
def writeAll (t : FileTree) (runs : List FileRun) : FileTree :=
  runs.foldl
    (fun t r =>
      match r.written with
      | some bytes => t.write r.result.place bytes
      | none => t) t

/-- Processes some files, which finish in the given order. -/
def runFiles (t : FileTree) (s : Settings) (o : RunOptions) (finished : List Place) : RunResult :=
  let runs := finished.map (runFile t s o)
  { files := (runs.map FileRun.result).mergeSort fun a b => componentsLe a.place b.place
    tree := writeAll t runs
    log := runs.flatMap FileRun.log }

/-- A line of the runner's log. -/
def runnerLine (message : String) : LogLine :=
  { level := .info, origin := .runner, message }

/-- Processes the files below some inputs; a run that is cancelled before it starts
processes none. -/
def run (t : FileTree) (s : Settings) (o : RunOptions) (inputs : List Place) (cancelled : Bool) :
    RunResult :=
  let files := scan t s inputs
  let begun := if cancelled then [] else files
  let r := runFiles t s o begun
  let skipped := files.length - begun.length
  { r with
    log := scanLog t s inputs ++ [runnerLine s!"Found {files.length} files"] ++ r.log ++
      if 0 < skipped then [runnerLine s!"Cancelled, skipped {skipped} files"] else [] }

end HouseStyle
