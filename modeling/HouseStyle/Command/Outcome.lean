import HouseStyle.Files.Tree
import HouseStyle.Log

/-!
# What a command comes to

The text that a command prints, the notices beside it, a number that sums it up, and
the files as it leaves them. Only the time that a run takes is not known beforehand.

* `Notice.shown` is a notice as it is printed.
* `Outcome.atLevel` leaves out what a level does not show.
-/

namespace HouseStyle.Command

/-- Something that is said beside the output. -/
inductive Notice where
  /-- The words of the command line make no sense. -/
  | misuse
  /-- A line that is always shown. -/
  | plain (line : String)
  /-- A line of the log. -/
  | log (line : LogLine)
  /-- A run is complete. -/
  | completed
  deriving DecidableEq

namespace Notice

/-- What is said about a command line that makes no sense. -/
def misuseText : String :=
  "Usage: styleguard [OPTIONS] COMMAND [ARGS]...\nTry 'styleguard --help' for help."

/-- The line that says how long a run took. -/
def completedLine (time : String) : LogLine :=
  { level := .info, origin := .runner, message := s!"Completed in {time}s" }

/-- A notice as it is printed, given the time that the run took. -/
def shown (time : String) : Notice → String
  | .misuse => misuseText
  | .plain line => line
  | .log line => line.shown
  | .completed => (completedLine time).shown

/-- Whether a notice is shown when log lines from level `least` on are. -/
def isShown (least : LogLevel) : Notice → Bool
  | .misuse => true
  | .plain _ => true
  | .log line => least.shows line.level
  | .completed => least.shows .info

end Notice

/-- What a command comes to. -/
structure Outcome where
  output : String
  notices : List Notice
  exitCode : Nat
  tree : FileTree

/-- What a command comes to that only prints something. -/
def printed (t : FileTree) (text : String) : Outcome :=
  { output := text ++ "\n", notices := [], exitCode := 0, tree := t }

/-- What a command comes to that is refused. -/
def refused (t : FileTree) (notices : List Notice) : Outcome :=
  { output := "", notices, exitCode := 2, tree := t }

namespace Outcome

/-- The outcome without the notices that a level does not show. -/
def atLevel (o : Outcome) (least : LogLevel) : Outcome :=
  { o with notices := o.notices.filter (Notice.isShown least) }

/-- The outcome with log lines before its notices. -/
def afterLog (o : Outcome) (lines : List LogLine) : Outcome :=
  { o with notices := lines.map Notice.log ++ o.notices }

end Outcome

end HouseStyle.Command
