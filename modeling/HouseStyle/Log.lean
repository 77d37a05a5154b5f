/-!
# Log lines

What a run says about its own progress. A line has a level, the part of the
program that speaks and a message; which lines are shown is decided by the level
alone.

* `LogLevel.shows` compares levels.
-/

namespace HouseStyle

/-- How important a line is. -/
inductive LogLevel where
  | debug
  | info
  | warning
  | error
  deriving DecidableEq

namespace LogLevel

/-- The place of a level among the levels. -/
def rank : LogLevel → Nat
  | .debug => 0
  | .info => 1
  | .warning => 2
  | .error => 3

/-- Whether a line is shown when lines from level `least` on are. -/
def shows (least line : LogLevel) : Bool :=
  decide (least.rank ≤ line.rank)

end LogLevel

/-- The part of the program that a line comes from. -/
inductive LogSource where
  | settings
  | scanner
  | checker
  | fixer
  | runner
  deriving DecidableEq

/-- The name of a part in the log. -/
def LogSource.name : LogSource → String
  | .settings => "styleguard.config"
  | .scanner => "styleguard.scanner"
  | .checker => "styleguard.engine"
  | .fixer => "styleguard.fixer"
  | .runner => "styleguard.runner"

/-- A line of the log. -/
structure LogLine where
  level : LogLevel
  origin : LogSource
  message : String
  deriving DecidableEq

/-- A line as it is printed. -/
def LogLine.shown (l : LogLine) : String :=
  s!"{l.origin.name}: {l.message}"

end HouseStyle
