import HouseStyle.Rule.Violation

/-!
# Summaries

The number of errors and warnings of a run, and one line that states them.

* `summary` is that line.
-/

namespace HouseStyle

/-- The number of violations of a severity. -/
def countOf (severity : Severity) (violations : List Violation) : Nat :=
  violations.countP fun v => v.severity == severity

/-- A number and a noun, in the plural unless the number is one. -/
def counted (n : Nat) (noun : String) : String :=
  s!"{n} {noun}" ++ if n = 1 then "" else "s"

/-- A number of files. -/
def countedFiles (n : Nat) : String :=
  counted n "file"

/-- The part of a summary about violations of a severity, if there are any. -/
def summaryPart (severity : Severity) (violations : List Violation) : List String :=
  let n := countOf severity violations
  if n = 0 then [] else [counted n severity.name]

/-- One line that states how many errors and warnings there are. -/
def summary (violations : List Violation) : String :=
  match summaryPart .error violations ++ summaryPart .warning violations with
  | [] => "No issues found."
  | parts => "Found " ++ ", ".intercalate parts ++ "."

end HouseStyle
