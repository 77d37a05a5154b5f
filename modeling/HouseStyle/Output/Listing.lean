import HouseStyle.Json
import HouseStyle.Rule.Violation
import HouseStyle.Settings.Basic

/-!
# Listings of violations

The violations of several files, in the order of their paths, as lines of text or as
a JSON document.

* `Listing.text` and `Listing.json` are the two forms.
-/

namespace HouseStyle

/-- The report about one file. -/
structure FileReport where
  path : String
  report : Report

namespace Listing

/-- The reports in the order of their paths. -/
def sorted (reports : List FileReport) : List FileReport :=
  reports.mergeSort fun a b => decide (a.path ≤ b.path)

/-- The line about a violation. -/
def line (path : String) (v : Violation) : String :=
  s!"{path}:{v.location.start.line}:{v.location.start.column} [{v.severity.name}] {v.rule} " ++
    v.message

/-- One line for each violation. -/
def text (reports : List FileReport) : String :=
  "\n".intercalate ((sorted reports).flatMap fun r => r.report.violations.map (line r.path))

/-- A violation as data. -/
def violationData (v : Violation) : Data :=
  .table
    [("ruleId", .text v.rule),
      ("range", .table
        [("start", .int v.span.start), ("end", .int v.span.stop),
          ("line", .int v.location.start.line), ("column", .int v.location.start.column)]),
      ("severity", .text v.severity.name), ("message", .text v.message),
      ("fixable", .bool v.fixable)]

/-- The report about a file as data. -/
def fileData (r : FileReport) : Data :=
  .table [("path", .text r.path), ("violations", .list (r.report.violations.map violationData))]

/-- A JSON document with all violations. -/
def json (reports : List FileReport) : String :=
  Json.render (.table [("files", .list ((sorted reports).map fileData))])

/-- The listing in a form. -/
def render (format : OutputFormat) (reports : List FileReport) : String :=
  match format with
  | .text => text reports
  | .json => json reports

end Listing

end HouseStyle
