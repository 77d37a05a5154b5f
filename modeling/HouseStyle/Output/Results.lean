import HouseStyle.Diff.Unified
import HouseStyle.Output.Listing
import HouseStyle.Output.Summary
import HouseStyle.Run.Project

/-!
# What a run prints

The violations of a run as a listing, with a summary below it unless the listing is
for programs, and the difference that fixing makes to each file.

* `RunResult.text` is the listing with its summary.
* `RunResult.differences` are the differences.
-/

namespace HouseStyle

namespace RunResult

/-- The reports of the files. -/
def reports (r : RunResult) : List FileReport :=
  r.files.map fun f => { path := r.tree.display f.place, report := f.report }

/-- How many files were checked. -/
def checkedLine (r : RunResult) : String :=
  s!"Checked {countedFiles r.files.length}."

/-- The listing, and below it the summary and the number of files. -/
def page (r : RunResult) : String :=
  let listing := Listing.text r.reports
  "\n".intercalate
    ((if listing = "" then [] else [listing]) ++ [summary r.violations, r.checkedLine])

/-- What a run prints in a form. -/
def text (r : RunResult) (format : OutputFormat) : String :=
  match format with
  | .text => r.page
  | .json => Listing.json r.reports

/-- The difference that fixing makes to a file. -/
def difference (r : RunResult) (f : FileResult) : String :=
  match f.given, f.fixed with
  | some old, some new => Diff.unified (r.tree.display f.place) old.text new.text
  | _, _ => ""

/-- The differences that fixing makes. -/
def differences (r : RunResult) : String :=
  String.join ((r.files.filter FileResult.changed).map r.difference)

end RunResult

end HouseStyle
