import HouseStyle.Check.Report

/-!
# The edits of a report

Each fixable violation of a report is mended by the rule that found it first. A
rule that crashes while mending costs only its own edit, and an edit that changes
nothing or ends past the text is dropped.

* `mendable` are the findings that are asked for an edit.
* `fixEdits` are the edits they give.
-/

namespace HouseStyle

/-- The keys of the fixable violations of a report. -/
def fixableKeys (r : Report) : List (String × Span) :=
  (r.violations.filter Violation.fixable).map Violation.key

/-- The first finding of each of the keys `wanted`; `seen` holds the keys of the
findings before. -/
def firstFindings (wanted seen : List (String × Span)) : List Finding → List Finding
  | [] => []
  | f :: rest =>
    let key := f.violation.key
    if wanted.contains key && !seen.contains key then f :: firstFindings wanted (key :: seen) rest
    else firstFindings wanted seen rest

/-- The findings that are asked for an edit. -/
def mendable (c : Checked) : List Finding :=
  firstFindings (fixableKeys c.report) [] c.findings

namespace Finding

/-- What the rule of a finding offers to mend it. -/
def offer (f : Finding) : Except Crash (Option Edit) :=
  f.rule.fix f.violation f.node f.context

/-- The edit that a finding contributes to a text: one that the rule offers, that
ends in the text and changes it. -/
def edit? (t : Source) (f : Finding) : Option Edit :=
  match f.offer with
  | .ok (some e) => if e.span.stop ≤ t.size ∧ t.sliceSpan e.span ≠ e.replacement then some e else none
  | _ => none

/-- The message about the rule of a finding when it crashes while mending. -/
def offerCrash? (f : Finding) : Option String :=
  match f.offer with
  | .error crash => some (crashMessage f.rule f.node crash)
  | _ => none

end Finding

/-- The edits that mend what a check of a text found. -/
def fixEdits (t : Source) (c : Checked) : List Edit :=
  (mendable c).filterMap (Finding.edit? t)

/-- The edits of which at most one in each conflict is performed. -/
def selectedEdits (t : Source) (c : Checked) : List Edit :=
  Edit.select (fixEdits t c)

end HouseStyle
