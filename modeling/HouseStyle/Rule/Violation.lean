import HouseStyle.Rule.Identity
import HouseStyle.Text.Source

/-!
# Violations

A single place where a text breaks a rule, and the report of all of them for one
text.

* `Violation.key` is what makes two violations the same.
* `Report.hasErrors` decides the outcome of a run.
-/

namespace HouseStyle

/-- A place where a text breaks a rule. -/
structure Violation where
  /-- The rule's name, or an identifier of the checker itself. -/
  rule : String
  span : Span
  location : Location
  message : String
  severity : Severity
  fixable : Bool
  /-- The line that holds the start, where the text is known. -/
  line : Option String
  deriving DecidableEq

namespace Violation

/-- What two reports of the same place have in common. -/
def key (v : Violation) : String × Span :=
  (v.rule, v.span)

/-- The order of a report: by start, rule, end and message. -/
def precedesOrEqual (a b : Violation) : Bool :=
  decide (a.span.start < b.span.start) ||
    (a.span.start == b.span.start &&
      (decide (a.rule < b.rule) ||
        (a.rule == b.rule &&
          (decide (a.span.stop < b.span.stop) ||
            (a.span.stop == b.span.stop && decide (a.message ≤ b.message))))))

end Violation

/-- The violations of one text in order. -/
structure Report where
  violations : List Violation
  deriving DecidableEq

/-- Whether a report holds an error. -/
def Report.hasErrors (r : Report) : Bool :=
  r.violations.any fun v => v.severity == .error

end HouseStyle
