import HouseStyle.Check.Walk

/-!
# Reports

The findings about one text become its report: of several violations of one rule
at one span the first counts, rules that take no part are dropped, the settings
decide how grave a violation is, and the rest is put in order. A text that was not
parsed has a report too.

* `aggregate` makes a report of violations.
* `checkParsed` is the report about a parsed text with the findings behind it.
-/

namespace HouseStyle

/-- The first of the violations of each rule at each span; `seen` holds the keys
of those before. -/
def firstOfEach (seen : List (String × Span)) : List Violation → List Violation
  | [] => []
  | v :: rest =>
    if seen.contains v.key then firstOfEach seen rest
    else v :: firstOfEach (v.key :: seen) rest

/-- A violation as the settings want it, or nothing when its rule takes no
part. -/
def settle (settings : Settings) (v : Violation) : Option Violation :=
  if isInternalId v.rule then some v
  else if settings.isEnabled v.rule then
    some { v with severity := (settings.severity? v.rule).getD v.severity }
  else none

/-- The report of some violations. -/
def aggregate (settings : Settings) (violations : List Violation) : Report :=
  { violations :=
      ((firstOfEach [] violations).filterMap (settle settings)).mergeSort
        Violation.precedesOrEqual }

/-- The report of a text that was not parsed. -/
def unparsedReport (u : Unparsed) : Report :=
  { violations :=
      [{ rule := parseErrorId, span := .point u.offset
         location := { start := u.position, stop := none }
         message := u.fault.message, severity := .error, fixable := false, line := u.line }] }

/-- The report of a parsed text that is known not to have a tree. -/
def parseErrorReport (p : Parsed) : Except Failure Report :=
  match p.fault? with
  | some u => .ok (unparsedReport u)
  | none => .error .notUnparsed

/-- The report of a file whose processing failed. -/
def failureReport (message : String) : Report :=
  { violations :=
      [{ rule := ruleCrashId, span := .point 0
         location := { start := { line := 1, column := 1 }, stop := none }
         message, severity := .error, fixable := false, line := none }] }

/-- What is reported about a parsed text, and the findings behind it. -/
structure Checked where
  report : Report
  findings : List Finding

/-- Checks a parsed text. -/
def checkParsed (p : Parsed) (rules : List Rule) (settings : Settings) :
    Except Failure Checked :=
  match p.fault? with
  | some u => .ok { report := unparsedReport u, findings := [] }
  | none =>
    match matchTree p rules settings with
    | .error e => .error e
    | .ok findings =>
      .ok { report := aggregate settings (findings.map Finding.violation), findings }

end HouseStyle
