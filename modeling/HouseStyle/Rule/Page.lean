import HouseStyle.Failure
import HouseStyle.Rule.Basic
import HouseStyle.Text.Blank

/-!
# The documentation of a rule

A rule is documented by its description and an example of either kind, and a table
lists rules with their severities.

* `RuleInfo.page` documents a rule; it needs both examples.
* `ruleTable` lists rules.
-/

namespace HouseStyle

/-- A text filled up with spaces to a width. -/
def padded (width : Nat) (s : String) : String :=
  s.pushn ' ' (width - s.length)

namespace RuleInfo

/-- The names of the languages of a rule in order. -/
def languageNames (info : RuleInfo) : List String :=
  (info.languages.map Language.name).mergeSort fun a b => decide (a ≤ b)

/-- The lines of a text under a label: the first beside it and the others below. -/
def labelled (label indent text : String) : Option (List String) :=
  match proseLines text with
  | [] => none
  | first :: rest => some (s!"  {label} {first}" :: rest.map (indent ++ ·))

/-- The indentation of the lines of an example. -/
def exampleIndent : String := "".pushn ' ' 9

/-- The lines about how violations are mended. -/
def fixLines (info : RuleInfo) : List String :=
  if info.fixDescription = "" then [] else ["", s!"  Fix: {info.fixDescription}"]

/-- The lines about the options. -/
def optionLines (info : RuleInfo) : List String :=
  match labelled "Config:" ("".pushn ' ' 10) info.configOptions with
  | some lines => "" :: lines
  | none => []

/-- The documentation of a rule whose severity is given by name. -/
def page (info : RuleInfo) (severity : String) : Except Failure String :=
  match labelled "Bad: " exampleIndent info.badExample,
      labelled "Good:" exampleIndent info.goodExample with
  | some bad, some good =>
    let languages := ", ".intercalate info.languageNames
    let autofix := if info.fixable then "Yes" else "No"
    .ok ("\n".intercalate
      ([s!"{info.id}: {info.name}",
        s!"Category: {info.category} | Languages: {languages}" ++
          s!" | Severity: {severity} | Autofix: {autofix}", ""] ++
        (proseLines info.description).map ("  " ++ ·) ++ "" :: bad ++ good ++
        info.fixLines ++ info.optionLines))
  | _, _ => .error .noExample

end RuleInfo

/-- The columns of a table of rules: identifier, severity, name and whether violations
are mended. -/
def tableLine (id severity name autofix : String) : String :=
  s!"{padded 30 id} {padded 10 severity} {padded 28 name} {padded 4 autofix}"

/-- The line of a table about a rule. -/
def RuleInfo.tableLine (info : RuleInfo) (severity : String) : String :=
  HouseStyle.tableLine info.id severity info.name (if info.fixable then "Yes" else "-")

/-- A table of rules in the order of their identifiers; `severityOf` gives the names
of their severities. -/
def ruleTable (severityOf : String → String) (infos : List RuleInfo) : String :=
  let sorted := infos.mergeSort fun a b => decide (a.id ≤ b.id)
  "\n".intercalate
    ([tableLine "RULE" "SEVERITY" "NAME" "FIX", "".pushn '-' 75] ++
      sorted.map fun info => info.tableLine (severityOf info.id))

end HouseStyle
