import HouseStyle.Json
import HouseStyle.Settings.Basic

/-!
# Showing settings

Settings are shown as structured data, which can be read again, or as a page of
text.

* `Settings.toData` and `Settings.json`: the former.
* `Settings.page`: the latter.
-/

namespace HouseStyle

namespace Settings

/-- The settings of a rule as data. -/
def ruleData (s : Settings) (id : RuleId) : Data :=
  let r := s.rule id
  .table
    [("enabled", .bool r.enabled), ("severity", .text r.severity.name),
      ("options", .table ((schema id).entries r.options))]

/-- The settings as data. -/
def toData (s : Settings) : Data :=
  .table
    [("config_path", .ofOption s.path), ("include", .ofTexts s.includes),
      ("exclude", .ofTexts s.excludes), ("output_format", .text s.format.name),
      ("jobs", (s.jobs.map fun n => Data.int n).getD .null),
      ("max_fix_iterations", .int s.maxFixIterations),
      ("rules", .table (RuleId.all.map fun id => (id.name, s.ruleData id)))]

/-- The settings as JSON text. -/
def json (s : Settings) : String :=
  Json.render s.toData

/-- The severity of a rule, or that it is off. -/
def severityLabel (s : Settings) (id : RuleId) : String :=
  if (s.rule id).enabled then (s.rule id).severity.name else "off"

/-- The value of an option on a page. -/
def optionText : Data → String
  | .bool true => "True"
  | .bool false => "False"
  | .int n => toString n
  | .text s => s
  | d => Quoted.list (d.texts?.getD [])

/-- The lines about a rule on a page. -/
def ruleLines (s : Settings) (id : RuleId) : List String :=
  s!"  {id.name}: {(s.severityLabel id).toUpper}" ::
    ((schema id).entries (s.rule id).options).map fun (name, value) =>
      s!"      {name} = {optionText value}"

/-- The patterns of files to leave out, of which a page shows the first five. -/
def excludesText (excludes : List String) : String :=
  ", ".intercalate (excludes.take 5) ++ if 5 < excludes.length then "..." else ""

/-- Where settings were read from. -/
def pathText (s : Settings) : String :=
  s.path.getD "(defaults)"

/-- The settings as a page of text. -/
def page (s : Settings) : String :=
  "\n".intercalate
    (["styleguard Configuration", "".pushn '=' 40, "", s!"Config file: {s.pathText}", "",
      "File Discovery:", "  Include: " ++ ", ".intercalate s.includes,
      s!"  Exclude: {excludesText s.excludes}", "", "Execution:", s!"  Format: {s.format.name}",
      "  Jobs: " ++ (s.jobs.map toString).getD "auto",
      s!"  Max fix iterations: {s.maxFixIterations}", "", "Rules:"] ++
      RuleId.all.flatMap s.ruleLines)

end Settings

end HouseStyle
