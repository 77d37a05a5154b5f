import HouseStyle.Failure
import HouseStyle.Settings.Options

/-!
# Settings

What a run is told: which files to look at, how to report, and for each rule
whether it is on, how grave its violations are, and its options.

* `Settings.isEnabled` and `Settings.severity?` look a rule up by name; the
  identifiers of the checker itself have no settings.
* `Settings.restrict` narrows a run to some rules.
-/

namespace HouseStyle

/-- The form of a report. -/
inductive OutputFormat where
  | text
  | json
  deriving DecidableEq

/-- The name of a form. -/
def OutputFormat.name : OutputFormat → String
  | .text => "text"
  | .json => "json"

/-- The form of a name. -/
def OutputFormat.ofName? : String → Option OutputFormat
  | "text" => some .text
  | "json" => some .json
  | _ => none

/-- The names of all forms. -/
def OutputFormat.names : List String :=
  ["text", "json"]

/-- The settings of one rule. -/
structure RuleSettings (id : RuleId) where
  enabled : Bool
  severity : Severity
  options : Options id

/-- The settings of a rule that nothing is said about. -/
def RuleSettings.default (id : RuleId) : RuleSettings id :=
  { enabled := true, severity := id.defaultSeverity, options := (schema id).default }

/-- The settings of a run. -/
structure Settings where
  /-- The file they were read from. -/
  path : Option String
  /-- The patterns of files to check. -/
  includes : List String
  /-- The patterns of files to leave out. -/
  excludes : List String
  format : OutputFormat
  /-- The number of workers, unless the machine decides. -/
  jobs : Option Nat
  maxFixIterations : Nat
  rule : (id : RuleId) → RuleSettings id
  /-- The rules that the run is narrowed to. -/
  selected : Option (List RuleId)

namespace Settings

/-- The patterns of files that are checked by default. -/
def defaultIncludes : List String :=
  ["**/*.css", "**/*.scss", "**/*.py"]

/-- The patterns of files that are left out by default. -/
def defaultExcludes : List String :=
  ["**/__pycache__/**", "**/.*", "**/.git/**", "**/.venv/**", "**/venv/**", "**/env/**",
    "**/node_modules/**", "build/**", "dist/**", "*.egg-info/**"]

/-- The number of rounds of fixing by default. -/
def defaultMaxFixIterations : Nat := 10

/-- The settings when nothing is said. -/
def default : Settings :=
  { path := none, includes := defaultIncludes, excludes := defaultExcludes, format := .text,
    jobs := none, maxFixIterations := defaultMaxFixIterations, rule := RuleSettings.default,
    selected := none }

/-- Whether a rule takes part in a run. -/
def runs (s : Settings) (id : RuleId) : Bool :=
  (s.rule id).enabled && (s.selected.map fun ids => ids.contains id).getD true

/-- Whether violations under a name are reported. -/
def isEnabled (s : Settings) (name : String) : Bool :=
  match RuleId.ofName? name with
  | some id => s.runs id
  | none => false

/-- How grave violations under a name are. -/
def severity? (s : Settings) (name : String) : Option Severity :=
  (RuleId.ofName? name).map fun id => (s.rule id).severity

/-- Narrows a run to the rules of the given names, all of which must exist. -/
def restrict (s : Settings) (names : List String) : Except Failure Settings :=
  let unknown := names.filter fun n => (RuleId.ofName? n).isNone
  if unknown.isEmpty then .ok { s with selected := some (names.filterMap RuleId.ofName?) }
  else
    let sorted := unknown.mergeSort fun a b => decide (a ≤ b)
    .error (.settings ("Unknown rule ids: " ++ ", ".intercalate sorted) none)

end Settings

end HouseStyle
