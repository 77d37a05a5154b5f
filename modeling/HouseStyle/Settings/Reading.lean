import HouseStyle.Settings.Basic
import HouseStyle.Text.Casing

/-!
# Reading settings

Settings are read from a table of structured data. Reading never stops at a
problem: every entry yields a value, which is the default where the entry is wrong,
and a list of what is wrong with it. Settings are accepted when nothing is wrong.

* `Settings.problems` lists what is wrong, entry by entry.
* `Settings.ofEntries` are the settings of a table, or all its problems.
-/

namespace HouseStyle

/-- A value that was read and what is wrong with its spelling. -/
structure Reading (α : Type) where
  value : α
  problems : List String

namespace Reading

variable {α : Type}

/-- A value with nothing wrong. -/
def fine (value : α) : Reading α :=
  { value, problems := [] }

/-- A value in the place of something wrong. -/
def instead (value : α) (problem : String) : Reading α :=
  { value, problems := [problem] }

end Reading

/-- The keys of a list of entries that are not among the known ones, in order. -/
def unknownKeys (known : List String) (entries : List (String × Data)) : List String :=
  ((entries.map Prod.fst).filter fun k => !known.contains k).mergeSort fun a b => decide (a ≤ b)

/-- The names that a message offers. -/
def oneOf (names : List String) : String :=
  s!"must be one of {Quoted.list names}"

namespace Settings

/-! ### The settings of one rule -/

/-- A severity by its name in any case. -/
def readSeverity (where_ : String) (default : Severity) (value : Data) : Reading Severity :=
  match value.text?.bind fun s => Severity.ofName? (lower s) with
  | some severity => .fine severity
  | none => .instead default s!"{where_} {oneOf Severity.names}"

/-- The options of a rule with one entry written into them. -/
def readOption {α : Type} (where_ : String) (s : OptionSchema α) (o : α) (name : String)
    (value : Data) : Reading α :=
  match s.field? name with
  | none => .instead o s!"{where_}: unknown option '{name}'"
  | some f =>
    match f.write value o with
    | .ok o' => .fine o'
    | .error problem => .instead o s!"{where_}.{name} {problem}"

/-- The options of a rule with a list of entries written into them in order. -/
def readEntries {α : Type} (where_ : String) (s : OptionSchema α) (o : α) :
    List (String × Data) → Reading α
  | [] => .fine o
  | (name, value) :: rest =>
    let first := readOption where_ s o name value
    let later := readEntries where_ s first.value rest
    { value := later.value, problems := first.problems ++ later.problems }

/-- The options of a rule. -/
def readOptions {α : Type} (where_ : String) (s : OptionSchema α) (value : Data) : Reading α :=
  match value with
  | .table entries =>
    let read := readEntries where_ s s.default entries
    { value := read.value
      problems := read.problems ++ (s.problems read.value).map fun p => s!"{where_}: {p}" }
  | _ => .instead s.default s!"{where_} must be a table"

/-- Whether a rule is on. -/
def readEnabled (where_ : String) (default : Bool) : Option Data → Reading Bool
  | none => .fine default
  | some (.bool b) => .fine b
  | some _ => .instead default s!"{where_} must be a boolean"

/-- The keys of the table of a rule. -/
def ruleKeys : List String := ["enabled", "severity", "options"]

/-- The settings of a rule from a table. -/
def readRuleTable (id : RuleId) (entries : List (String × Data)) : Reading (RuleSettings id) :=
  let where_ := s!"rules.{id.name}"
  let unknown := (unknownKeys ruleKeys entries).map fun k => s!"{where_}: unknown key '{k}'"
  let enabled := readEnabled s!"{where_}.enabled" true (Data.lookup "enabled" entries)
  let severity :=
    match Data.lookup "severity" entries with
    | none => Reading.fine id.defaultSeverity
    | some value => readSeverity s!"{where_}.severity" id.defaultSeverity value
  let options :=
    readOptions s!"{where_}.options" (schema id) ((Data.lookup "options" entries).getD (.table []))
  { value := { enabled := enabled.value, severity := severity.value, options := options.value }
    problems := unknown ++ enabled.problems ++ severity.problems ++ options.problems }

/-- The settings of a rule: a table, the name of a severity, or `off`. -/
def readRule (id : RuleId) (value : Data) : Reading (RuleSettings id) :=
  let default := RuleSettings.default id
  match value with
  | .text "off" => .fine { default with enabled := false }
  | .text s =>
    let severity := readSeverity s!"rules.{id.name}" default.severity (.text s)
    { value := { default with severity := severity.value }, problems := severity.problems }
  | .table entries => readRuleTable id entries
  | _ => .instead default s!"rules.{id.name} must be a table or a severity string"

/-- What is wrong with an entry of the table of rules. -/
def ruleProblems (entry : String × Data) : List String :=
  match RuleId.ofName? entry.1 with
  | none => [s!"Unknown rule id: {entry.1}"]
  | some id => (readRule id entry.2).problems

/-- The settings of all rules, each from its own entry. -/
def readRules : Data → Reading ((id : RuleId) → RuleSettings id)
  | .table entries =>
    { value := fun id =>
        match Data.lookup id.name entries with
        | some value => (readRule id value).value
        | none => .default id
      problems := entries.flatMap ruleProblems }
  | _ => .instead RuleSettings.default "rules must be a table"

/-! ### The other settings -/

/-- A list of patterns. -/
def readPatterns (key : String) (default : List String) : Option Data → Reading (List String)
  | none => .fine default
  | some value =>
    match value.texts? with
    | some patterns => .fine patterns
    | none => .instead default s!"{key} must be a list of strings"

/-- The form of the report. -/
def readFormat : Option Data → Reading OutputFormat
  | none => .fine .text
  | some value =>
    match value.text?.bind OutputFormat.ofName? with
    | some format => .fine format
    | none => .instead .text s!"output_format {oneOf OutputFormat.names}"

/-- A positive number. -/
def positive? : Data → Option Nat
  | .int n => if 1 ≤ n then some n.toNat else none
  | _ => none

/-- The number of workers. -/
def readJobs : Option Data → Reading (Option Nat)
  | none | some .null => .fine none
  | some value =>
    match positive? value with
    | some n => .fine (some n)
    | none => .instead none "jobs must be a positive integer"

/-- The bound on the rounds of fixing. -/
def readMaxFixIterations : Option Data → Reading Nat
  | none => .fine defaultMaxFixIterations
  | some value =>
    match positive? value with
    | some n => .fine n
    | none => .instead defaultMaxFixIterations "max_fix_iterations must be a positive integer"

/-- The keys of the settings. -/
def topLevelKeys : List String :=
  ["include", "exclude", "output_format", "jobs", "max_fix_iterations", "rules"]

/-- What is wrong with the keys of the settings. -/
def keyProblems (entries : List (String × Data)) : List String :=
  match unknownKeys topLevelKeys entries with
  | [] => []
  | unknown => ["Unknown keys: " ++ ", ".intercalate unknown]

/-- The settings of a table. -/
def read (path : Option String) (entries : List (String × Data)) : Reading Settings :=
  let get (key : String) : Option Data := Data.lookup key entries
  let includes := readPatterns "include" defaultIncludes (get "include")
  let excludes := readPatterns "exclude" defaultExcludes (get "exclude")
  let format := readFormat (get "output_format")
  let jobs := readJobs (get "jobs")
  let rounds := readMaxFixIterations (get "max_fix_iterations")
  let rules := readRules ((get "rules").getD (.table []))
  { value :=
      { path, includes := includes.value, excludes := excludes.value, format := format.value
        jobs := jobs.value, maxFixIterations := rounds.value, rule := rules.value, selected := none }
    problems :=
      keyProblems entries ++ includes.problems ++ excludes.problems ++ format.problems ++
        jobs.problems ++ rounds.problems ++ rules.problems }

/-- What is wrong with a table of settings. -/
def problems (entries : List (String × Data)) : List String :=
  (read none entries).problems

/-- The message about a list of problems. -/
def problemsMessage (problems : List String) : String :=
  "Configuration errors:\n" ++ "\n".intercalate (problems.map fun p => s!"  - {p}")

/-- The settings of a table, if nothing is wrong with it. -/
def ofEntries (path : Option String) (entries : List (String × Data)) : Except Failure Settings :=
  let result := read path entries
  if result.problems.isEmpty then .ok result.value
  else .error (.settings (problemsMessage result.problems) path)

end Settings

end HouseStyle
