import HouseStyle.Command.Help
import HouseStyle.Command.Outcome
import HouseStyle.Command.Request
import HouseStyle.Output.Results
import HouseStyle.Rule.Page
import HouseStyle.Settings.Display
import HouseStyle.Settings.File
import HouseStyle.Text.Casing

/-!
# Carrying requests out

A request is carried out in a folder of a tree of files. Every command reads the
settings first; settings that cannot be read end it.

* `Request.execute` carries a request out.
* `execute` does so for the words of a command line.
-/

namespace HouseStyle.Command

/-- The lines that report settings that are not valid. -/
def settingsNotices (message : String) (path : Option String) : List Notice :=
  .plain s!"Error: {message}" ::
    match path with
    | some p => [.plain s!"  in: {p}"]
    | none => []

/-- Goes on with settings; settings that are not valid end the command. -/
def withSettings (t : FileTree) (loaded : Except Failure Settings)
    (next : Settings → Except Failure Outcome) : Except Failure Outcome :=
  match loaded with
  | .ok s => next s
  | .error (.settings message path) => .ok (refused t (settingsNotices message path))
  | .error f => .error f

/-! ### Showing settings -/

/-- Shows settings, or only says that they are valid. -/
def showSettings (t : FileTree) (s : Settings) (validate json : Bool) : Outcome :=
  printed t
    (if validate then s!"Configuration valid: {s.pathText}"
     else if json then s.json
     else s.page)

/-! ### Documenting rules -/

/-- The severity of a rule that is given by name. -/
def severityOf (s : Settings) (rule : String) : String :=
  ((RuleId.ofName? rule).map s.severityLabel).getD "off"

/-- Documents one rule, whose name may be written in capitals. -/
def explainRule (t : FileTree) (s : Settings) (rule : String) : Except Failure Outcome :=
  match ruleNamed (lower rule) with
  | .error _ => .ok (refused t [.plain s!"Error: Unknown rule id '{rule}'."])
  | .ok r => (r.info.page (severityOf s r.id)).map (printed t)

/-- What is printed when no rule is named. -/
def explainUsage : String :=
  "Usage: styleguard explain <RULE_ID> or styleguard explain --all"

/-- Documents all rules or one. -/
def explainRules (t : FileTree) (s : Settings) (rule : Option String) (all : Bool) :
    Except Failure Outcome :=
  if all then .ok (printed t (ruleTable (severityOf s) (allRules.map Rule.info)))
  else
    match rule with
    | none => .ok { printed t explainUsage with exitCode := 2 }
    | some name => explainRule t s name

/-! ### Checking files -/

/-- The names in a list with commas between them. -/
def namesOf (s : String) : List String :=
  ((piecesOf ',' s.toList).map fun piece => trim (String.ofList piece)).filter (· != "")

/-- The settings after what a request says about them. -/
def overridden (s : Settings) (r : LintRequest) : Except Failure Settings :=
  let s := { s with format := r.format.getD s.format, jobs := r.jobs.or s.jobs }
  match r.rules with
  | some names => s.restrict (namesOf names)
  | none => .ok s

/-- The places to check; the folder itself when no path is given. -/
def LintRequest.places (r : LintRequest) (folder : Place) : List Place :=
  if r.paths.isEmpty then [folder]
  else r.paths.map fun p => FileTree.resolve folder (.ofString p)

/-- What checking prints: the differences where they are asked for, the results, and
how many files were fixed. -/
def lintOutput (result : RunResult) (format : OutputFormat) (r : LintRequest) : String :=
  let text := result.text format
  (if r.diff then result.differences else "") ++ (if text = "" then "" else text ++ "\n") ++
    if r.fix && format == .text then s!"Fixed {countedFiles result.filesChanged}.\n" else ""

/-- Checks files. -/
def lintFiles (t : FileTree) (folder : Place) (s : Settings) (r : LintRequest) : Outcome :=
  let options := { fix := r.fix || r.diff, write := r.fix }
  let result := run t s options (r.places folder) false
  { output := lintOutput result s.format r
    notices := result.log.map Notice.log ++ [.completed]
    exitCode := result.exitCode
    tree := result.tree }

/-- Whether a path that is written as given leads to something. -/
def leadsSomewhere (t : FileTree) (folder : Place) (path : String) : Bool :=
  let start := if path.startsWith "/" then [] else folder
  path != "" && (t.follow start ((piecesOf '/' path.toList).map String.ofList)).isOk

/-! ### Carrying out -/

/-- The settings file that a task names itself, or else the one that is named before
it. -/
def Task.settingsFile (task : Task) (named : Option Path) : Option Path :=
  match task with
  | .lint r => r.config.or named
  | _ => named

/-- Whether the paths that a task names exist. -/
def Task.isPossible (t : FileTree) (folder : Place) : Task → Bool
  | .lint r => r.paths.all (leadsSomewhere t folder)
  | _ => true

/-- Carries a task out under settings. -/
def Task.executeWith (t : FileTree) (folder : Place) (task : Task) (s : Settings) :
    Except Failure Outcome :=
  match task with
  | .config validate json => .ok (showSettings t s validate json)
  | .explain rule all => explainRules t s rule all
  | .lint r => withSettings t (overridden s r) fun s => .ok (lintFiles t folder s r)

/-- Carries a task out. -/
def Task.execute (t : FileTree) (folder : Place) (named : Option Path) (task : Task) :
    Except Failure Outcome :=
  let (log, loaded) := loadSettings t folder (task.settingsFile named)
  (withSettings t loaded (task.executeWith t folder)).map fun o => o.afterLog log

/-- Carries a request out. -/
def Request.execute (t : FileTree) (folder : Place) : Request → Except Failure Outcome
  | .version => .ok (printed t s!"{programName}, version {programVersion}")
  | .help command => .ok (printed t (helpPage command))
  | .run named level task =>
    if task.isPossible t folder then
      (task.execute t folder named).map fun o => o.atLevel level
    else .ok (refused t [.misuse])

end Command

open Command in
/-- Carries the words of a command line out. -/
def execute (t : FileTree) (folder : Place) (words : List String) : Except Failure Outcome :=
  match Request.ofWords? words with
  | some r => r.execute t folder
  | none => .ok (refused t [.misuse])

end HouseStyle
