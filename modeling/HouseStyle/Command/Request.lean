import HouseStyle.Command.Basic
import HouseStyle.Files.Path
import HouseStyle.Log
import HouseStyle.Settings.Basic
import HouseStyle.Text.Numeral

/-!
# Requests

What a command line asks for. Help and the version win over everything else that
the words say, and the first of them wins over the others.

* `Request.ofWords?` reads a request; words that make no sense are none.
-/

namespace HouseStyle.Command

/-- How files are to be checked. -/
structure LintRequest where
  /-- The files and folders to check, as they are written. -/
  paths : List String
  fix : Bool
  diff : Bool
  format : Option OutputFormat
  config : Option Path
  /-- The names of rules to check, with commas between them. -/
  rules : Option String
  jobs : Option Nat

/-- A command with what it is told. -/
inductive Task where
  /-- Shows the settings, or only says that they are valid. -/
  | config (validate json : Bool)
  /-- Documents all rules or one. -/
  | explain (rule : Option String) (all : Bool)
  | lint (request : LintRequest)

/-- What a command line asks for. -/
inductive Request where
  | version
  | help (command : Option CommandName)
  | run (config : Option Path) (level : LogLevel) (task : Task)

namespace Request

/-- The least level of the lines that are shown. -/
def levelOf (w : Words) : LogLevel :=
  if w.has "--debug" then .debug else if w.has "--verbose" then .info else .warning

/-- The settings file that is named. -/
def configOf (w : Words) : Option Path :=
  (w.value? "--config").map Path.ofString

/-- What is asked for before anything else. -/
def urgent? (command : Option CommandName) (w : Words) : Option Request :=
  w.options.findSome? fun o =>
    match o.1 with
    | "--help" => some (.help command)
    | "--version" => some .version
    | _ => none

/-- The value of an option that is read by `read`: none where the option is not
given, no answer where the value makes no sense. -/
def optional? {α : Type} (read : String → Option α) (w : Words) (name : String) :
    Option (Option α) :=
  match w.value? name with
  | none => some none
  | some s => (read s).map some

/-- Reads a number of workers. -/
def jobsOf? (s : String) : Option Nat :=
  match Numeral.parse? s with
  | some n => if 1 ≤ n then some n.toNat else none
  | none => none

/-- What the files are to be checked for. -/
def lintOf? (w : Words) : Option Task := do
  let format ← optional? OutputFormat.ofName? w "--format"
  let jobs ← optional? jobsOf? w "--jobs"
  return .lint
    { paths := w.plain, fix := w.has "--fix", diff := w.has "--diff", format
      config := configOf w, rules := w.value? "--rules", jobs }

/-- The task that the words behind a command tell. -/
def taskOf? (c : CommandName) (w : Words) : Option Task :=
  match c, w.plain with
  | .config, [] => some (.config (w.has "--validate") (w.has "--json"))
  | .config, _ :: _ => none
  | .explain, [] => some (.explain none (w.has "--all"))
  | .explain, [rule] => some (.explain (some rule) (w.has "--all"))
  | .explain, _ :: _ :: _ => none
  | .lint, _ => lintOf? w

/-- The request of the words behind a command; `w` are the words before it. -/
def ofCommand? (w : Words) (c : CommandName) (words : List String) : Option Request := do
  let behind ← Words.read? c.info.options false words
  match urgent? (some c) behind with
  | some r => return r
  | none => return .run (configOf w) (levelOf w) (← taskOf? c behind)

/-- What the words ask for urgently that stand where a command should. -/
def ofStray? (words : List String) : Option Request := do
  urgent? none (← Words.read? programInfo.options true words)

/-- The request of a command line. -/
def ofWords? (words : List String) : Option Request := do
  let w ← Words.read? programInfo.options true words
  match urgent? none w, w.plain with
  | some r, _ => return r
  | none, [] => none
  | none, word :: rest =>
    match CommandName.ofName? word with
    | some c => ofCommand? w c rest
    | none => ofStray? (word :: rest)

end Request

end HouseStyle.Command
