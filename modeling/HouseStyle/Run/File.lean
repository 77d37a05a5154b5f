import HouseStyle.Files.Read
import HouseStyle.Files.Scan
import HouseStyle.Fix.Loop
import HouseStyle.Rule.Catalogue

/-!
# One file of a run

A file is read, parsed and checked, and fixed where that is asked for. A failure is
reported like a violation, so that no file keeps others from being checked.

* `runFile` is what a file comes to; it looks at no other file.
-/

namespace HouseStyle

/-- What a run does besides checking. -/
structure RunOptions where
  /-- Whether to fix files. -/
  fix : Bool
  /-- Whether to write fixed files back. -/
  write : Bool

/-- What a file comes to. -/
structure FileResult where
  place : Place
  report : Report
  parseFailed : Bool
  /-- The text as read, where it was parsed. -/
  given : Option Source
  /-- The text after fixing, where that was asked for. -/
  fixed : Option Source
  iterations : Nat

/-- Whether fixing changed the text. -/
def FileResult.changed (r : FileResult) : Bool :=
  match r.fixed with
  | some new => r.given.map Source.chars != some new.chars
  | none => false

/-- A file's result, the contents it is to be given and what was said about it. -/
structure FileRun where
  result : FileResult
  written : Option Bytes
  log : List LogLine

/-- A line of the runner's log about a file. -/
def fileLine (level : LogLevel) (path message : String) : LogLine :=
  { level, origin := .runner, message := s!"{path}: {message}" }

/-- What a file comes to that could not be parsed. -/
def unparsedRun (path : String) (place : Place) (u : Unparsed) : FileRun :=
  { result :=
      { place, report := unparsedReport u, parseFailed := true, given := none, fixed := none
        iterations := 0 }
    written := none
    log := [fileLine .debug path s!"parse error: {u.fault.message}"] }

/-- What a file comes to that is only checked. -/
def checkedRun (path : String) (place : Place) (t : Source) (c : Checked) : FileRun :=
  { result :=
      { place, report := c.report, parseFailed := false, given := some t, fixed := none
        iterations := 0 }
    written := none
    log := checkLog path c.findings ++
      [fileLine .debug path s!"{c.report.violations.length} diagnostics"] }

/-- What a file comes to that is fixed, and written where its text changed. -/
def fixedRun (path : String) (place : Place) (write : Bool) (t : Source) (o : FixOutcome) :
    FileRun :=
  let result : FileResult :=
    { place, report := o.checked.report, parseFailed := false, given := some t
      fixed := some o.text, iterations := o.iterations }
  let count := o.checked.report.violations.length
  let writes := write && result.changed
  { result
    written := if writes then some (Utf8.encode o.text.text) else none
    log := o.log ++
      [fileLine .debug path s!"{count} diagnostics after {o.iterations} fix iterations"] ++
      if writes then [{ level := .info, origin := .runner, message := s!"Wrote {path}" }] else [] }

/-- Reads, checks and fixes a file. -/
def processFile (t : FileTree) (s : Settings) (o : RunOptions) (language : Language)
    (place : Place) : Except Failure FileRun :=
  let path := t.display place
  let rules := enabledRules s
  match parseContents path language (t.readAt place) with
  | .error f => .error f
  | .ok p =>
    match p.fault? with
    | some u => .ok (unparsedRun path place u)
    | none =>
      if o.fix then
        (fixText path p.language rules s p.text).map (fixedRun path place o.write p.text)
      else (checkParsed p rules s).map (checkedRun path place p.text)

/-- What a file comes to whose processing failed. -/
def failedRun (path : String) (place : Place) (f : Failure) : FileRun :=
  { result :=
      { place, report := failureReport s!"Processing failed: {f.shown}", parseFailed := false
        given := none, fixed := none, iterations := 0 }
    written := none
    log :=
      [fileLine .warning path s!"processing failed: {f.detail}",
        { level := .debug, origin := .runner, message := s!"Traceback for {path}" }] }

/-- What a file comes to. -/
def runFile (t : FileTree) (s : Settings) (o : RunOptions) (place : Place) : FileRun :=
  let path := t.display place
  let run :=
    match languageAt? place with
    | none => failedRun path place (.unsupportedFile path)
    | some language =>
      match processFile t s o language place with
      | .ok r => r
      | .error f => failedRun path place f
  { run with log := { level := .debug, origin := .runner, message := s!"Checking {path}" } :: run.log }

end HouseStyle
