import HouseStyle.Check.Log
import HouseStyle.Fix.Edits

/-!
# Fixing a text

A text is checked, a conflict-free choice of edits is performed, and the result is
parsed and checked afresh, until no edit is left or a bound on the rounds is
reached. A result that cannot be parsed is discarded and ends the rounds.

* `fixText` fixes a text.
* `FixOutcome.checked` always describes `FixOutcome.text`.
-/

namespace HouseStyle

/-- Why the rounds of fixing end. -/
inductive FixEnding where
  /-- No edit is left. -/
  | settled
  /-- The bound on the rounds is reached. -/
  | exhausted
  /-- The last result could not be parsed. -/
  | discarded (fault : ParseFault)
  deriving DecidableEq

/-- What fixing a text comes to. -/
structure FixOutcome where
  text : Source
  checked : Checked
  iterations : Nat
  editsApplied : Nat
  ending : FixEnding
  log : List LogLine

/-- Whether no edit is left. -/
def FixOutcome.converged (o : FixOutcome) : Bool :=
  o.ending == .settled

/-- A text between two rounds. -/
structure FixState where
  parsed : Parsed
  checked : Checked
  iterations : Nat
  editsApplied : Nat

namespace FixState

/-- The outcome when the rounds end in a state. -/
def finish (s : FixState) (ending : FixEnding) (log : List LogLine) : FixOutcome :=
  { text := s.parsed.text, checked := s.checked, iterations := s.iterations
    editsApplied := s.editsApplied, ending, log }

/-- The edits to perform next. -/
def selected (s : FixState) : List Edit :=
  selectedEdits s.parsed.text s.checked

/-- What is said about an edit that is left out. -/
def skippedLine (e : Edit) : LogLine :=
  { level := .debug, origin := .fixer
    message := s!"Skipping {e.rule} edit at [{e.span.start}, {e.span.stop}): " ++
      "overlaps a selected edit" }

/-- What is said about the choice of the edits to perform next. -/
def selectionLog (path : String) (s : FixState) : List LogLine :=
  (mendable s.checked).filterMap
      (fun f => f.offerCrash?.map fun m => ⟨.warning, .fixer, s!"{path}: {m}"⟩) ++
    (Edit.skipped (fixEdits s.parsed.text s.checked)).map skippedLine

/-- What is said when the bound on the rounds is reached. -/
def exhaustedLine (path : String) (s : FixState) : LogLine :=
  { level := .warning, origin := .fixer
    message := s!"{path}: fixes did not settle after {s.iterations} iterations" }

end FixState

/-- What is said when a result is discarded. -/
def discardedLine (path : String) (fault : ParseFault) : LogLine :=
  { level := .warning, origin := .fixer
    message := s!"{path}: discarding fixes that break parsing ({fault.message})" }

/-- What a round does with its result. -/
inductive FixRound where
  | next (state : FixState)
  | discard (fault : ParseFault)

/-- Performs some edits and checks the result. -/
def fixRound (language : Language) (rules : List Rule) (settings : Settings) (s : FixState)
    (edits : List Edit) : Except Failure FixRound :=
  match Edit.applyAll s.parsed.text.chars.toList edits with
  | .error e => .error (.edit e)
  | .ok candidate =>
    match parse language (.ofChars candidate.toArray) with
    | .error f => .error f
    | .ok parsed =>
      match parsed.fault? with
      | some u => .ok (.discard u.fault)
      | none =>
        match checkParsed parsed rules settings with
        | .error f => .error f
        | .ok checked =>
          .ok (.next { parsed, checked, iterations := s.iterations + 1
                       editsApplied := s.editsApplied + edits.length })

/-- Adds lines to the front of an outcome's log. -/
def FixOutcome.after (log : List LogLine) (o : FixOutcome) : FixOutcome :=
  { o with log := log ++ o.log }

/-- What is said about a round that ended in a state. -/
def roundLog (path : String) (s : FixState) (edits : List Edit) : List LogLine :=
  checkLog path s.checked.findings ++
    [{ level := .debug, origin := .fixer
       message := s!"{path}: fix iteration {s.iterations} applied {edits.length} edits, " ++
        s!"{s.checked.report.violations.length} diagnostics remain" }]

/-- Fixes a text from a state on, in at most the given number of rounds. -/
def fixFrom (path : String) (language : Language) (rules : List Rule) (settings : Settings) :
    Nat → FixState → Except Failure FixOutcome
  | rounds, s =>
    let edits := s.selected
    if edits.isEmpty then .ok (s.finish .settled (s.selectionLog path))
    else
      match rounds with
      | 0 =>
        .ok (s.finish .exhausted (s.selectionLog path ++
          [s.exhaustedLine path]))
      | rounds + 1 =>
        match fixRound language rules settings s edits with
        | .error f => .error f
        | .ok (.discard fault) =>
          .ok ({ s with iterations := s.iterations + 1 }.finish (.discarded fault)
            (s.selectionLog path ++ [discardedLine path fault]))
        | .ok (.next s') =>
          match fixFrom path language rules settings rounds s' with
          | .error f => .error f
          | .ok o => .ok (o.after (s.selectionLog path ++ roundLog path s' edits))

/-- What is said when a text is checked for the first time. -/
def firstLog (path : String) (p : Parsed) (c : Checked) : List LogLine :=
  if p.fault?.isSome then [] else checkLog path c.findings

/-- Fixes a text. The path names it in the log. -/
def fixText (path : String) (language : Language) (rules : List Rule) (settings : Settings)
    (t : Source) : Except Failure FixOutcome :=
  match parse language t with
  | .error f => .error f
  | .ok parsed =>
    match checkParsed parsed rules settings with
    | .error f => .error f
    | .ok checked =>
      match fixFrom path language rules settings settings.maxFixIterations
          { parsed, checked, iterations := 0, editsApplied := 0 } with
      | .error f => .error f
      | .ok o => .ok (o.after (firstLog path parsed checked))

end HouseStyle
