import HouseStyle.Text.Edit
import HouseStyle.Text.Quoted
import HouseStyle.Text.Utf8

/-!
# Failures

What ends an operation without a result. Findings about a text are no failures:
those are violations.

* `Failure.kind` and `Failure.message` are the two parts under which a failure is
  shown, `Failure.shown` is its one-line form.
-/

namespace HouseStyle

/-- Why an operation has no result. -/
inductive Failure where
  /-- The settings are not valid; the message says why, and the path names the file
  they were read from. -/
  | settings (message : String) (path : Option String)
  /-- A pair of integers bounds no range. -/
  | span (error : SpanError)
  /-- Edits cannot be applied. -/
  | edit (error : EditError)
  /-- A rule has no settings. -/
  | unknownRule (id : String)
  /-- A line is asked for that the text does not have. -/
  | lostLine
  /-- A rule is explained that has no example. -/
  | noExample
  /-- A file has a suffix of no language. -/
  | unsupportedFile (path : String)
  /-- A text that was parsed is reported as unparsed. -/
  | notUnparsed
  /-- A value of the named kind stands where a table is looked into. -/
  | notATable (typeName : String)
  /-- The bytes of a settings file are no text. -/
  | undecodable (error : Utf8.DecodeError)

namespace Failure

/-- The class of a failure. -/
def kind : Failure → String
  | .settings _ _ => "ConfigError"
  | .span _ => "ValueError"
  | .edit (.conflict _ _) => "EditConflictError"
  | .edit (.outside _) => "ValueError"
  | .unknownRule _ => "KeyError"
  | .lostLine => "IndexError"
  | .noExample => "IndexError"
  | .unsupportedFile _ => "ValueError"
  | .notUnparsed => "ValueError"
  | .notATable _ => "AttributeError"
  | .undecodable _ => "UnicodeDecodeError"

/-- What a failure says. -/
def detail : Failure → String
  | .settings message _ => message
  | .span e => e.message
  | .edit e => e.message
  | .unknownRule id => id
  | .lostLine => "tuple index out of range"
  | .noExample => "list index out of range"
  | .unsupportedFile path => s!"Unsupported file type: {path}"
  | .notUnparsed => "parse_result must have a parse_error"
  | .notATable typeName => s!"'{typeName}' object has no attribute 'get'"
  | .undecodable e => e.message

/-- The message of a failure; an unknown rule is quoted. -/
def message : Failure → String
  | .unknownRule id => Quoted.text id
  | f => f.detail

/-- A failure on one line: its class and what it says, quoted. -/
def shown (f : Failure) : String :=
  s!"{f.kind}({Quoted.text f.detail})"

end Failure

end HouseStyle
