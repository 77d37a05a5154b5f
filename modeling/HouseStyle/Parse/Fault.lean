import HouseStyle.Text.Source
import HouseStyle.Text.Utf8

/-!
# Why a text cannot be parsed

A fault of a text that keeps it from being parsed, with the place that the
message points at.

* `ParseFault.message` is the wording of each fault.
* `Unparsed.inText` describes a fault of a text, `Unparsed.unread` a file whose text
  is not available.
-/

namespace HouseStyle

/-- Why the system gives no contents for a path. -/
inductive ReadFault where
  | missing
  | isFolder
  /-- Something on the way is a file. -/
  | notFolder
  deriving DecidableEq

/-- The wording of a read fault for a path. -/
def ReadFault.message (path : String) : ReadFault → String
  | .missing => s!"[Errno 2] No such file or directory: {Quoted.text path}"
  | .isFolder => s!"[Errno 21] Is a directory: {Quoted.text path}"
  | .notFolder => s!"[Errno 20] Not a directory: {Quoted.text path}"

/-- What keeps a text from being parsed. -/
inductive ParseFault where
  | unclosedBlock
  | unexpectedBrace
  | missingAtRuleName
  | missingColon
  | unterminatedString
  | unterminatedComment
  | unterminatedInterpolation
  | nestedTooDeeply
  | pythonGrammar
  | undecodable (error : Utf8.DecodeError)
  | unreadable (path : String) (fault : ReadFault)
  deriving DecidableEq

/-- The wording of a fault. -/
def ParseFault.message : ParseFault → String
  | .unclosedBlock => "Unclosed block"
  | .unexpectedBrace => "Unexpected '\x7d'"
  | .missingAtRuleName => "Expected at-rule name after '@'"
  | .missingColon => "Expected ':' in declaration"
  | .unterminatedString => "Unterminated string"
  | .unterminatedComment => "Unterminated comment"
  | .unterminatedInterpolation => "Unterminated interpolation"
  | .nestedTooDeeply => "Source is nested too deeply to parse"
  | .pythonGrammar => "Python syntax error"
  | .undecodable e => s!"Encoding error: {e.message}"
  | .unreadable path fault => s!"Cannot read file: {fault.message path}"

/-- A fault and the offset it is reported at. -/
structure ParseError where
  offset : Nat
  fault : ParseFault
  deriving DecidableEq

/-- A text that could not be parsed: the fault, where it lies, and the line that
holds it where the text is known. -/
structure Unparsed where
  offset : Nat
  position : Position
  fault : ParseFault
  line : Option String

namespace Unparsed

/-- A fault of a text, reported inside the text. -/
def inText (t : Source) (e : ParseError) : Unparsed :=
  let offset := min e.offset t.size
  let position := t.position offset
  { offset, position, fault := e.fault, line := some (t.lineText position.line) }

/-- A file whose text is not available. -/
def unread (fault : ParseFault) : Unparsed :=
  { offset := 0, position := { line := 1, column := 1 }, fault, line := none }

end Unparsed

end HouseStyle
