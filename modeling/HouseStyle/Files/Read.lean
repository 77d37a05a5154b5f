import HouseStyle.Files.Tree
import HouseStyle.Parse.Parsed

/-!
# Reading and parsing a file

The contents of a file become a parsed text. A file that cannot be read or decoded
has no text, which is a fault like those of a text.

* `parseContents` parses what reading a file gave.
* `parseFile` reads the language off the path where none is given.
-/

namespace HouseStyle

/-- A file whose text is not available. -/
def unreadFile (language : Language) (fault : ParseFault) : Parsed :=
  { language, text := .ofString "", result := .error (.unread fault) }

/-- Parses what reading a file gave; the path names it in messages. -/
def parseContents (path : String) (language : Language) (contents : Except ReadFault Bytes) :
    Except Failure Parsed :=
  match contents with
  | .error fault => .ok (unreadFile language (.unreadable path fault))
  | .ok bytes =>
    match Utf8.decode bytes with
    | .error e => .ok (unreadFile language (.undecodable e))
    | .ok cs => parse language (.ofChars cs.toArray)

/-- Parses the file a path leads to from a folder, in a language or that of its
suffix. -/
def parseFile (t : FileTree) (folder : Place) (path : Path) (language : Option Language) :
    Except Failure Parsed :=
  match language.or (Language.ofPath? path) with
  | none => .error (.unsupportedFile path.text)
  | some l => parseContents path.text l (t.read folder path)

end HouseStyle
