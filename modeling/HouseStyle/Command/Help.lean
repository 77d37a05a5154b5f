import HouseStyle.Command.Basic
import HouseStyle.Text.Pieces

/-!
# Help

A page of help says how a command is called, what it does and which options it
knows. The page of the program lists the commands as well. Two columns describe
options and commands, and long descriptions go on below their first line.

* `helpPage` is the page about a command or the program.
-/

namespace HouseStyle.Command

/-- The width of a page. -/
def pageWidth : Nat := 78

/-- Puts words on lines of a width; a line that is begun is given with the lines
before it. -/
def wrapFrom (width : Nat) (done : List String) (line : String) : List String → List String
  | [] => done ++ [line]
  | word :: rest =>
    if line = "" then wrapFrom width done word rest
    else if line.length + 1 + word.length ≤ width then
      wrapFrom width done (line ++ " " ++ word) rest
    else wrapFrom width (done ++ [line]) word rest

/-- The lines of a text, none of them wider than the width where words allow it. -/
def wrap (width : Nat) (s : String) : List String :=
  wrapFrom width [] "" ((piecesOf ' ' s.toList).map String.ofList)

/-- The lines of a row whose first column has the given width. -/
def rowLines (width : Nat) (row : String × String) : List String :=
  match wrap (pageWidth - width - 2) row.2 with
  | [] => []
  | first :: rest =>
    ("  " ++ row.1 ++ "".pushn ' ' (width - row.1.length) ++ first) ::
      rest.map fun line => "".pushn ' ' (width + 2) ++ line

/-- The lines of some rows below a title. -/
def section_ (title : String) (rows : List (String × String)) : List String :=
  let width := (rows.map fun r => r.1.length).foldl max 0 + 2
  ["", s!"{title}:"] ++ rows.flatMap (rowLines width)

/-- The row about an option. -/
def OptionInfo.row (o : OptionInfo) : String × String :=
  (o.name ++ (o.value.map (" " ++ ·)).getD "", o.description)

/-- The lines that a page begins with. -/
def headLines (call : String) (info : CommandInfo) : List String :=
  [s!"Usage: {call} {info.usage}", "", "  " ++ info.summary]

/-- The page about a command, or the one about the program. -/
def helpPage : Option CommandName → String
  | some c =>
    "\n".intercalate (headLines (programName ++ " " ++ c.name) c.info ++
      section_ "Options" (c.info.options.map OptionInfo.row))
  | none =>
    "\n".intercalate (headLines programName programInfo ++
      section_ "Options" (programInfo.options.map OptionInfo.row) ++
      section_ "Commands" (CommandName.all.map fun c => (c.name, c.info.summary)))

end HouseStyle.Command
