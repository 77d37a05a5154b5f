import HouseStyle.Files.Tree
import HouseStyle.Glob.Match
import HouseStyle.Log
import HouseStyle.Parse.Language
import HouseStyle.Settings.Basic

/-!
# Which files to check

The files of a known language below some input paths, without those that the
settings leave out. Patterns are matched against the path below the first input that
holds the file.

* `scan` are the files to check, in the order of their components.
-/

namespace HouseStyle

/-- The language of a file at a place. -/
def languageAt? (p : Place) : Option Language :=
  Language.ofPath? { root := "", parts := p }

/-- The files of a known language at and below a place. -/
def sourceFiles (t : FileTree) (p : Place) : List Place :=
  (t.under p).filter fun f => (languageAt? f).isSome

/-- The folder that patterns about a file start from: the first input that holds the
file, or the folder of an input that is the file. -/
def baseOf (t : FileTree) (inputs : List Place) (file : Place) : Place :=
  let holds (input : Place) : Bool :=
    if t.isFile input then file == input else input.isPrefixOf file
  match inputs.find? holds with
  | some input => if t.isFile input then input.dropLast else input
  | none => file.dropLast

/-- Whether one of some patterns matches a file. -/
def matchesFile (patterns : List String) (base file : Place) : Bool :=
  Glob.matchesAny patterns { root := "/", parts := base } { root := "/", parts := file }

/-- Whether the settings leave a file out. -/
def isExcluded (t : FileTree) (s : Settings) (inputs : List Place) (file : Place) : Bool :=
  matchesFile s.excludes (baseOf t inputs file) file

/-- Whether the settings want a file checked. -/
def isWanted (t : FileTree) (s : Settings) (inputs : List Place) (file : Place) : Bool :=
  !isExcluded t s inputs file && matchesFile s.includes (baseOf t inputs file) file

/-- The files below some inputs; a file below two of them comes twice. -/
def candidates (t : FileTree) (inputs : List Place) : List Place :=
  inputs.flatMap (sourceFiles t)

/-- The files to check. -/
def scan (t : FileTree) (s : Settings) (inputs : List Place) : List Place :=
  ((candidates t inputs).filter (isWanted t s inputs)).eraseDups.mergeSort componentsLe

/-- What is said about the files that are left out. -/
def scanLog (t : FileTree) (s : Settings) (inputs : List Place) : List LogLine :=
  ((candidates t inputs).filter (isExcluded t s inputs)).map fun f =>
    ⟨.debug, .scanner, s!"Excluded {t.display f}"⟩

end HouseStyle
