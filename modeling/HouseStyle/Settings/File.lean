import HouseStyle.Files.Tree
import HouseStyle.Log
import HouseStyle.Settings.Reading
import HouseStyle.Toml.Document

/-!
# Settings files

Settings are read from a file that is named, or from the nearest one that is found
on the way from a folder up to the root. The project file of Python keeps them in a
table of its own, any other file at the top.

* `findSettings?` is the nearest settings file.
* `loadSettings` are the settings of a run and what is said while reading them.
-/

namespace HouseStyle

/-- The name of the project file. -/
def projectFileName : String := "pyproject.toml"

/-- The names of settings files, the first of which wins in a folder. -/
def settingsFileNames : List String :=
  ["styleguard.toml", projectFileName]

/-- The settings file of a folder. -/
def settingsFileIn? (t : FileTree) (folder : Place) : Option Place :=
  (settingsFileNames.map fun name => folder ++ [name]).find? t.isFile

/-- The nearest settings file of a folder so many levels below the root and of the
folders around it. -/
def findSettingsFrom? (t : FileTree) : Nat → Place → Option Place
  | 0, folder => settingsFileIn? t folder
  | depth + 1, folder => (settingsFileIn? t folder).or (findSettingsFrom? t depth folder.dropLast)

/-- The nearest settings file of a folder and of the folders around it. -/
def findSettings? (t : FileTree) (folder : Place) : Option Place :=
  findSettingsFrom? t folder.length folder

namespace Settings

/-- The table of settings in the table of a file of the given name. -/
def tableOf (path name : String) (document : List (String × Data)) :
    Except Failure (List (String × Data)) :=
  if name = projectFileName then
    match Data.lookup "tool" document with
    | none => .ok []
    | some (.table tool) =>
      match Data.lookup "styleguard" tool with
      | none => .ok []
      | some (.table entries) => .ok entries
      | some _ => .error (.settings "[tool.styleguard] must be a table" (some path))
    | some d => .error (.notATable d.typeName)
  else .ok document

/-- The table of the document that some bytes hold. -/
def documentOf (path : String) (bytes : Bytes) : Except Failure (List (String × Data)) :=
  match Utf8.decode bytes with
  | .error e => .error (.undecodable e)
  | .ok cs =>
    match Toml.parse? (String.ofList cs) with
    | some document => .ok document
    | none => .error (.settings "Invalid TOML" (some path))

/-- The settings of a file: its path as it is written, its name and its contents. -/
def ofFile (path name : String) (contents : Except ReadFault Bytes) :
    List LogLine × Except Failure Settings :=
  match contents with
  | .error fault =>
    ([], .error (.settings s!"Cannot read config file: {fault.message path}" (some path)))
  | .ok bytes =>
    match documentOf path bytes with
    | .error f => ([], .error f)
    | .ok document =>
      ([⟨.debug, .settings, s!"Loading config from {path}"⟩],
        match tableOf path name document with
        | .error f => .error f
        | .ok entries => ofEntries (some path) entries)

end Settings

/-- The settings of a run in a folder: those of the file that is named, of the
nearest one that is found, or the default ones. -/
def loadSettings (t : FileTree) (folder : Place) (named : Option Path) :
    List LogLine × Except Failure Settings :=
  match named with
  | some path => Settings.ofFile path.text path.name (t.read folder path)
  | none =>
    match findSettings? t folder with
    | some place => Settings.ofFile (t.display place) (place.getLastD "") (t.readAt place)
    | none => ([⟨.debug, .settings, "No config file found, using defaults"⟩], .ok .default)

end HouseStyle
