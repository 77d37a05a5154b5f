import HouseStyle.Command.Execute

/-!
# The program

The outer layer: it takes a picture of the files that a command line may look at,
carries the command line out on the picture, prints what it comes to and writes the
files that differ. It decides nothing: what is printed and written comes from
`execute`.

* `pictureFor` takes the picture, `finish` prints and writes.
-/

namespace HouseStyle

open Command

/-- The beginnings of a list of components, the empty one first. -/
def beginnings (parts : List String) : List (List String) :=
  (List.range (parts.length + 1)).map parts.take

/-- The places whose files a request looks at with all that is below them. -/
def Command.Request.places (folder : Place) : Request → List Place
  | .run _ _ (.lint r) => r.places folder
  | _ => []

/-- The places that the paths of a request pass on the way. -/
def Command.Request.passed (folder : Place) : Request → List Place
  | .run _ _ (.lint r) =>
    r.paths.flatMap fun p =>
      let path := Path.ofString p
      (beginnings path.parts).map fun parts => FileTree.resolve folder { path with parts }
  | _ => []

/-- The places of the settings files that a request may read. -/
def Command.Request.settingsPlaces (folder : Place) : Request → List Place
  | .run named _ task =>
    match task.settingsFile named with
    | some path => [FileTree.resolve folder path]
    | none => (beginnings folder).flatMap fun f => settingsFileNames.map fun n => f ++ [n]
  | _ => []

/-- The path of a place, as the system writes it. -/
def systemPath (p : Place) : String :=
  "/" ++ "/".intercalate p

/-- A picture without files. -/
def emptyPicture (folder : Place) : FileTree :=
  { rootName := "", files := [], folders := [folder] }

/-- Adds a file to a picture, with its contents where they matter. -/
def addFile (t : FileTree) (p : Place) (matters : Bool) : IO FileTree := do
  if !matters then return { t with files := t.files ++ [(p, [])] }
  let bytes ← IO.FS.readBinFile (systemPath p)
  return { t with files := t.files ++ [(p, bytes.toList)] }

/-- Adds to a picture what is at and below a place. -/
partial def addBelow (t : FileTree) (p : Place) : IO FileTree := do
  let path := (← IO.currentDir) / systemPath p
  if ← path.isDir then
    let entries ← path.readDir
    entries.foldlM (fun t e => addBelow t (p ++ [e.fileName]))
      { t with folders := t.folders ++ [p] }
  else if ← path.pathExists then addFile t p (languageAt? p).isSome
  else return t

/-- Adds a place to a picture, where it is a folder. -/
def addFolder (t : FileTree) (p : Place) : IO FileTree := do
  if ← ((← IO.currentDir) / systemPath p).isDir then
    return { t with folders := t.folders ++ [p] }
  else return t

/-- Adds a settings file to a picture, where there is one. -/
def addSettings (t : FileTree) (p : Place) : IO FileTree := do
  let path := (← IO.currentDir) / systemPath p
  if ← path.isDir then return { t with folders := t.folders ++ [p] }
  else if ← path.pathExists then
    addFile { t with files := t.files.filter fun f => f.1 != p } p true
  else return t

/-- A picture of the files that a request may look at. -/
def pictureFor (folder : Place) (r : Request) : IO FileTree := do
  let t ← (r.passed folder).foldlM addFolder (emptyPicture folder)
  let t ← (r.places folder).foldlM addBelow t
  (r.settingsPlaces folder).foldlM addSettings t

/-- Writes the files that differ from a picture. -/
def writeChanges (before after : FileTree) : IO Unit :=
  after.files.forM fun (p, bytes) =>
    if before.contents? p == some bytes then pure ()
    else IO.FS.writeBinFile (systemPath p) ⟨bytes.toArray⟩

/-- A time in seconds with two places. -/
def secondsText (milliseconds : Nat) : String :=
  let hundredths := (milliseconds + 5) / 10
  let rest := hundredths % 100
  let zero := if rest < 10 then "0" else ""
  s!"{hundredths / 100}.{zero}{rest}"

/-- Prints what a request comes to and writes the files that differ. -/
def finish (before : FileTree) (start : Nat) (o : Outcome) : IO UInt32 := do
  IO.print o.output
  writeChanges before o.tree
  let stop ← IO.monoMsNow
  o.notices.forM fun n => IO.eprintln (n.shown (secondsText (stop - start)))
  return o.exitCode.toUInt32

end HouseStyle

open HouseStyle in
/-- Carries out the command line. -/
def main (words : List String) : IO UInt32 := do
  let start ← IO.monoMsNow
  let folder := (Path.ofString (← IO.currentDir).toString).parts
  let before ← match Command.Request.ofWords? words with
    | some r => pictureFor folder r
    | none => pure (emptyPicture folder)
  match execute before folder words with
  | .ok o => finish before start o
  | .error f =>
    IO.eprintln s!"{f.kind}: {f.message}"
    return 1
