import HouseStyle.Files.Path
import HouseStyle.Parse.Fault

/-!
# File trees

A tree of folders and files with their contents, without links. A place in it is
the list of the names that lead there from the root. What the root is called in
messages is part of the tree.

* `FileTree.locate` follows a path from a folder, `FileTree.resolve` does so without
  asking what exists.
* `FileTree.read` and `FileTree.write` are the contents of a file.
-/

namespace HouseStyle

/-- A place in a tree of files. -/
abbrev Place := List String

/-- The contents of a file. -/
abbrev Bytes := List UInt8

/-- A tree of files. -/
structure FileTree where
  /-- What the root is called; empty for the root of everything. -/
  rootName : String
  files : List (Place × Bytes)
  /-- The folders that need not hold anything. -/
  folders : List Place

namespace FileTree

/-- The contents of a file. -/
def contents? (t : FileTree) (p : Place) : Option Bytes :=
  (t.files.find? fun f => f.1 == p).map Prod.snd

/-- Whether a place is a file. -/
def isFile (t : FileTree) (p : Place) : Bool :=
  (t.contents? p).isSome

/-- Whether a place is a folder: the root, one that is named, or one that holds
something. -/
def isFolder (t : FileTree) (p : Place) : Bool :=
  p.isEmpty || (!t.isFile p &&
    (t.folders.any p.isPrefixOf || t.files.any fun f => p.isPrefixOf f.1))

/-- Whether there is anything at a place. -/
def isPresent (t : FileTree) (p : Place) : Bool :=
  t.isFile p || t.isFolder p

/-- How a place is written. -/
def display (t : FileTree) (p : Place) : String :=
  if p.isEmpty && t.rootName != "" then t.rootName else t.rootName ++ "/" ++ "/".intercalate p

/-- The place after one more component, whatever exists. -/
def stepTo (p : Place) (part : String) : Place :=
  if part = ".." then p.dropLast else p ++ [part]

/-- The place a path leads to from a folder, whatever exists. -/
def resolve (folder : Place) (path : Path) : Place :=
  path.parts.foldl stepTo (if path.root = "" then folder else [])

/-- The place that components lead to, if all on the way are folders. -/
def follow (t : FileTree) (p : Place) : List String → Except ReadFault Place
  | [] => if t.isPresent p then .ok p else .error .missing
  | part :: rest =>
    if t.isFile p then .error .notFolder
    else if t.isFolder p then
      if part = "" ∨ part = "." then t.follow p rest else t.follow (stepTo p part) rest
    else .error .missing

/-- The place a path leads to from a folder. -/
def locate (t : FileTree) (folder : Place) (path : Path) : Except ReadFault Place :=
  t.follow (if path.root = "" then folder else []) path.parts

/-- The contents of the file at a place. -/
def readAt (t : FileTree) (p : Place) : Except ReadFault Bytes :=
  match t.contents? p with
  | some bytes => .ok bytes
  | none => .error (if t.isFolder p then .isFolder else .missing)

/-- The contents of the file a path leads to from a folder. -/
def read (t : FileTree) (folder : Place) (path : Path) : Except ReadFault Bytes :=
  match t.locate folder path with
  | .error e => .error e
  | .ok p => t.readAt p

/-- The tree with a file's contents replaced. -/
def write (t : FileTree) (p : Place) (bytes : Bytes) : FileTree :=
  { t with files := t.files.map fun f => if f.1 == p then (p, bytes) else f }

/-- The files at and below a place. -/
def under (t : FileTree) (p : Place) : List Place :=
  (t.files.map Prod.fst).filter fun f => p.isPrefixOf f

end FileTree

end HouseStyle
