import HouseStyle.Files.Path
import HouseStyle.Glob.Pattern

/-!
# Patterns of paths

A pattern of a path is one of wildcards, in which a star also stands for slashes.
A doubled star between slashes stands for any number of components, in a few shapes
that are tried in order.

* `Glob.isMatch` decides whether a pattern matches a path.
* `Glob.matchesAny` does so for several patterns and a path below a base.
-/

namespace HouseStyle.Glob

/-- The paths that the last components of a path make, the whole path first. -/
def tailPaths (path : List Char) : List (List Char) :=
  path :: go path
where
  /-- The parts of a text behind each of its slashes. -/
  go : List Char → List (List Char)
    | [] => []
    | c :: rest => if c = '/' then rest :: go rest else go rest

/-- Whether a text holds no wildcard and no slash. -/
def isPlainName (cs : List Char) : Bool :=
  cs.all fun c => !(c == '*' || c == '?' || c == '[' || c == '/')

/-- Whether the pattern matches one of the paths that the last components make. -/
def matchesTail (pattern path : List Char) : Bool :=
  (tailPaths path).any (Wildcard.isMatch pattern)

/-- A pattern with a doubled star. -/
inductive Shape where
  /-- `**` and a suffix: any file with that suffix. -/
  | suffix (text : List Char)
  /-- `**`, a name, `**`: the name is one of the folders. -/
  | folder (pattern : List Char)
  /-- `**` and a pattern: the pattern matches the last components. -/
  | anywhere (pattern : List Char)
  /-- A folder, `**` and a pattern: the pattern matches the last components of what
  is in the folder. -/
  | below (folder pattern : List Char)
  /-- A folder and `**`: whatever is in the folder, and the folder. -/
  | within (folder : List Char)
  /-- A doubled star elsewhere says no more than a single one. -/
  | plain (pattern : List Char)
  deriving DecidableEq

/-- A text without so many characters at its end. -/
def dropEnd (n : Nat) (cs : List Char) : List Char :=
  cs.take (cs.length - n)

/-- The shape of a pattern with a doubled star. -/
def shapeOf (pattern : List Char) : Shape :=
  let leading := "**/".toList
  let trailing := "/**".toList
  if "**/*.".toList.isPrefixOf pattern && isPlainName (pattern.drop 5) then
    .suffix (pattern.drop 4)
  else if leading.isPrefixOf pattern && trailing.isSuffixOf pattern then
    .folder ((dropEnd 3 pattern).drop 3)
  else if leading.isPrefixOf pattern then .anywhere (pattern.drop 3)
  else
    match cutAt? "/**/".toList pattern with
    | some (folder, tail) => .below folder tail
    | none => if trailing.isSuffixOf pattern then .within (dropEnd 3 pattern) else .plain pattern

/-- Whether a shape matches a path. -/
def Shape.isMatch : Shape → List Char → Bool
  | .suffix ending, path => ending.isSuffixOf path
  | .folder pattern, path => (piecesOf '/' path).dropLast.any (Wildcard.isMatch pattern)
  | .anywhere pattern, path => matchesTail pattern path
  | .below dir pattern, path =>
    (dir ++ ['/']).isPrefixOf path && matchesTail pattern (path.drop (dir.length + 1))
  | .within dir, path => (dir ++ ['/']).isPrefixOf path || path == dir
  | .plain pattern, path => Wildcard.isMatch pattern path

/-- Whether a pattern matches a path. -/
def isMatch (pattern path : List Char) : Bool :=
  if occursIn "**".toList pattern then (shapeOf pattern).isMatch path
  else Wildcard.isMatch pattern path

/-- The text of a path that patterns are matched against: below the base where it
is there, with slashes in the place of backslashes. -/
def subject (base path : Path) : List Char :=
  ((base.relativeTo? path).getD path).text.toList.map fun c => if c = '\\' then '/' else c

/-- Whether one of some patterns matches a path below a base. -/
def matchesAny (patterns : List String) (base path : Path) : Bool :=
  patterns.any fun p => isMatch p.toList (subject base path)

end HouseStyle.Glob
