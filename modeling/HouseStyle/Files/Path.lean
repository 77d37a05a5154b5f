import HouseStyle.Text.Pieces

/-!
# Paths

A path names a place by the components that lead to it. Doubled slashes and single
dots say nothing and are dropped; two dots stay, because what they mean depends on
where the path is followed.

* `Path.ofString` and `Path.text` read and write paths.
* `Path.relativeTo?` is what follows a base.
* `Path.suffix` is the suffix of the last component.
-/

namespace HouseStyle

/-- A path: what an absolute one begins with, which is a slash or exactly two, and
its components. -/
structure Path where
  root : String
  parts : List String
  deriving DecidableEq

/-- The order of component lists, component by component. -/
def componentsLe : List String → List String → Bool
  | [], _ => true
  | _ :: _, [] => false
  | a :: as, b :: bs => decide (a < b) || (a == b && componentsLe as bs)

namespace Path

/-- What a path with so many slashes at its start begins with. -/
def rootOf : Nat → String
  | 0 => ""
  | 2 => "//"
  | _ => "/"

/-- The path that a text writes. -/
def ofString (s : String) : Path :=
  let cs := s.toList
  { root := rootOf (cs.takeWhile (· == '/')).length
    parts := ((piecesOf '/' cs).map String.ofList).filter fun p => p != "" && p != "." }

/-- A path as text; a single dot when it has neither root nor components. -/
def text (p : Path) : String :=
  if p.root = "" ∧ p.parts = [] then "." else p.root ++ "/".intercalate p.parts

/-- The last component. -/
def name (p : Path) : String :=
  p.parts.getLastD ""

/-- The suffix of a name: from its last dot on, unless that dot is the first or the
last character. -/
def suffixOf (name : String) : String :=
  let back := name.toList.reverse
  let extension := back.takeWhile (· != '.')
  let stem := (back.dropWhile (· != '.')).drop 1
  if extension.isEmpty || stem.isEmpty then "" else String.ofList ('.' :: extension.reverse)

/-- The suffix of the last component. -/
def suffix (p : Path) : String :=
  suffixOf p.name

/-- What follows a base, if a path begins with it. -/
def relativeTo? (base p : Path) : Option Path :=
  if base.root = p.root ∧ base.parts.isPrefixOf p.parts then
    some { root := "", parts := p.parts.drop base.parts.length }
  else none

end Path

end HouseStyle
