import HouseStyle.Rule.Basic
import HouseStyle.Text.Casing

/-!
# The value of a declaration

What rules about values share: the value as a node and as text, and words in it
without regard to case.
-/

namespace HouseStyle

/-- The value of a declaration: its node and its text. -/
def valueOf? (n : Node) : Option (Node × List Char) :=
  (n.child? "value").map fun v =>
    match v.label with
    | .style (.value text) => (v, text.toList)
    | _ => (v, [])

/-- Whether a node is a declaration. -/
def isDeclaration (n : Node) : Bool :=
  match n.label with
  | .style (.declaration _ _ _) => true
  | _ => false

/-- The rest of a text after a word, without regard to case. -/
def afterWord? : List Char → List Char → Option (List Char)
  | [], cs => some cs
  | _ :: _, [] => none
  | p :: ps, c :: cs => if matchesIgnoringCase p c then afterWord? ps cs else none

end HouseStyle
