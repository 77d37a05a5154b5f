import HouseStyle.Python.Recognizer
import HouseStyle.Tree.Basic

/-!
# Pieces of a module tree

An expression is read as a piece: its node, whose span leaves out the parentheses
around it, and the stretch of text with them, which is what an enclosing node
covers.

* `Piece.enclose` puts a piece into parentheses.
* `dottedName?` is the dotted name of an expression.
-/

namespace HouseStyle.Python

/-- A node and the stretch of text that it takes, parentheses included. -/
structure Piece where
  node : Node
  first : Nat
  last : Nat

/-- The forms of expressions and blocks that contain each other. -/
inductive Nonterminal where
  | expression
  | namedExpression
  | starNamedExpression
  | starExpressions
  | yieldOrStarExpressions
  | groupContents
  | disjunction
  | inversion
  | factor
  | bitwiseOr
  | starTargets
  | starTarget
  | formatField
  | pattern
  | maybeStarPattern
  | block
  deriving DecidableEq

/-- A recognizer for each form. -/
abbrev Grammar := Nonterminal → Recognizer Piece

/-- A node of a module. -/
def nodeOf (form : Form) (start stop : Nat) (children : List Node) : Node :=
  { label := .python form, span := .between start stop, children }

/-- A node of a form that carries nothing besides its parts. -/
def plainNode (shape : Shape) (start stop : Nat) (children : List Node) : Node :=
  nodeOf (.plain shape) start stop children

namespace Piece

/-- The piece of a node without parentheses. -/
def ofNode (n : Node) : Piece :=
  { node := n, first := n.span.start, last := n.span.stop }

/-- The piece of a form between two offsets. -/
def make (form : Form) (start stop : Nat) (children : List Node) : Piece :=
  ofNode (nodeOf form start stop children)

/-- The piece of a form that carries nothing besides its parts. -/
def plain (shape : Shape) (start stop : Nat) (children : List Node) : Piece :=
  make (.plain shape) start stop children

/-- The piece with the parentheses between two offsets around it. -/
def enclose (first last : Nat) (p : Piece) : Piece :=
  { p with first, last }

/-- Whether no parentheses stand around the node. -/
def isBare (p : Piece) : Bool :=
  p.first == p.node.span.start && p.last == p.node.span.stop

end Piece

/-- Whether a node is of a form that carries nothing besides its parts. -/
def hasShape (shape : Shape) (n : Node) : Bool :=
  match n.label with
  | .python (.plain s) => s == shape
  | _ => false

/-- The dotted name of an expression: of a name, an attribute, what is called or
what is subscripted. -/
def dottedName? : Node → Option String
  | ⟨.python (.name value), _, _⟩ => some value
  | ⟨.python (.attribute dotted), _, _⟩ => dotted
  | ⟨.python (.call func _), _, _⟩ => func
  | ⟨.python (.plain .subscript), _, value :: _⟩ => dottedName? value
  | _ => none

/-- The dotted name of an attribute of an expression; an expression without a
name shows as `None`. -/
def attributeName (value : Node) (name : String) : String :=
  (dottedName? value).getD "None" ++ "." ++ name

/-- The node of a name. -/
def nameNode (t : Token) : Node :=
  nodeOf (.name t.text) t.start t.stop []

/-- Wraps the items of a display: a starred one stays, any other becomes an
element. -/
def elementNode (p : Piece) : Node :=
  if hasShape .starredElement p.node && p.isBare then p.node
  else plainNode .element p.first p.last [p.node]

/-- What a list of expressions between commas denotes: the expression itself, or
a tuple when there is a comma. -/
def tupleOrSingle (items : List Piece) (trailing : Option Token) : Option Piece :=
  match items, trailing with
  | [], _ => none
  | [p], none => some p
  | p :: rest, trailing =>
    let last := match trailing with
      | some comma => comma.stop
      | none => ((p :: rest).getLastD p).last
    some (.plain .tupleDisplay p.first last ((p :: rest).map elementNode))

/-! ### Targets of assignments -/

mutual

/-- Whether a value can be assigned to an expression. -/
def isTarget : Node → Bool
  | ⟨.python (.name value), _, _⟩ => !reservedWords.contains value
  | ⟨.python (.attribute _), _, _⟩ => true
  | ⟨.python (.plain .subscript), _, _⟩ => true
  | ⟨.python (.plain .tupleDisplay), _, items⟩ => areTargets items
  | ⟨.python (.plain .listDisplay), _, items⟩ => areTargets items
  | ⟨.python (.plain .starredElement), _, [value]⟩ => isTarget value
  | ⟨.python (.plain .element), _, [value]⟩ => isTarget value
  | _ => false

/-- Whether values can be assigned to all items of a display. -/
def areTargets : List Node → Bool
  | [] => true
  | n :: rest => isTarget n && areTargets rest

end

mutual

/-- Whether an expression can be deleted: a target without stars. -/
def isDeletable : Node → Bool
  | ⟨.python (.plain .starredElement), _, _⟩ => false
  | ⟨.python (.plain .tupleDisplay), _, items⟩ => areDeletable items
  | ⟨.python (.plain .listDisplay), _, items⟩ => areDeletable items
  | ⟨.python (.plain .element), _, [value]⟩ => isDeletable value
  | n => isTarget n

/-- Whether all items of a display can be deleted. -/
def areDeletable : List Node → Bool
  | [] => true
  | n :: rest => isDeletable n && areDeletable rest

end

/-- Whether an expression is a name, an attribute or a subscript, to which alone
a value can be added in place. -/
def isSimpleTarget (n : Node) : Bool :=
  match n.label with
  | .python (.name _) | .python (.attribute _) | .python (.plain .subscript) => isTarget n
  | _ => false

end HouseStyle.Python
