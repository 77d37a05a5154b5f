import HouseStyle.Python.Lexer
import HouseStyle.Python.Statement
import HouseStyle.Parse.Fault

/-!
# Modules

A module is read by cutting its text into tokens and reading statements up to the
end. The grammar's recursion runs on the depth of nesting.

Spans index the text through line and column: the tokens count a line at a line
feed, at a carriage return and at both together, and do not count a byte-order
mark, while the text counts lines at line feeds only. Where the text has no such
line the position is lost.

* `parse` gives the tree of a module, a fault, or a lost position.
-/

namespace HouseStyle.Python

open Recognizer

/-- The greatest depth of forms inside each other that is read. -/
def nestingLimit : Nat := 400

/-- The rule of each form. -/
def production (g : Grammar) : Grammar
  | .expression => expression g
  | .namedExpression => namedExpression g
  | .starNamedExpression => starNamedExpression g
  | .starExpressions => starExpressions g
  | .yieldOrStarExpressions => yieldOrStarExpressions g
  | .groupContents => groupContents g
  | .disjunction => disjunction g
  | .inversion => inversion g
  | .factor => factor g
  | .bitwiseOr => bitwiseOr g
  | .starTargets => starTargets g
  | .starTarget => starTarget g
  | .formatField => formatField g
  | .pattern => pattern g
  | .maybeStarPattern => maybeStarPattern g
  | .block => block g

/-- The grammar for forms nested at most so deep. -/
def grammar : Nat → Grammar
  | 0 => fun _ => giveUp
  | depth + 1 => production (grammar depth)

/-- The statements of a whole module. -/
def moduleStatements : Recognizer (List Node) := do
  let statements ← many (statement (grammar nestingLimit))
  let _ ← kind .stop
  return statements

/-! ### Positions -/

/-- The line, counted from zero, and the column of each offset of a text, the
first of which stands at the given place. -/
def lineColumns : Nat → Nat → List Char → List (Nat × Nat)
  | line, column, [] => [(line, column)]
  | line, column, '\r' :: '\n' :: rest =>
    (line, column) :: (line, column + 1) :: lineColumns (line + 1) 0 rest
  | line, column, c :: rest =>
    (line, column) ::
      if c = '\n' ∨ c = '\r' then lineColumns (line + 1) 0 rest
      else lineColumns line (column + 1) rest

mutual

/-- Moves the span of every node of a tree, unless a position is lost. -/
def relocate (place : Nat → Option Nat) : Node → Option Node
  | ⟨label, span, children⟩ =>
    match place span.start, place span.stop, relocateList place children with
    | some start, some stop, some children => some ⟨label, .between start stop, children⟩
    | _, _, _ => none

/-- Moves the spans of a list of trees. -/
def relocateList (place : Nat → Option Nat) : List Node → Option (List Node)
  | [] => some []
  | n :: rest =>
    match relocate place n, relocateList place rest with
    | some n, some rest => some (n :: rest)
    | _, _ => none

end

/-- The byte-order mark. -/
def byteOrderMark : Char :=
  Char.ofNat 0xFEFF

/-- Why there is no tree. -/
inductive ModuleError where
  | fault (error : ParseError)
  /-- A node lies on a line that the text does not have. -/
  | lostPosition

/-- The place in the text of an offset of the tokens. -/
def placeOf (t : Source) (columns : Array (Nat × Nat)) (offset : Nat) : Option Nat :=
  (columns[offset]?).bind fun (line, column) => t.offset? (line + 1) column

/-- The tree of a module. -/
def parse (t : Source) : Except ModuleError Node :=
  let chars := t.chars.toList
  let code := if chars.head? = some byteOrderMark then chars.tail else chars
  match tokenize code.toArray with
  | none => .error (.fault ⟨0, .pythonGrammar⟩)
  | some tokens =>
    match moduleStatements tokens 0 with
    | .absent => .error (.fault ⟨0, .pythonGrammar⟩)
    | .tooDeep => .error (.fault ⟨0, .nestedTooDeeply⟩)
    | .found statements _ _ =>
      if nestingLimit < Node.heightList statements then .error (.fault ⟨0, .nestedTooDeeply⟩)
      else
        match relocateList (placeOf t (lineColumns 0 0 code).toArray) statements with
        | none => .error .lostPosition
        | some statements =>
          .ok { label := .python (.plain .moduleFile), span := { start := 0, stop := t.size },
                children := statements }

end HouseStyle.Python
