import HouseStyle.Python.Expression

/-!
# Patterns

What a case of a match statement compares its subject with. A separator, and the
blanks around it, belong to the element before it, except that the blanks after a
trailing comma do not.

* `pattern` reads a pattern, `casePatterns` what stands after `case`.
-/

namespace HouseStyle.Python

open Recognizer

/-- The offset up to which an element reaches that ends at `last`: past its
separator, and up to the next token when another element follows. -/
def elementStop (last : Nat) (separator : Option Token) (next : Option Nat) : Nat :=
  match separator with
  | none => last
  | some s => next.getD s.stop

/-- Elements between separators: each is built from its extent, which depends on
what follows it. -/
def separatedElements (build : Piece → Nat → Node) (separators : List Token)
    (trailing : Option Token) : List Piece → List Node
  | [] => []
  | [p] => [build p (elementStop p.last trailing none)]
  | p :: q :: rest =>
    build p (elementStop p.last separators.head? (some q.first)) ::
      separatedElements build separators.tail trailing (q :: rest)

/-- Pieces between commas with the commas between them and after them. -/
def withCommas (p : Recognizer Piece) :
    Recognizer (List Piece × List Token × Option Token) := do
  let first ← p
  let rest ← many do
    let comma ← op ","
    let q ← p
    return (comma, q)
  let trailing ← maybe (op ",")
  return (first :: rest.map Prod.snd, rest.map Prod.fst, trailing)

/-- Whether a piece is a starred pattern. -/
def isStarPattern (p : Piece) : Bool :=
  hasShape .matchStar p.node

/-- The node of an element of a sequence pattern. -/
def sequenceElement (p : Piece) (stop : Nat) : Node :=
  if isStarPattern p then plainNode .matchStar p.first stop p.node.children
  else plainNode .matchSequenceElement p.first stop [p.node]

/-- A dotted name. -/
def dottedPath : Recognizer Piece := do
  let first ← identifier
  let rest ← many (op "." *> identifier)
  return rest.foldl
    (fun p name => .make (.attribute (some (attributeName p.node name.text))) p.first name.stop
      [p.node, nameNode name])
    (.ofNode (nameNode first))

/-- A number, negative or not. -/
def signedNumber : Recognizer Piece := do
  match ← maybe (op "-") with
  | some t =>
    let n ← number
    return .plain .unaryOperation t.start n.last [n.node]
  | none => number

/-- A number, or a sum or difference of two. -/
def numberPattern : Recognizer Piece := do
  let left ← signedNumber
  match ← maybe (oneOf ["+", "-"] *> number) with
  | some right => return binary .binaryOperation left right
  | none => return left

/-- The pattern of a value. -/
def valuePattern (p : Piece) : Piece :=
  .plain .matchValue p.first p.last [p.node]

/-- A pattern in parentheses. The parentheses around a value belong to the
value. -/
def groupedPattern (first last : Nat) (p : Piece) : Piece :=
  if hasShape .matchValue p.node || hasShape .matchSingleton p.node then
    .ofNode { p.node with span := .between first last }
  else p.enclose first last

/-- A starred name inside a sequence pattern; an underscore is no name. -/
def starPattern : Recognizer Piece := do
  let t ← op "*"
  let name ← identifier
  let children := if name.text = "_" then [] else [nameNode name]
  return .plain .matchStar t.start name.stop children

/-- An element of a sequence pattern. -/
def maybeStarPattern (g : Grammar) : Recognizer Piece :=
  starPattern <|> g .pattern

/-- A sequence pattern between brackets. -/
def bracketPattern (g : Grammar) : Recognizer Piece := do
  let opening ← op "["
  if ← atOp "]" then
    let closing ← op "]"
    return .plain .matchList opening.start closing.stop []
  else
    let (items, commas, trailing) ← withCommas (g .maybeStarPattern)
    let closing ← op "]"
    return .plain .matchList opening.start closing.stop
      (separatedElements sequenceElement commas trailing items)

/-- A group or a sequence pattern between parentheses. -/
def parenthesisPattern (g : Grammar) : Recognizer Piece := do
  let opening ← op "("
  if ← atOp ")" then
    let closing ← op ")"
    return (Piece.plain .matchTuple closing.start closing.start []).enclose
      opening.start closing.stop
  else
    let (items, commas, trailing) ← withCommas (g .maybeStarPattern)
    let closing ← op ")"
    match items, trailing with
    | [p], none =>
      guardThat !(isStarPattern p)
      return groupedPattern opening.start closing.stop p
    | p :: _, _ =>
      let elements := separatedElements sequenceElement commas trailing items
      let stop := (elements.getLast?.map (·.span.stop)).getD p.last
      return (Piece.plain .matchTuple p.first stop elements).enclose opening.start closing.stop
    | [], _ => fail

/-- The key of an entry of a mapping pattern. -/
def mappingKey (g : Grammar) : Recognizer Piece := do
  let t ← peek
  match t.kind with
  | .name =>
    if valueWords.contains t.text then
      let t ← kind .name
      return .ofNode (nameNode t)
    else
      let p ← dottedPath
      guardThat (p.node.kind == "Attribute")
      return p
  | .string | .formatOpen => strings g
  | _ => numberPattern

/-- An entry of a mapping pattern. -/
def mappingEntry (g : Grammar) : Recognizer Node := do
  let key ← mappingKey g
  let _ ← op ":"
  let value ← g .pattern
  return plainNode .matchMappingElement key.first value.last [key.node, value.node]

/-- A mapping pattern. -/
def mappingPattern (g : Grammar) : Recognizer Piece := do
  let opening ← op "\x7b"
  let entries ← maybe do
    let first ← mappingEntry g
    let rest ← many (op "," *> mappingEntry g)
    return first :: rest
  let rest ← maybe do
    if entries.isSome then
      let _ ← op ","
    let _ ← op "**"
    identifier
  if entries.isSome || rest.isSome then
    let _ ← maybe (op ",")
  let closing ← op "\x7d"
  return .plain .matchMapping opening.start closing.stop
    (entries.getD [] ++ rest.toList.map nameNode)

/-- A keyword argument of a class pattern. -/
def keywordPattern (g : Grammar) : Recognizer Piece := do
  let name ← identifier
  let _ ← op "="
  let p ← g .pattern
  return .plain .matchKeywordElement name.start p.last [nameNode name, p.node]

/-- The arguments of a class pattern up to the closing parenthesis: patterns, then
keyword arguments. -/
def classArguments (g : Grammar) : Recognizer (List Node) := do
  let item := keywordPattern g <|> g .pattern
  let arguments ← maybe (withCommas item)
  let _ ← op ")"
  match arguments with
  | none => return []
  | some (items, commas, trailing) =>
    let isKeyword (p : Piece) : Bool := hasShape .matchKeywordElement p.node && p.isBare
    guardThat ((items.dropWhile fun p => !isKeyword p).all isKeyword)
    let build (p : Piece) (stop : Nat) : Node :=
      if isKeyword p then p.node else sequenceElement p stop
    return separatedElements build commas trailing items

/-- A pattern that starts with a name: a capture, a value or a class. -/
def namePattern (g : Grammar) : Recognizer Piece := do
  let p ← dottedPath
  if ← atOp "(" then
    let _ ← op "("
    let args ← classArguments g
    let stop ← lastStop
    return .plain .matchClass p.first stop (p.node :: args)
  else
    match p.node.label with
    | .python (.name value) =>
      guardThat !(← atOp "=")
      let children := if value = "_" then [] else [p.node]
      return .plain .matchAs p.first p.last children
    | _ => return valuePattern p

/-- A pattern without alternatives. -/
def closedPattern (g : Grammar) : Recognizer Piece := do
  let t ← peek
  match t.kind with
  | .name =>
    if valueWords.contains t.text then
      let t ← kind .name
      return .plain .matchSingleton t.start t.stop [nameNode t]
    else namePattern g
  | .string | .formatOpen => return valuePattern (← strings g)
  | .operator =>
    if isOperator "(" t then parenthesisPattern g
    else if isOperator "[" t then bracketPattern g
    else if isOperator "\x7b" t then mappingPattern g
    else return valuePattern (← numberPattern)
  | _ => return valuePattern (← numberPattern)

/-- The node of an alternative. -/
def alternativeElement (p : Piece) (stop : Nat) : Node :=
  plainNode .matchOrElement p.first stop [p.node]

/-- Patterns between bars. -/
def alternatives (g : Grammar) : Recognizer Piece := do
  let first ← closedPattern g
  let rest ← many do
    let bar ← op "|"
    let p ← closedPattern g
    return (bar, p)
  match rest.getLast? with
  | none => return first
  | some (_, last) =>
    return .plain .matchOr first.first last.last
      (separatedElements alternativeElement (rest.map Prod.fst) none
        (first :: rest.map Prod.snd))

/-- A pattern, which may be given a name. -/
def pattern (g : Grammar) : Recognizer Piece := do
  let p ← alternatives g
  if ← atWord "as" then
    let _ ← word "as"
    let name ← identifier
    guardThat (name.text != "_")
    return .plain .matchAs p.first name.stop [p.node, nameNode name]
  else return p

/-- The patterns after `case`: one pattern, or a sequence without brackets. -/
def casePatterns (g : Grammar) : Recognizer Piece := do
  let (items, commas, trailing) ← withCommas (g .maybeStarPattern)
  match items, trailing with
  | [p], none =>
    guardThat !(isStarPattern p)
    return p
  | p :: _, _ =>
    let elements := separatedElements sequenceElement commas trailing items
    let stop := (elements.getLast?.map (·.span.stop)).getD p.last
    return .plain .matchList p.first stop elements
  | [], _ => fail

end HouseStyle.Python
