import HouseStyle.Python.Arguments

/-!
# Expressions

The expressions of Python by precedence, from atoms up to conditionals. Binary
operators group to the left and are read by iteration; every other nesting goes
through the grammar that is passed in, one level deeper.

* `atom`, `primary`: literals, displays, groups and what follows them.
* `expression`, `namedExpression`, `starExpressions`: the entry points.
-/

namespace HouseStyle.Python

open Recognizer

/-! ### Literals -/

/-- The form of a number by its spelling. -/
def numberShape (spelling : String) : Shape :=
  let cs := spelling.toList.map Char.toLower
  if cs.getLast? = some 'j' then .imaginaryNumber
  else if ['0', 'x'].isPrefixOf cs then .integerNumber
  else if cs.contains '.' || cs.contains 'e' then .floatNumber
  else .integerNumber

/-- A number. -/
def number : Recognizer Piece := do
  let t ← kind .number
  return .plain (numberShape t.text) t.start t.stop []

/-- The letters before the first quote of a string's spelling, in lower case. -/
def stringMarker (spelling : List Char) : List Char :=
  (spelling.takeWhile fun c => c != '"' && c != '\'').map Char.toLower

/-- The opening quote of a string by its spelling without letters: one quote, or
three. Two quotes are an empty string. -/
def openingQuote (quoted : List Char) : List Char :=
  match quoted with
  | [] => []
  | q :: _ =>
    let run := quoted.takeWhile (· == q)
    if run.length < 3 then [q] else run.take 3

/-- A string literal and whether it denotes bytes. -/
def plainString : Recognizer (Node × Bool) := do
  let t ← kind .string
  let marker := stringMarker t.text.toList
  let quote := openingQuote (t.text.toList.drop marker.length)
  let form := Form.simpleString t.text (String.ofList marker) (String.ofList quote)
  return (nodeOf form t.start t.stop [], marker.contains 'b')

/-- A text between the replacement fields of a format string. -/
def formatText : Recognizer Node := do
  let t ← kind .formatText
  return plainNode .formattedStringText t.start t.stop []

/-- The texts and replacement fields of a format string or specification. -/
def formatParts (g : Grammar) : Recognizer (List Node) :=
  many (formatText <|> Piece.node <$> g .formatField)

/-- The letter that says how the value of a replacement field is shown. -/
def formatConversion : Recognizer Token :=
  word "r" <|> word "s" <|> word "a"

/-- A replacement field of a format string. -/
def formatField (g : Grammar) : Recognizer Piece := do
  let opening ← op "\x7b"
  let e ← g .yieldOrStarExpressions
  let _ ← maybe (op "=")
  let _ ← maybe (op "!" *> formatConversion)
  let spec ← maybe (op ":" *> formatParts g)
  let closing ← op "\x7d"
  return .plain .formattedStringExpression opening.start closing.stop (e.node :: spec.getD [])

/-- A format string. -/
def formatString (g : Grammar) : Recognizer (Node × Bool) := do
  let opening ← kind .formatOpen
  let parts ← formatParts g
  let closing ← kind .formatClose
  return (plainNode .formattedString opening.start closing.stop parts, false)

/-- Joins adjacent strings, the last two first. -/
def concatenate : Node → List Node → Node
  | n, [] => n
  | n, m :: rest =>
    let right := concatenate m rest
    plainNode .concatenatedString n.span.start right.span.stop [n, right]

/-- Adjacent strings, all of them texts or all of them bytes. -/
def strings (g : Grammar) : Recognizer Piece := do
  let (first, bytes) ← plainString <|> formatString g
  let rest ← many (plainString <|> formatString g)
  guardThat (rest.all fun (_, b) => b == bytes)
  return .ofNode (concatenate first (rest.map Prod.fst))

/-! ### Displays -/

/-- Whether a piece is a starred item. -/
def isStarred (p : Piece) : Bool :=
  hasShape .starredElement p.node && p.isBare

/-- The items that follow a comma in a display. -/
def moreItems (g : Grammar) (first : Piece) : Recognizer (List Piece × Option Token) := do
  let rest ← many (op "," *> g .starNamedExpression)
  let trailing ← maybe (op ",")
  return (first :: rest, trailing)

/-- What stands between two parentheses, the first of which has been read. -/
def groupContents (g : Grammar) : Recognizer Piece := do
  if ← atOp ")" then
    let next ← peek
    return .plain .tupleDisplay next.start next.start []
  else if ← atWord "yield" then g .yieldOrStarExpressions
  else
    let item ← g .starNamedExpression
    if ← atComprehension then
      guardThat !(isStarred item)
      let clauses ← compFor g
      return .plain .generatorExp item.first (← lastStop) (item.node :: clauses)
    else if ← atOp "," then
      let (items, trailing) ← moreItems g item
      let stop := (trailing.map Token.stop).getD (items.getLastD item).last
      return .plain .tupleDisplay item.first stop (items.map elementNode)
    else
      guardThat !(isStarred item)
      return item

/-- A group, a tuple or a generator. -/
def parenthesized (g : Grammar) : Recognizer Piece := do
  let opening ← op "("
  let p ← g .groupContents
  let closing ← op ")"
  return p.enclose opening.start closing.stop

/-- A list or a list comprehension. -/
def listDisplay (g : Grammar) : Recognizer Piece := do
  let opening ← op "["
  if ← atOp "]" then
    let closing ← op "]"
    return .plain .listDisplay opening.start closing.stop []
  else
    let item ← g .starNamedExpression
    if ← atComprehension then
      guardThat !(isStarred item)
      let clauses ← compFor g
      let closing ← op "]"
      return .plain .listComp opening.start closing.stop (item.node :: clauses)
    else
      let (items, _) ← moreItems g item
      let closing ← op "]"
      return .plain .listDisplay opening.start closing.stop (items.map elementNode)

/-- An entry of a dictionary display. -/
def dictEntry (g : Grammar) : Recognizer Node := do
  let t ← peek
  if isOperator "**" t then
    let _ ← op "**"
    let e ← g .bitwiseOr
    return plainNode .starredDictElement t.start e.last [e.node]
  else
    let key ← g .expression
    let _ ← op ":"
    let value ← g .expression
    return plainNode .dictElement key.first value.last [key.node, value.node]

/-- The entries of a dictionary display after the first one, up to the closing
brace. -/
def moreEntries (g : Grammar) (opening : Token) (first : Node) : Recognizer Piece := do
  let rest ← many (op "," *> dictEntry g)
  let _ ← maybe (op ",")
  let closing ← op "\x7d"
  return .plain .dictDisplay opening.start closing.stop (first :: rest)

/-- A dictionary, a set, or a comprehension of either. -/
def braceDisplay (g : Grammar) : Recognizer Piece := do
  let opening ← op "\x7b"
  if ← atOp "\x7d" then
    let closing ← op "\x7d"
    return .plain .dictDisplay opening.start closing.stop []
  else if ← atOp "**" then moreEntries g opening (← dictEntry g)
  else
    let item ← g .starNamedExpression
    if (← atOp ":") && !isStarred item && !(hasShape .namedExpr item.node && item.isBare) then
      let _ ← op ":"
      let value ← g .expression
      if ← atComprehension then
        let clauses ← compFor g
        let closing ← op "\x7d"
        return .plain .dictComp opening.start closing.stop (item.node :: value.node :: clauses)
      else
        moreEntries g opening
          (plainNode .dictElement item.first value.last [item.node, value.node])
    else if ← atComprehension then
      guardThat !(isStarred item)
      let clauses ← compFor g
      let closing ← op "\x7d"
      return .plain .setComp opening.start closing.stop (item.node :: clauses)
    else
      let (items, _) ← moreItems g item
      let closing ← op "\x7d"
      return .plain .setDisplay opening.start closing.stop (items.map elementNode)

/-! ### Primaries -/

/-- The words that are values. -/
def valueWords : List String :=
  ["True", "False", "None"]

/-- An expression without operators. -/
def atom (g : Grammar) : Recognizer Piece := do
  let t ← peek
  match t.kind with
  | .name =>
    let t ← satisfy fun t => valueWords.contains t.text || !reservedWords.contains t.text
    return .ofNode (nameNode t)
  | .number => number
  | .string | .formatOpen => strings g
  | .operator =>
    if isOperator "(" t then parenthesized g
    else if isOperator "[" t then listDisplay g
    else if isOperator "\x7b" t then braceDisplay g
    else
      let t ← op "..."
      return .plain .ellipsis t.start t.stop []
  | _ => fail

/-- What can follow a primary expression: an attribute, a call or a subscript. -/
def trailer (g : Grammar) : Recognizer (Piece → Piece) := do
  let t ← peek
  if isOperator "." t then
    let _ ← op "."
    let name ← identifier
    return fun p =>
      .make (.attribute (some (attributeName p.node name.text))) p.first name.stop
        [p.node, nameNode name]
  else if isOperator "(" t then
    let _ ← op "("
    let args ← callArguments g
    let stop ← lastStop
    return fun p =>
      .make (.call (dottedName? p.node) (args.filterMap Argument.keyword)) p.first stop
        (p.node :: args.map Argument.node)
  else
    let _ ← op "["
    let items ← subscripts g
    let stop ← lastStop
    return fun p => .plain .subscript p.first stop (p.node :: items)

/-- An atom and what follows it. -/
def primary (g : Grammar) : Recognizer Piece := do
  let p ← atom g
  let trailers ← many (trailer g)
  return trailers.foldl (fun p f => f p) p

/-- A primary, awaited or not. -/
def awaitPrimary (g : Grammar) : Recognizer Piece := do
  if ← atWord "await" then
    let t ← word "await"
    let p ← primary g
    return .plain .awaitExp t.start p.last [p.node]
  else primary g

/-! ### Operators -/

/-- Two operands around a binary operator. -/
def binary (shape : Shape) (left right : Piece) : Piece :=
  .plain shape left.first right.last [left.node, right.node]

/-- Operands between operators of one precedence, grouped to the left. -/
def leftAssociative (shape : Shape) (operator : Recognizer Token) (operand : Recognizer Piece) :
    Recognizer Piece := do
  let first ← operand
  let rest ← many (operator *> operand)
  return rest.foldl (binary shape) first

/-- One of several operators. -/
def oneOf (operators : List String) : Recognizer Token :=
  satisfy fun t => t.kind == .operator && operators.contains t.text

/-- A power. -/
def power (g : Grammar) : Recognizer Piece := do
  let base ← awaitPrimary g
  match ← maybe (op "**" *> g .factor) with
  | some exponent => return binary .binaryOperation base exponent
  | none => return base

/-- A signed or inverted operand. -/
def factor (g : Grammar) : Recognizer Piece := do
  let sign ← maybe (oneOf ["+", "-", "~"])
  match sign with
  | some t =>
    let p ← g .factor
    return .plain .unaryOperation t.start p.last [p.node]
  | none => power g

/-- Operands between operators of the precedences from `*` to `|`. -/
def bitwiseOr (g : Grammar) : Recognizer Piece :=
  [["*", "/", "//", "%", "@"], ["+", "-"], ["<<", ">>"], ["&"], ["^"], ["|"]].foldl
    (fun operand operators => leftAssociative .binaryOperation (oneOf operators) operand)
    (factor g)

/-- A comparison operator. -/
def comparisonOperator : Recognizer Unit := do
  let t ← peek
  if isWord "not" t then
    let _ ← word "not"
    let _ ← word "in"
  else if isWord "is" t then
    let _ ← word "is"
    let _ ← maybe (word "not")
  else if isWord "in" t then
    let _ ← word "in"
  else
    let _ ← oneOf ["==", "!=", "<>", "<=", "<", ">=", ">"]

/-- What an operand is compared with, from the blank before the operator on. -/
def comparisonTarget (g : Grammar) : Recognizer Node := do
  let start ← lastStop
  comparisonOperator
  let p ← bitwiseOr g
  return plainNode .comparisonTarget start p.last [p.node]

/-- A chain of comparisons. -/
def comparison (g : Grammar) : Recognizer Piece := do
  let left ← bitwiseOr g
  let targets ← many (comparisonTarget g)
  match targets.getLast? with
  | some last => return .plain .comparison left.first last.span.stop (left.node :: targets)
  | none => return left

/-- A negation. -/
def inversion (g : Grammar) : Recognizer Piece := do
  if ← atWord "not" then
    let t ← word "not"
    let p ← g .inversion
    return .plain .unaryOperation t.start p.last [p.node]
  else comparison g

/-- Alternatives of conjunctions. -/
def disjunction (g : Grammar) : Recognizer Piece :=
  leftAssociative .booleanOperation (word "or")
    (leftAssociative .booleanOperation (word "and") (inversion g))

/-! ### Whole expressions -/

/-- A function without a name. -/
def lambdaExpression (g : Grammar) : Recognizer Piece := do
  let t ← word "lambda"
  let params ← parameters g false ":" (some t.stop)
  let _ ← op ":"
  let body ← g .expression
  return .plain .lambdaExp t.start body.last [params, body.node]

/-- A choice between two expressions, or an expression without choice. -/
def conditional (g : Grammar) : Recognizer Piece := do
  let body ← disjunction g
  if ← atWord "if" then
    let choice ← maybe do
      let _ ← word "if"
      let test ← disjunction g
      let _ ← word "else"
      let other ← g .expression
      return (test, other)
    match choice with
    | some (test, other) =>
      return .plain .ifExp body.first other.last [body.node, test.node, other.node]
    | none => return body
  else return body

/-- An expression. -/
def expression (g : Grammar) : Recognizer Piece := do
  if ← atWord "lambda" then lambdaExpression g else conditional g

/-- An expression that may be given a name. -/
def namedExpression (g : Grammar) : Recognizer Piece := do
  let target ← maybe do
    let name ← identifier
    let _ ← op ":="
    return name
  match target with
  | some name =>
    let value ← g .expression
    return .plain .namedExpr name.start value.last [nameNode name, value.node]
  | none => expression g

/-- A starred operand, or what `other` reads. -/
def starredOr (g : Grammar) (other : Recognizer Piece) : Recognizer Piece := do
  if ← atOp "*" then
    let t ← op "*"
    let p ← bitwiseOr g
    return .plain .starredElement t.start p.last [p.node]
  else other

/-- An item of a display. -/
def starNamedExpression (g : Grammar) : Recognizer Piece :=
  starredOr g (namedExpression g)

/-- The expression or tuple that a list between commas denotes. -/
def asTuple (items : Recognizer (List Piece × Option Token)) : Recognizer Piece := do
  let (pieces, trailing) ← items
  match tupleOrSingle pieces trailing with
  | some p => return p
  | none => fail

/-- Expressions between commas, each of which may be starred. -/
def starExpressions (g : Grammar) : Recognizer Piece :=
  asTuple (commaSeparated (starredOr g (expression g)))

/-- A yielded value, or one yielded from another generator. -/
def yieldExpression (g : Grammar) : Recognizer Piece := do
  let t ← word "yield"
  match ← maybe (word "from") with
  | some source =>
    let p ← g .expression
    let clause := plainNode .fromClause source.start p.last [p.node]
    return .plain .yieldExp t.start p.last [clause]
  | none =>
    match ← maybe (g .starExpressions) with
    | some p => return .plain .yieldExp t.start p.last [p.node]
    | none => return .plain .yieldExp t.start t.stop []

/-- What can be assigned, returned by a field of a format string, or stand alone
in a group. -/
def yieldOrStarExpressions (g : Grammar) : Recognizer Piece := do
  if ← atWord "yield" then yieldExpression g else starExpressions g

/-! ### Targets -/

/-- What a value is assigned to. -/
def plainTarget (g : Grammar) : Recognizer Piece := do
  let p ← primary g
  guardThat (isTarget p.node)
  return p

/-- What a value is assigned to, starred or not. -/
def starTarget (g : Grammar) : Recognizer Piece := do
  if ← atOp "*" then
    let t ← op "*"
    let p ← plainTarget g
    return .plain .starredElement t.start p.last [p.node]
  else plainTarget g

/-- What values are assigned to: one target, or several between commas. -/
def starTargets (g : Grammar) : Recognizer Piece :=
  asTuple (commaSeparated (starTarget g))

end HouseStyle.Python
