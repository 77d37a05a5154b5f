import HouseStyle.Python.Piece

/-!
# Parameters, arguments and subscripts

The lists between brackets that belong to a definition, a lambda, a call or a
subscript, each with its own rules of order:

* a parameter without default does not follow one with a default, unless a star
  stands between them; a lone star needs a parameter after it;
* a plain argument comes before all keywords, and a starred one before any
  argument with two stars.
-/

namespace HouseStyle.Python

open Recognizer

/-! ### Parameters -/

/-- How far a list of parameters has come. -/
inductive ParameterPhase where
  /-- Parameters without default. -/
  | plain
  /-- A default has been given. -/
  | defaulted
  /-- A lone star, which needs a parameter after it. -/
  | loneStar
  /-- Parameters that are given by keyword. -/
  | keywordOnly
  /-- Two stars: nothing may follow. -/
  | closed
  deriving DecidableEq

/-- The state of a list of parameters: its phase, whether any parameter and
whether a slash has been read. -/
structure ParameterState where
  phase : ParameterPhase
  started : Bool
  slashed : Bool

/-- Whether parameters before a star may still come. -/
def ParameterState.isOpen (s : ParameterState) : Bool :=
  s.phase == .plain || s.phase == .defaulted

/-- The hint after a parameter's name: an expression after a colon. -/
def typeHint (g : Grammar) : Recognizer Piece := do
  let _ ← op ":"
  let e ← g .expression
  return .plain .typeHint e.first e.last [e.node]

/-- The hint of a starred parameter, which may itself be starred. -/
def starredHint (g : Grammar) : Recognizer Piece := do
  let _ ← op ":"
  let star ← op "*"
  let e ← g .bitwiseOr
  let inner := plainNode .starredElement star.start e.last [e.node]
  return .plain .typeHint star.start e.last [inner]

/-- The parameter of the given name token, which starts at `start`. -/
def paramNode (start : Nat) (name : Token) (hint : Option Piece) (value : Option Piece) : Node :=
  nodeOf (.param name.text) start name.stop
    (nameNode name :: (hint.map Piece.node).toList ++ (value.map Piece.node).toList)

/-- A parameter after its stars: a name, a hint where `hinted` allows one, and a
default where `defaults` allows one. -/
def parameter (g : Grammar) (hinted starred defaults : Bool) (start : Option Nat) :
    Recognizer (Node × Bool) := do
  let name ← identifier
  let hint ←
    if hinted then
      if starred then maybe (starredHint g <|> typeHint g) else maybe (typeHint g)
    else pure none
  let value ← if defaults then maybe (op "=" *> g .expression) else pure none
  return (paramNode (start.getD name.start) name hint value, value.isSome)

/-- One item of a list of parameters. A slash and a lone star reach up to the
token after their comma, so their node waits for that offset. -/
def parameterItem (g : Grammar) (hinted : Bool) (s : ParameterState) :
    Recognizer ((Nat → Node) × ParameterState) := do
  let t ← peek
  if isOperator "/" t then
    let _ ← op "/"
    guardThat (s.started && !s.slashed && s.isOpen)
    return (fun stop => plainNode .paramSlash t.start stop [], { s with slashed := true })
  else if isOperator "**" t then
    let _ ← op "**"
    guardThat (s.phase != .loneStar)
    let (n, _) ← parameter g hinted false false (some t.start)
    return (fun _ => n, { s with phase := .closed })
  else if isOperator "*" t then
    let _ ← op "*"
    guardThat s.isOpen
    if ← atOp "," then
      return (fun stop => plainNode .paramStar t.start stop [], { s with phase := .loneStar })
    else
      let (n, _) ← parameter g hinted true false (some t.start)
      return (fun _ => n, { s with phase := .keywordOnly })
  else
    let (n, hasDefault) ← parameter g hinted false true none
    guardThat (hasDefault || s.phase != .defaulted)
    let phase :=
      if s.isOpen then (if hasDefault then .defaulted else .plain) else .keywordOnly
    return (fun _ => n, { s with phase, started := true })

/-- The parameters up to the closing bracket or colon. -/
def parametersFrom (g : Grammar) (hinted : Bool) (closing : String) :
    Nat → ParameterState → Recognizer (List Node)
  | 0, _ => fail
  | fuel + 1, s => do
    if ← atOp closing then
      guardThat (s.phase != .loneStar)
      return []
    else
      guardThat (s.phase != .closed)
      let (build, s') ← parameterItem g hinted s
      let comma ← maybe (op ",")
      let next ← peek
      guardThat (comma.isSome || isOperator closing next)
      let rest ← parametersFrom g hinted closing fuel s'
      return build next.start :: rest

/-- The node of all parameters up to the closing bracket or colon; an empty one
stands at `empty`, or at the closing token. -/
def parameters (g : Grammar) (hinted : Bool) (closing : String) (empty : Option Nat) :
    Recognizer Node := do
  let opening ← peek
  let items ← fun ts i =>
    parametersFrom g hinted closing (ts.size - i) ⟨.plain, false, false⟩ ts i
  let next ← peek
  if items.isEmpty then
    let here := empty.getD next.start
    return plainNode .parameters here here []
  else
    return plainNode .parameters opening.start next.start items

/-! ### Comprehension clauses -/

/-- A condition of a comprehension, from the blank before its word on. -/
def compIf (g : Grammar) : Recognizer Node := do
  let start ← lastStop
  let _ ← word "if"
  let test ← g .disjunction
  return plainNode .compIf start test.last [test.node]

/-- A clause of a comprehension without the clauses inside it: where it starts,
its parts and where they end. -/
def compClause (g : Grammar) : Recognizer (Nat × List Node × Nat) := do
  let start ← lastStop
  let async ← maybe (word "async")
  let _ ← word "for"
  let target ← g .starTargets
  let _ ← word "in"
  let source ← g .disjunction
  let tests ← many (compIf g)
  let mark := async.toList.map fun t => plainNode .asynchronous t.start t.stop []
  let stop := (tests.getLast?.map (·.span.stop)).getD source.last
  return (start, mark ++ [target.node, source.node] ++ tests, stop)

/-- Puts each clause into the one before it. -/
def nestClauses : List (Nat × List Node × Nat) → List Node
  | [] => []
  | (start, parts, stop) :: rest =>
    let inner := nestClauses rest
    let last := (inner.head?.map (·.span.stop)).getD stop
    [plainNode .compFor start last (parts ++ inner)]

/-- The clauses of a comprehension. -/
def compFor (g : Grammar) : Recognizer (List Node) := do
  return nestClauses (← some1 (compClause g))

/-- Whether a comprehension clause starts here. -/
def atComprehension : Recognizer Bool := do
  let t ← peek
  return isWord "for" t || isWord "async" t

/-! ### Arguments -/

/-- The kinds of arguments that may still come. -/
inductive ArgumentPhase where
  | plain
  | keyword
  | doubleStarred
  deriving DecidableEq

/-- An argument, its keyword and the number of its stars. -/
structure Argument where
  node : Node
  keyword : Option String
  stars : Nat

/-- Whether an argument has neither keyword nor star. -/
def Argument.isPlain (a : Argument) : Bool :=
  a.keyword.isNone && a.stars == 0

/-- One argument of a call or of the bases of a class. -/
def argument (g : Grammar) (phase : ArgumentPhase) : Recognizer (Argument × ArgumentPhase) := do
  let t ← peek
  if isOperator "**" t then
    let _ ← op "**"
    let e ← g .expression
    return (⟨nodeOf (.arg none) t.start e.last [e.node], none, 2⟩, .doubleStarred)
  else if isOperator "*" t then
    guardThat (phase != .doubleStarred)
    let _ ← op "*"
    let e ← g .expression
    return (⟨nodeOf (.arg none) t.start e.last [e.node], none, 1⟩, phase)
  else
    let keyword ← maybe do
      let name ← identifier
      let _ ← op "="
      return name
    match keyword with
    | some name =>
      let e ← g .expression
      let node := nodeOf (.arg (some name.text)) name.start e.last [nameNode name, e.node]
      return (⟨node, some name.text, 0⟩, if phase = .plain then .keyword else phase)
    | none =>
      guardThat (phase == .plain)
      let e ← g .namedExpression
      return (⟨nodeOf (.arg none) e.first e.last [e.node], none, 0⟩, phase)

/-- The arguments up to the closing parenthesis, which is not read. -/
def argumentsFrom (g : Grammar) : Nat → ArgumentPhase → Recognizer (List Argument)
  | 0, _ => fail
  | fuel + 1, phase => do
    if ← atOp ")" then return []
    else
      let (a, phase') ← argument g phase
      let comma ← maybe (op ",")
      let atEnd ← atOp ")"
      guardThat (comma.isSome || atEnd)
      let rest ← argumentsFrom g fuel phase'
      return a :: rest

/-- The arguments between two parentheses, the first of which has been read. -/
def arguments (g : Grammar) : Recognizer (List Argument) := do
  let items ← fun ts i => argumentsFrom g (ts.size - i) .plain ts i
  let _ ← op ")"
  return items

/-- The argument made of a generator that has no parentheses of its own, after
its element. -/
def generatorArgument (g : Grammar) (element : Piece) : Recognizer (List Argument) := do
  let clauses ← compFor g
  let last ← lastStop
  let _ ← op ")"
  let generator := plainNode .generatorExp element.first last (element.node :: clauses)
  return [⟨nodeOf (.arg none) element.first last [generator], none, 0⟩]

/-- The arguments of a call, whose opening parenthesis has been read: a lone
generator may stand there without parentheses of its own. -/
def callArguments (g : Grammar) : Recognizer (List Argument) := do
  if ← atOp ")" then arguments g
  else
    let (first, phase) ← argument g .plain
    match first.node.children, first.isPlain && (← atComprehension) with
    | [element], true =>
      generatorArgument g ⟨element, first.node.span.start, first.node.span.stop⟩
    | _, _ =>
      let comma ← maybe (op ",")
      let atEnd ← atOp ")"
      guardThat (comma.isSome || atEnd)
      let rest ← fun ts i => argumentsFrom g (ts.size - i) phase ts i
      let _ ← op ")"
      return first :: rest

/-! ### Subscripts -/

/-- The slice with the given lower bound, from its first colon on. A colon takes
the blanks after it, so a slice that ends with one reaches up to the next
token. -/
def slice (g : Grammar) (lower : Option Piece) : Recognizer Node := do
  let colon ← op ":"
  let upper ← maybe (g .expression)
  let second ← maybe (op ":")
  let step ← if second.isSome then maybe (g .expression) else pure none
  let next ← peek
  let start := (lower.map Piece.first).getD colon.start
  let lastPart := if second.isSome then step else upper
  let stop := (lastPart.map Piece.last).getD next.start
  return plainNode .slice start stop
    ((lower.toList ++ upper.toList ++ step.toList).map Piece.node)

/-- The subscript made of one part. -/
def subscriptElement (part : Node) : Node :=
  plainNode .subscriptElement part.span.start part.span.stop [part]

/-- One subscript: a slice, or an index, which may be starred. -/
def subscriptItem (g : Grammar) : Recognizer Node := do
  let t ← peek
  if isOperator ":" t then
    return subscriptElement (← slice g none)
  else if isOperator "*" t then
    let _ ← op "*"
    let e ← g .expression
    return subscriptElement (plainNode .index t.start e.last [e.node])
  else
    let e ← g .namedExpression
    if (← atOp ":") && !(hasShape .namedExpr e.node && e.isBare) then
      return subscriptElement (← slice g (some e))
    else return subscriptElement (plainNode .index e.first e.last [e.node])

/-- The subscripts between two brackets, the first of which has been read. -/
def subscripts (g : Grammar) : Recognizer (List Node) := do
  let (items, _) ← commaSeparated (subscriptItem g)
  let _ ← op "]"
  return items

end HouseStyle.Python
