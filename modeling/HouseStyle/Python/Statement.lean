import HouseStyle.Python.Pattern

/-!
# Statements

Simple statements share lines, compound statements own blocks. A statement covers
its words alone: neither the comments and blank lines around it nor a final
semicolon. A definition starts at its keyword, after its decorators, and a
compound statement ends where its last block ends.

* `simpleLine`, `compound`: the two kinds of statements.
* `block`: the body of a compound statement.
-/

namespace HouseStyle.Python

open Recognizer

/-! ### Simple statements -/

/-- The operators that change a variable in place. -/
def augmentedOperators : List String :=
  ["+=", "-=", "*=", "/=", "//=", "%=", "@=", "&=", "|=", "^=", ">>=", "<<=", "**="]

/-- The node of a target. -/
def targetNode (p : Piece) : Node :=
  plainNode .assignTarget p.first p.last [p.node]

/-- The value of an assignment after further targets between equals signs. -/
def assignedValue (g : Grammar) : Nat → Recognizer (List Piece × Piece)
  | 0 => fail
  | fuel + 1 => do
    let p ← g .yieldOrStarExpressions
    if ← atOp "=" then
      guardThat (isTarget p.node)
      let _ ← op "="
      let (targets, value) ← assignedValue g fuel
      return (p :: targets, value)
    else return ([], p)

/-- An assignment, with or without a hint, or an expression alone. -/
def expressionStatement (g : Grammar) : Recognizer Node := do
  let p ← starExpressions g
  let t ← peek
  if isOperator "=" t then
    guardThat (isTarget p.node)
    let _ ← op "="
    let (targets, value) ← fun ts i => assignedValue g (ts.size - i) ts i
    return plainNode .assign p.first value.last
      ((p :: targets).map targetNode ++ [value.node])
  else if isOperator ":" t then
    guardThat (p.isBare && isSimpleTarget p.node)
    let hint ← typeHint g
    let value ← maybe (op "=" *> g .yieldOrStarExpressions)
    return plainNode .annAssign p.first ((value.map Piece.last).getD hint.last)
      (p.node :: hint.node :: (value.map Piece.node).toList)
  else if t.kind == .operator && augmentedOperators.contains t.text then
    guardThat (isSimpleTarget p.node)
    let _ ← oneOf augmentedOperators
    let value ← g .yieldOrStarExpressions
    return plainNode .augAssign p.first value.last [p.node, value.node]
  else return plainNode .expressionStatement p.first p.last [p.node]

/-- A statement made of one word. -/
def wordStatement (w : String) (shape : Shape) : Recognizer Node := do
  let t ← word w
  return plainNode shape t.start t.stop []

/-- A return statement. -/
def returnStatement (g : Grammar) : Recognizer Node := do
  let t ← word "return"
  match ← maybe (starExpressions g) with
  | some p => return plainNode .returnStatement t.start p.last [p.node]
  | none => return plainNode .returnStatement t.start t.stop []

/-- A raise statement. -/
def raiseStatement (g : Grammar) : Recognizer Node := do
  let t ← word "raise"
  match ← maybe (expression g) with
  | none => return plainNode .raiseStatement t.start t.stop []
  | some p =>
    match ← maybe (word "from") with
    | none => return plainNode .raiseStatement t.start p.last [p.node]
    | some source =>
      let cause ← expression g
      let clause := plainNode .fromClause source.start cause.last [cause.node]
      return plainNode .raiseStatement t.start cause.last [p.node, clause]

/-- An assert statement. -/
def assertStatement (g : Grammar) : Recognizer Node := do
  let t ← word "assert"
  let test ← expression g
  match ← maybe (op "," *> expression g) with
  | some m => return plainNode .assertStatement t.start m.last [test.node, m.node]
  | none => return plainNode .assertStatement t.start test.last [test.node]

/-- A del statement. -/
def delStatement (g : Grammar) : Recognizer Node := do
  let t ← word "del"
  let target ← asTuple (commaSeparated (primary g))
  guardThat (isDeletable target.node)
  return plainNode .delStatement t.start target.last [target.node]

/-- A statement that declares names to be those of an outer scope. -/
def scopeStatement (w : String) (shape : Shape) : Recognizer Node := do
  let t ← word w
  let first ← identifier
  let rest ← many (op "," *> identifier)
  let items := (first :: rest).map fun n => plainNode .nameItem n.start n.stop [nameNode n]
  return plainNode shape t.start ((first :: rest).getLastD first).stop items

/-- The parameters of a generic definition. -/
def typeParameters (g : Grammar) : Recognizer Node := do
  let opening ← op "["
  let parameter : Recognizer (List Node × Nat × Nat) := do
    let star ← maybe (oneOf ["*", "**"])
    let name ← identifier
    let bound ← if star.isNone then maybe (op ":" *> g .expression) else pure none
    let shape := match star with
      | none => Shape.typeVar
      | some t => if t.text = "*" then .typeVarTuple else .paramSpec
    let start := (star.map Token.start).getD name.start
    let stop := (bound.map Piece.last).getD name.stop
    let inner := plainNode shape start stop (nameNode name :: (bound.map Piece.node).toList)
    match ← maybe (op "=" *> g .starNamedExpression) with
    | some value => return ([inner, value.node], start, value.last)
    | none => return ([inner], start, stop)
  let item : Recognizer Piece := do
    let (parts, start, stop) ← parameter
    return .plain .typeParam start stop parts
  let (items, commas, trailing) ← withCommas item
  let closing ← op "]"
  let build (p : Piece) (stop : Nat) : Node :=
    plainNode .typeParam p.first stop p.node.children
  return plainNode .typeParameters opening.start closing.stop
    (separatedElements build commas trailing items)

/-- A definition of a type by name. -/
def typeAlias (g : Grammar) : Recognizer Node := do
  let t ← word "type"
  let name ← identifier
  let params ← maybe (typeParameters g)
  let _ ← op "="
  let value ← expression g
  return plainNode .typeAlias t.start value.last
    (nameNode name :: params.toList ++ [value.node])

/-! ### Imports -/

/-- The name that an import is bound to, from the blank before `as` on. -/
def asName (target : Recognizer Piece) : Recognizer Piece := do
  let start ← lastStop
  let _ ← word "as"
  let p ← target
  return .plain .asName start p.last [p.node]

/-- A name as a piece. -/
def namePiece : Recognizer Piece := do
  return .ofNode (nameNode (← identifier))

/-- An imported name and the name it is bound to. -/
def importAlias (path : Recognizer Piece) : Recognizer (Node × Option String) := do
  let p ← path
  let name := dottedName? p.node
  match ← maybe (asName namePiece) with
  | some bound =>
    let asText := bound.node.children.head?.bind dottedName?
    return (nodeOf (.importAlias name asText) p.first bound.last [p.node, bound.node], name)
  | none => return (nodeOf (.importAlias name none) p.first p.last [p.node], name)

/-- The names of imported things; one without a name counts as empty. -/
def aliasNames (aliases : List (Node × Option String)) : List String :=
  aliases.map fun a => a.2.getD ""

/-- A plain import. -/
def importStatement : Recognizer Node := do
  let t ← word "import"
  let first ← importAlias dottedPath
  let rest ← many (op "," *> importAlias dottedPath)
  let aliases := first :: rest
  let stop ← lastStop
  return nodeOf (.importNames (aliasNames aliases)) t.start stop (aliases.map Prod.fst)

/-- The number of dots before the module of an import. -/
def importLevel : Recognizer Nat := do
  let dots ← many (oneOf [".", "..."])
  return dots.foldl (fun n t => n + t.text.length) 0

/-- An import from a module. -/
def importFromStatement : Recognizer Node := do
  let t ← word "from"
  let level ← importLevel
  let path ← maybe dottedPath
  guardThat (0 < level || path.isSome)
  let _ ← word "import"
  let moduleName := (path.bind fun p => dottedName? p.node).getD ""
  let moduleNodes := (path.map Piece.node).toList
  let build (names : List String) (stop : Nat) (items : List Node) : Node :=
    nodeOf (.importFrom moduleName level names) t.start stop (moduleNodes ++ items)
  let next ← peek
  if isOperator "*" next then
    let star ← op "*"
    return build ["*"] star.stop [plainNode .importStar star.start star.stop []]
  else if isOperator "(" next then
    let _ ← op "("
    let (aliases, _) ← commaSeparated (importAlias namePiece)
    let closing ← op ")"
    return build (aliasNames aliases) closing.stop (aliases.map Prod.fst)
  else
    let first ← importAlias namePiece
    let rest ← many (op "," *> importAlias namePiece)
    let stop ← lastStop
    return build (aliasNames (first :: rest)) stop ((first :: rest).map Prod.fst)

/-! ### Lines -/

/-- A statement without a block. -/
def simpleStatement (g : Grammar) : Recognizer Node := do
  let t ← peek
  guardThat (t.kind != .newline)
  match if t.kind == .name then t.text else "" with
  | "return" => returnStatement g
  | "import" => importStatement
  | "from" => importFromStatement
  | "raise" => raiseStatement g
  | "pass" => wordStatement "pass" .passStatement
  | "del" => delStatement g
  | "yield" =>
    let p ← yieldExpression g
    return plainNode .expressionStatement p.first p.last [p.node]
  | "assert" => assertStatement g
  | "break" => wordStatement "break" .breakStatement
  | "continue" => wordStatement "continue" .continueStatement
  | "global" => scopeStatement "global" .globalStatement
  | "nonlocal" => scopeStatement "nonlocal" .nonlocalStatement
  | "type" => typeAlias g <|> expressionStatement g
  | _ => expressionStatement g

/-- The statements of a line, as a node of the given shape. -/
def simpleLine (g : Grammar) (shape : Shape) : Recognizer Node := do
  let first ← simpleStatement g
  let rest ← many (op ";" *> simpleStatement g)
  let _ ← maybe (op ";")
  let _ ← kind .newline
  let last := (first :: rest).getLastD first
  return plainNode shape first.span.start last.span.stop (first :: rest)

/-! ### Compound statements -/

/-- A colon and the block after it. -/
def body (g : Grammar) : Recognizer Node := do
  let _ ← op ":"
  return (← g .block).node

/-- A clause made of a word and a block. -/
def clause (g : Grammar) (w : String) (shape : Shape) : Recognizer Node := do
  let t ← word w
  let b ← body g
  return plainNode shape t.start b.span.stop [b]

/-- The `else` clause of a statement. -/
def elseClause (g : Grammar) : Recognizer Node :=
  clause g "else" .elseClause

/-- The offset at which the last of some nodes ends. -/
def lastEnd (nodes : List Node) (start : Nat) : Nat :=
  (nodes.getLast?.map (·.span.stop)).getD start

/-- A compound statement that starts at an offset and ends with its last part. -/
def compoundNode (form : Form) (start : Nat) (parts : List Node) : Node :=
  nodeOf form start (lastEnd parts start) parts

/-- Puts each alternative of a conditional into the one before it. -/
def nestBranches (otherwise : Option Node) : List (Nat × List Node) → Option Node
  | [] => otherwise
  | (start, parts) :: rest =>
    let inner := nestBranches otherwise rest
    some (compoundNode (.plain .ifStatement) start (parts ++ inner.toList))

/-- A word, a test and a block. -/
def branch (g : Grammar) (w : String) : Recognizer (Nat × List Node) := do
  let t ← word w
  let test ← namedExpression g
  let b ← body g
  return (t.start, [test.node, b])

/-- A conditional statement. -/
def ifStatement (g : Grammar) : Recognizer Node := do
  let first ← branch g "if"
  let rest ← many (branch g "elif")
  let otherwise ← maybe (elseClause g)
  match nestBranches otherwise (first :: rest) with
  | some n => return n
  | none => fail

/-- A loop with a test. -/
def whileStatement (g : Grammar) : Recognizer Node := do
  let (start, parts) ← branch g "while"
  let otherwise ← maybe (elseClause g)
  return compoundNode (.plain .whileStatement) start (parts ++ otherwise.toList)

/-- The node of the word `async`, if it was there. -/
def asyncNode (async : Option Token) : List Node :=
  async.toList.map fun t => plainNode .asynchronous t.start t.stop []

/-- A loop over values. -/
def forStatement (g : Grammar) (async : Option Token) : Recognizer Node := do
  let t ← word "for"
  let target ← starTargets g
  let _ ← word "in"
  let source ← starExpressions g
  let b ← body g
  let otherwise ← maybe (elseClause g)
  return compoundNode (.plain .forStatement) ((async.map Token.start).getD t.start)
    (asyncNode async ++ [target.node, source.node, b] ++ otherwise.toList)

/-- An item of a with statement. -/
def withItem (g : Grammar) : Recognizer Node := do
  let p ← expression g
  match ← maybe (asName (starTarget g)) with
  | some bound => return plainNode .withItem p.first bound.last [p.node, bound.node]
  | none => return plainNode .withItem p.first p.last [p.node]

/-- The items of a with statement up to its colon, in parentheses or not. -/
def withItems (g : Grammar) : Recognizer (List Node) :=
  (do
    let _ ← op "("
    let (items, _) ← commaSeparated (withItem g)
    let _ ← op ")"
    guardThat (← atOp ":")
    return items) <|>
  (do
    let first ← withItem g
    let rest ← many (op "," *> withItem g)
    return first :: rest)

/-- A with statement. -/
def withStatement (g : Grammar) (async : Option Token) : Recognizer Node := do
  let t ← word "with"
  let items ← withItems g
  let b ← body g
  return compoundNode (.plain .withStatement) ((async.map Token.start).getD t.start)
    (asyncNode async ++ items ++ [b])

/-- A handler of a try statement; `star` tells whether it handles groups. -/
def handler (g : Grammar) (star : Bool) : Recognizer Node := do
  let t ← word "except"
  if star then
    let _ ← op "*"
  let caught ← if star then some <$> expression g else maybe (expression g)
  let bound ← if caught.isSome then maybe (asName namePiece) else pure none
  let b ← body g
  let shape := if star then Shape.exceptStarHandler else .exceptHandler
  return compoundNode (.plain shape) t.start
    ((caught.map Piece.node).toList ++ (bound.map Piece.node).toList ++ [b])

/-- A try statement: handlers of one kind, or a final clause, or both. -/
def tryStatement (g : Grammar) : Recognizer Node := do
  let t ← word "try"
  let b ← body g
  let plain ← many (handler g false)
  let starred ← if plain.isEmpty then many (handler g true) else pure []
  let handlers := plain ++ starred
  let otherwise ← if handlers.isEmpty then pure none else maybe (elseClause g)
  let final ← maybe (clause g "finally" .finallyClause)
  guardThat (!handlers.isEmpty || final.isSome)
  let shape := if starred.isEmpty then Shape.tryStatement else .tryStar
  return compoundNode (.plain shape) t.start
    (b :: handlers ++ otherwise.toList ++ final.toList)

/-- A decorator and the end of its line. -/
def decorator (g : Grammar) : Recognizer Node := do
  let t ← op "@"
  let p ← namedExpression g
  let _ ← kind .newline
  return plainNode .decorator t.start p.last [p.node]

/-- The definition of a function. -/
def functionDef (g : Grammar) (decorators : List Node) (async : Option Token) :
    Recognizer Node := do
  let t ← word "def"
  let name ← identifier
  let types ← maybe (typeParameters g)
  let _ ← op "("
  let params ← parameters g true ")" none
  let _ ← op ")"
  let result ← maybe (op "->" *> expression g)
  let b ← body g
  let hint := result.toList.map fun p => plainNode .typeHint p.first p.last [p.node]
  return compoundNode (.functionDef name.text async.isSome)
    ((async.map Token.start).getD t.start)
    (decorators ++ asyncNode async ++ [nameNode name] ++ types.toList ++ [params] ++ hint ++ [b])

/-- Whether an argument of a class names a base: one without keyword and with at
most one star. -/
def isBase (a : Argument) : Bool :=
  a.keyword.isNone && decide (a.stars < 2)

/-- The definition of a class. -/
def classDef (g : Grammar) (decorators : List Node) : Recognizer Node := do
  let t ← word "class"
  let name ← identifier
  let types ← maybe (typeParameters g)
  let args ← maybe (op "(" *> arguments g)
  let b ← body g
  let (bases, keywords) := (args.getD []).partition isBase
  let baseNames := bases.map fun a => (a.node.children.getLast?.bind dottedName?).getD ""
  return compoundNode (.classDef name.text baseNames) t.start
    (decorators ++ [nameNode name] ++ types.toList ++ bases.map Argument.node ++
      keywords.map Argument.node ++ [b])

/-- A case of a match statement. -/
def matchCase (g : Grammar) : Recognizer Node := do
  let t ← word "case"
  let p ← casePatterns g
  let guard ← maybe (word "if" *> namedExpression g)
  let b ← body g
  return compoundNode (.plain .matchCase) t.start
    (p.node :: (guard.map Piece.node).toList ++ [b])

/-- The subject of a match statement. -/
def matchSubject (g : Grammar) : Recognizer Piece := do
  let (items, trailing) ← commaSeparated (starNamedExpression g)
  match items, trailing with
  | [p], none =>
    guardThat !(isStarred p)
    return p
  | _, _ => asTuple (pure (items, trailing))

/-- A match statement. -/
def matchStatement (g : Grammar) : Recognizer Node := do
  let t ← word "match"
  let subject ← matchSubject g
  let _ ← op ":"
  let _ ← kind .newline
  let _ ← kind .indent
  let cases ← some1 (matchCase g)
  let _ ← kind .dedent
  return compoundNode (.plain .matchStatement) t.start (subject.node :: cases)

/-- A statement that starts with `async`. -/
def asyncStatement (g : Grammar) : Recognizer Node := do
  let async ← word "async"
  let t ← peek
  match t.text with
  | "def" => functionDef g [] (some async)
  | "for" => forStatement g (some async)
  | "with" => withStatement g (some async)
  | _ => fail

/-- A definition after its decorators. -/
def decorated (g : Grammar) : Recognizer Node := do
  let decorators ← some1 (decorator g)
  let async ← maybe (word "async")
  let t ← peek
  if isWord "class" t && async.isNone then classDef g decorators
  else functionDef g decorators async

/-- A statement. -/
def statement (g : Grammar) : Recognizer Node := do
  let t ← peek
  let simple := simpleLine g .simpleStatementLine
  if isOperator "@" t then decorated g
  else
    match if t.kind == .name then t.text else "" with
    | "def" => functionDef g [] none
    | "class" => classDef g []
    | "if" => ifStatement g
    | "while" => whileStatement g
    | "for" => forStatement g none
    | "with" => withStatement g none
    | "try" => tryStatement g
    | "async" => asyncStatement g
    | "match" => matchStatement g <|> simple
    | _ => simple

/-- The body of a compound statement: statements on the same line, or an indented
block, which runs from its first statement to the end of its last. -/
def block (g : Grammar) : Recognizer Piece := do
  match ← maybe (kind .newline) with
  | none => return .ofNode (← simpleLine g .simpleStatementSuite)
  | some _ =>
    let _ ← kind .indent
    let statements ← some1 (statement g)
    let _ ← kind .dedent
    let start := (statements.head?.map (·.span.start)).getD 0
    return .plain .indentedBlock start (lastEnd statements start) statements

end HouseStyle.Python
