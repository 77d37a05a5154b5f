/-!
# Forms of Python syntax

The grammatical form of a node of a Python module: its kind, together with the
facts that rules match on. Forms without such facts are the constructors of
`Shape`.

* `Form.kind` names the form.
-/

namespace HouseStyle.Python

/-- Forms that carry nothing besides their parts. -/
inductive Shape where
  | moduleFile
  | simpleStatementLine
  | simpleStatementSuite
  | indentedBlock
  | expressionStatement
  | assign
  | assignTarget
  | annAssign
  | augAssign
  | returnStatement
  | raiseStatement
  | fromClause
  | assertStatement
  | delStatement
  | globalStatement
  | nonlocalStatement
  | nameItem
  | passStatement
  | breakStatement
  | continueStatement
  | importStar
  | asName
  | ifStatement
  | whileStatement
  | forStatement
  | withStatement
  | withItem
  | tryStatement
  | tryStar
  | exceptHandler
  | exceptStarHandler
  | elseClause
  | finallyClause
  | decorator
  | parameters
  | paramSlash
  | paramStar
  | typeHint
  | lambdaExp
  | subscript
  | subscriptElement
  | index
  | slice
  | binaryOperation
  | booleanOperation
  | unaryOperation
  | comparison
  | comparisonTarget
  | ifExp
  | namedExpr
  | awaitExp
  | yieldExp
  | tupleDisplay
  | listDisplay
  | setDisplay
  | element
  | starredElement
  | dictDisplay
  | dictElement
  | starredDictElement
  | listComp
  | setComp
  | generatorExp
  | dictComp
  | compFor
  | compIf
  | concatenatedString
  | formattedString
  | formattedStringText
  | formattedStringExpression
  | integerNumber
  | floatNumber
  | imaginaryNumber
  | ellipsis
  | matchStatement
  | matchCase
  | matchValue
  | matchSingleton
  | matchAs
  | matchStar
  | matchList
  | matchTuple
  | matchSequenceElement
  | matchMapping
  | matchMappingElement
  | matchClass
  | matchKeywordElement
  | matchOr
  | matchOrElement
  | typeAlias
  | typeParameters
  | typeParam
  | typeVar
  | typeVarTuple
  | paramSpec
  | asynchronous
  deriving DecidableEq

/-- The name of a form. -/
def Shape.kind : Shape → String
  | .moduleFile => "Module"
  | .simpleStatementLine => "SimpleStatementLine"
  | .simpleStatementSuite => "SimpleStatementSuite"
  | .indentedBlock => "IndentedBlock"
  | .expressionStatement => "Expr"
  | .assign => "Assign"
  | .assignTarget => "AssignTarget"
  | .annAssign => "AnnAssign"
  | .augAssign => "AugAssign"
  | .returnStatement => "Return"
  | .raiseStatement => "Raise"
  | .fromClause => "From"
  | .assertStatement => "Assert"
  | .delStatement => "Del"
  | .globalStatement => "Global"
  | .nonlocalStatement => "Nonlocal"
  | .nameItem => "NameItem"
  | .passStatement => "Pass"
  | .breakStatement => "Break"
  | .continueStatement => "Continue"
  | .importStar => "ImportStar"
  | .asName => "AsName"
  | .ifStatement => "If"
  | .whileStatement => "While"
  | .forStatement => "For"
  | .withStatement => "With"
  | .withItem => "WithItem"
  | .tryStatement => "Try"
  | .tryStar => "TryStar"
  | .exceptHandler => "ExceptHandler"
  | .exceptStarHandler => "ExceptStarHandler"
  | .elseClause => "Else"
  | .finallyClause => "Finally"
  | .decorator => "Decorator"
  | .parameters => "Parameters"
  | .paramSlash => "ParamSlash"
  | .paramStar => "ParamStar"
  | .typeHint => "Annotation"
  | .lambdaExp => "Lambda"
  | .subscript => "Subscript"
  | .subscriptElement => "SubscriptElement"
  | .index => "Index"
  | .slice => "Slice"
  | .binaryOperation => "BinaryOperation"
  | .booleanOperation => "BooleanOperation"
  | .unaryOperation => "UnaryOperation"
  | .comparison => "Comparison"
  | .comparisonTarget => "ComparisonTarget"
  | .ifExp => "IfExp"
  | .namedExpr => "NamedExpr"
  | .awaitExp => "Await"
  | .yieldExp => "Yield"
  | .tupleDisplay => "Tuple"
  | .listDisplay => "List"
  | .setDisplay => "Set"
  | .element => "Element"
  | .starredElement => "StarredElement"
  | .dictDisplay => "Dict"
  | .dictElement => "DictElement"
  | .starredDictElement => "StarredDictElement"
  | .listComp => "ListComp"
  | .setComp => "SetComp"
  | .generatorExp => "GeneratorExp"
  | .dictComp => "DictComp"
  | .compFor => "CompFor"
  | .compIf => "CompIf"
  | .concatenatedString => "ConcatenatedString"
  | .formattedString => "FormattedString"
  | .formattedStringText => "FormattedStringText"
  | .formattedStringExpression => "FormattedStringExpression"
  | .integerNumber => "Integer"
  | .floatNumber => "Float"
  | .imaginaryNumber => "Imaginary"
  | .ellipsis => "Ellipsis"
  | .matchStatement => "Match"
  | .matchCase => "MatchCase"
  | .matchValue => "MatchValue"
  | .matchSingleton => "MatchSingleton"
  | .matchAs => "MatchAs"
  | .matchStar => "MatchStar"
  | .matchList => "MatchList"
  | .matchTuple => "MatchTuple"
  | .matchSequenceElement => "MatchSequenceElement"
  | .matchMapping => "MatchMapping"
  | .matchMappingElement => "MatchMappingElement"
  | .matchClass => "MatchClass"
  | .matchKeywordElement => "MatchKeywordElement"
  | .matchOr => "MatchOr"
  | .matchOrElement => "MatchOrElement"
  | .typeAlias => "TypeAlias"
  | .typeParameters => "TypeParameters"
  | .typeParam => "TypeParam"
  | .typeVar => "TypeVar"
  | .typeVarTuple => "TypeVarTuple"
  | .paramSpec => "ParamSpec"
  | .asynchronous => "Asynchronous"

/-- The grammatical form of a node, with the facts that rules match on. A dotted
name is absent where an expression has none. -/
inductive Form where
  /-- An identifier. -/
  | name (value : String)
  /-- An attribute access with its dotted name. -/
  | attribute (dotted : Option String)
  /-- A plain import and the modules it names. -/
  | importNames (names : List String)
  /-- An import from a module, `level` packages up. -/
  | importFrom (moduleName : String) (level : Nat) (names : List String)
  /-- One imported name and the name it is bound to. -/
  | importAlias (name asName : Option String)
  /-- A class and the dotted names of its bases. -/
  | classDef (name : String) (bases : List String)
  /-- A function. -/
  | functionDef (name : String) (isAsync : Bool)
  /-- A parameter. -/
  | param (name : String)
  /-- A call, the dotted name of what is called and its keywords. -/
  | call (func : Option String) (keywords : List String)
  /-- An argument of a call. -/
  | arg (keyword : Option String)
  /-- A string literal: its text, the letters before the quote in lower case, and
  the quote. -/
  | simpleString (value marker quote : String)
  /-- Any other form. -/
  | plain (shape : Shape)

/-- The name of a node's form. -/
def Form.kind : Form → String
  | .name _ => "Name"
  | .attribute _ => "Attribute"
  | .importNames _ => "Import"
  | .importFrom _ _ _ => "ImportFrom"
  | .importAlias _ _ => "ImportAlias"
  | .classDef _ _ => "ClassDef"
  | .functionDef _ _ => "FunctionDef"
  | .param _ => "Param"
  | .call _ _ => "Call"
  | .arg _ => "Arg"
  | .simpleString _ _ _ => "SimpleString"
  | .plain shape => shape.kind

end HouseStyle.Python
