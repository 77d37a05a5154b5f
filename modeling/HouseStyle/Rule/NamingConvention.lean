import HouseStyle.Rule.Basic

/-!
# The case of names

Functions, parameters and variables are named in lower case with underscores,
classes with capitals, and constants may be all capitals.

* `namingConvention`: the rule.
* `NameCase.isSnake`, `NameCase.isUpper`, `NameCase.isPascal` are the shapes of names.
-/

namespace HouseStyle

namespace NameCase

/-- Whether a character is a small letter of the Latin alphabet. -/
def isSmall (c : Char) : Bool :=
  decide ('a' ≤ c) && decide (c ≤ 'z')

/-- Whether a character is a capital of the Latin alphabet. -/
def isCapital (c : Char) : Bool :=
  decide ('A' ≤ c) && decide (c ≤ 'Z')

/-- Whether a text is a character of one class and further ones of another. -/
def isWord (first later : Char → Bool) : List Char → Bool
  | [] => false
  | c :: rest => first c && rest.all later

/-- A name without the underscores at its start. -/
def bare (name : String) : List Char :=
  name.toList.dropWhile (· == '_')

/-- Whether a name is small letters, digits and underscores, or underscores alone. -/
def isSnake (name : String) : Bool :=
  isWord isSmall (fun c => isSmall c || c.isDigit || c == '_') (bare name) ||
    ((bare name).isEmpty && name != "")

/-- Whether a name is capitals, digits and underscores. -/
def isUpper (name : String) : Bool :=
  isWord isCapital (fun c => isCapital c || c.isDigit || c == '_') (bare name)

/-- Whether a name begins with a capital and has no further underscores. -/
def isPascal (name : String) : Bool :=
  isWord isCapital (fun c => isSmall c || isCapital c || c.isDigit) (bare name)

end NameCase

namespace NamingConvention

mutual

/-- The names that an assignment to a target binds. -/
def boundNames : Node → List (String × Span)
  | ⟨label, span, children⟩ =>
    match label with
    | .python (.name value) => [(value, span)]
    | .python (.plain .tupleDisplay) | .python (.plain .listDisplay)
    | .python (.plain .element) | .python (.plain .starredElement) => boundNamesOf children
    | _ => []

/-- The names that assignments to some targets bind. -/
def boundNamesOf : List Node → List (String × Span)
  | [] => []
  | n :: rest => boundNames n ++ boundNamesOf rest

end

/-- The first name among the direct children of a node. -/
def nameOf? (n : Node) : Option (String × Span) :=
  n.children.findSome? fun c =>
    match c.label with
    | .python (.name value) => some (value, c.span)
    | _ => none

/-- Reports a name. -/
def report (c : Context) (name : String × Span) (what style : String) : Violation :=
  c.violation name.2 s!"{what} name '{name.1}' should be {style}"

/-- Reports the name of a definition unless it is exempt or has the right shape. -/
def checkName (n : Node) (c : Context) (what style : String) (isRight : String → Bool) :
    List Violation :=
  match nameOf? n with
  | none => []
  | some name =>
    if (c.options .namingConvention).ignoreNames.contains name.1 || isRight name.1 then []
    else [report c name what style]

/-- Whether a scope lies in a function. -/
def inFunction (s : Scope) : Bool :=
  s.ancestors.any fun a =>
    match a.label with
    | .python (.functionDef _ _) => true
    | _ => false

/-- Reports the names that an assignment binds. -/
def checkTarget (n : Node) (c : Context) : List Violation :=
  let o := c.options .namingConvention
  let allowUpper := o.allowUpperConstants && !inFunction c.scope
  match n.children with
  | [] => []
  | target :: _ =>
    (boundNames target).filterMap fun name =>
      if o.ignoreNames.contains name.1 || NameCase.isSnake name.1 ||
          (allowUpper && NameCase.isUpper name.1) then none
      else some (report c name "Variable" "snake_case")

/-- Reports names in the wrong case. -/
def check (n : Node) (c : Context) : List Violation :=
  match n.label with
  | .python (.classDef _ _) => checkName n c "Class" "PascalCase" NameCase.isPascal
  | .python (.functionDef _ _) => checkName n c "Function" "snake_case" NameCase.isSnake
  | .python (.param _) => checkName n c "Parameter" "snake_case" NameCase.isSnake
  | _ => checkTarget n c

/-- The kinds of nodes that introduce names. -/
def kinds : List String :=
  ["FunctionDef", "ClassDef", "Param", "AssignTarget", "AnnAssign"]

end NamingConvention

/-- Flags identifiers that break the case conventions. -/
def namingConvention : Rule :=
  { info :=
      { id := RuleId.namingConvention.name, name := "Naming Convention", category := "naming"
        languages := [.python], kinds := NamingConvention.kinds, severity := .error
        fixable := false
        description := "Functions, parameters, variables and model fields use\n" ++
          "snake_case; classes use PascalCase. Module and class level\n" ++
          "constants may be UPPER_CASE."
        badExample := "def getUser(userId): ..."
        goodExample := "def get_user(user_id): ..."
        fixDescription := ""
        configOptions := "[tool.styleguard.rules.\"python.naming-convention\"]\n" ++
          "options = \x7b allow_upper_constants = true, ignore_names = [\"setUp\"] \x7d" }
    applies := fun n => .ok (NamingConvention.kinds.contains n.kind)
    check := Rule.simpleCheck NamingConvention.check
    fix := Rule.noFix }

end HouseStyle
