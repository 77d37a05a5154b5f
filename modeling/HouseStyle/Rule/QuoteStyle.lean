import HouseStyle.Rule.Basic

/-!
# Quotes of string literals

String literals on one line have the preferred quotes, unless their text holds
that quote. Documentation strings are left alone.

* `quoteStyle`: the rule.
* `Quotes.swapped?` is a literal with the preferred quotes.
-/

namespace HouseStyle

namespace Quotes

/-- The character of a quote style. -/
def character : QuoteStyle → Char
  | .single => '\''
  | .double => '"'

/-- A literal with the preferred quotes, unless it has them or cannot have them. -/
def swapped? (o : QuoteStyleOptions) (n : Node) : Option String :=
  match n.label with
  | .python (.simpleString value marker quote) =>
    let preferred := character o.preferred
    let body := (value.toList.drop (marker.length + 1)).dropLast
    if quote == preferred.toString || body.contains preferred then none
    else some (marker ++ String.ofList (preferred :: body ++ [preferred]))
  | _ => none

/-- Whether the statements of a node can begin with a documentation string, when
`around` are the nodes around it. -/
def holdsDocstring (body : Node) (around : List Node) : Bool :=
  body.hasShape .moduleFile ||
    (body.hasShape .indentedBlock &&
      match around with
      | owner :: _ =>
        match owner.label with
        | .python (.classDef _ _) | .python (.functionDef _ _) => true
        | _ => false
      | [] => false)

/-- Whether a string in a scope is a statement of its own, the first of a module, a
class or a function. -/
def isDocstring (s : Scope) : Bool :=
  match s.parent :: s.outer with
  | e :: statement :: body :: around =>
    e.hasShape .expressionStatement && e.children.length == 1 &&
      statement.hasShape .simpleStatementLine && statement.children.length == 1 &&
      (body.children.head?.any fun first => first.span == statement.span) &&
      holdsDocstring body around
  | _ => false

/-- Reports a literal with the other quotes. -/
def check (n : Node) (c : Context) : List Violation :=
  let o := c.options .quoteStyle
  if isDocstring c.scope || (swapped? o n).isNone then []
  else [c.violation n.span s!"String literal should use {o.preferred.name} quotes"]

/-- Puts the preferred quotes around a literal. -/
def fix (n : Node) (c : Context) : Option Edit :=
  if isDocstring c.scope then none
  else
    (swapped? (c.options .quoteStyle) n).map fun replacement =>
      { span := n.span, replacement, rule := c.info.id }

end Quotes

/-- Flags single-line strings delimited by the other quote. -/
def quoteStyle : Rule :=
  { info :=
      { id := RuleId.quoteStyle.name, name := "Quote Style", category := "formatting"
        languages := [.python], kinds := ["SimpleString"], severity := .warning, fixable := true
        description := "Single-line strings use the preferred quote character, unless\n" ++
          "the text contains that character. Triple-quoted strings and\n" ++
          "docstrings are left alone."
        badExample := "name = \"value\""
        goodExample := "name = 'value'"
        fixDescription := "Swaps the delimiters when no escaping is needed."
        configOptions := "[tool.styleguard.rules.\"python.quote-style\"]\n" ++
          "options = \x7b preferred = \"single\" \x7d" }
    applies := fun n => .ok (match n.label with
      | .python (.simpleString _ _ quote) => quote.length == 1
      | _ => false)
    check := Rule.simpleCheck Quotes.check
    fix := fun _ n c => .ok (Quotes.fix n c) }

end HouseStyle
