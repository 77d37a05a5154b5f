import HouseStyle.Rule.DeclarationValue
import HouseStyle.Text.Blank
import HouseStyle.Text.Letter

/-!
# Removed borders

A border is removed with zero.

* `borderNone`: the rule.
* `BorderNone.isNone`: a value says `none` and nothing else, importance apart.
-/

namespace HouseStyle

namespace BorderNone

/-- The text of a value without the mark of importance at its end and the blanks
around both. -/
def bare (value : List Char) : List Char :=
  let back := value.reverse.dropWhile isBlank
  let mark := "!important".toList
  let start := back.length - mark.length
  let text := back.reverse
  if mark.length ≤ back.length && (afterWord? mark (text.drop start)).isSome then
    trimChars (text.take start)
  else trimChars value

/-- Whether a value begins with the word `none` and says nothing else, importance
apart. -/
def isNone (value : List Char) : Bool :=
  lowerChars (bare value) == "none".toList &&
    match afterWord? "none".toList value with
    | none => false
    | some [] => true
    | some (c :: _) => !isWordChar c

/-- Reports a border that is removed with `none`. -/
def check (n : Node) (c : Context) : List Violation :=
  match n.label, valueOf? n with
  | .style (.declaration property _ _), some (v, text) =>
    if (c.options .borderNone).properties.contains property && isNone text then
      [c.violation v.span s!"Use '{property}: 0' instead of 'none'"]
    else []
  | _, _ => []

/-- Puts zero in the place of `none`. -/
def fix (n : Node) (c : Context) : Option Edit :=
  match valueOf? n with
  | some (v, text) =>
    if isNone text then
      some { span := .between v.span.start (v.span.start + 4), replacement := "0"
             rule := c.info.id }
    else none
  | none => none

end BorderNone

/-- Flags `border: none`. -/
def borderNone : Rule :=
  { info :=
      { id := RuleId.borderNone.name, name := "Border Zero", category := "values"
        languages := styleLanguages, kinds := ["declaration"], severity := .error, fixable := true
        description := "Remove borders with 'border: 0', not 'border: none'."
        badExample := ".a \x7b border: none; \x7d"
        goodExample := ".a \x7b border: 0; \x7d"
        fixDescription := "Replaces 'none' with '0'."
        configOptions := "[tool.styleguard.rules.\"css.border-none\"]\n" ++
          "options = \x7b properties = [\"border\"] \x7d" }
    applies := fun n => .ok (isDeclaration n)
    check := Rule.simpleCheck BorderNone.check
    fix := fun _ n c => .ok (BorderNone.fix n c) }

end HouseStyle
