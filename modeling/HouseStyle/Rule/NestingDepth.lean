import HouseStyle.Rule.Basic

/-!
# The depth of nesting

Selectors are not nested too deeply.

* `nestingDepth`: the rule.
* `NestingDepth.level` is the level of a rule in the scope it stands in.
-/

namespace HouseStyle

namespace NestingDepth

/-- The level of a rule: the selector blocks around it and itself, and the
conditional at-rules around it where the options count them. -/
def level (o : NestingDepthOptions) (s : Scope) : Nat :=
  s.selectorDepth + 1 + (if o.countConditionalWrappers then s.wrapperDepth else 0)

/-- Reports a rule that is nested too deeply, at its selectors. -/
def check (n : Node) (c : Context) : List Violation :=
  match n.label with
  | .style (.rule selector) =>
    let o := c.options .nestingDepth
    let depth := level o c.scope
    if (depth : Int) ≤ o.maxDepth then []
    else
      let span := ((n.child? "selector-list").map Node.span).getD n.span
      [c.violation span
        s!"Selector '{selector}' is nested {depth} levels deep (maximum {o.maxDepth})"]
  | _ => []

end NestingDepth

/-- Flags selector blocks nested deeper than the configured limit. -/
def nestingDepth : Rule :=
  { info :=
      { id := RuleId.nestingDepth.name, name := "Nesting Depth", category := "structure"
        languages := styleLanguages, kinds := ["rule"], severity := .error, fixable := false
        description := "Do not nest selectors more than three levels deep. @media and\n" ++
          "other conditional wrappers do not count as a level."
        badExample := ".a \x7b .b \x7b .c \x7b .d \x7b \x7d \x7d \x7d \x7d"
        goodExample := ".a \x7b .b \x7b .c \x7b \x7d \x7d \x7d\n.c__d \x7b \x7d"
        fixDescription := ""
        configOptions := "[tool.styleguard.rules.\"css.nesting-depth\"]\n" ++
          "options = \x7b max_depth = 3, count_conditional_wrappers = false \x7d" }
    applies := fun n => .ok (match n.label with
      | .style (.rule _) => true
      | _ => false)
    check := Rule.simpleCheck NestingDepth.check
    fix := Rule.noFix }

end HouseStyle
