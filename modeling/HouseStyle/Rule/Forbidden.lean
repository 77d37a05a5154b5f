import HouseStyle.Rule.Basic

/-!
# Constructs that are not allowed

Two constructs of stylesheets have no place in the style guide at all: id selectors
and `@extend`. Each of their occurrences is reported and none is mended.

* `noIdSelector`, `noExtend`: the rules.
-/

namespace HouseStyle

/-- Flags every id selector. -/
def noIdSelector : Rule :=
  { info :=
      { id := RuleId.noIdSelector.name, name := "No ID Selectors", category := "selectors"
        languages := styleLanguages, kinds := ["id-selector"], severity := .error, fixable := false
        description := "Style with classes, never with ids. Id selectors cannot be\n" ++
          "reused and their specificity overrides every class rule."
        badExample := "#lol-no \x7b color: red; \x7d"
        goodExample := ".lol-yes \x7b color: red; \x7d"
        fixDescription := "", configOptions := "" }
    applies := fun n => .ok (match n.label with
      | .style (.idSelector _ _) => true
      | _ => false)
    check := Rule.simpleCheck fun n c =>
      match n.label with
      | .style (.idSelector name _) =>
        [c.violation n.span s!"ID selector '#{name}' is not allowed; use a class"]
      | _ => []
    fix := Rule.noFix }

/-- Flags every `@extend`. -/
def noExtend : Rule :=
  { info :=
      { id := RuleId.noExtend.name, name := "No @extend", category := "structure"
        languages := styleLanguages, kinds := ["at-rule"], severity := .error, fixable := false
        description := "@extend rewrites selectors far from where it is written and\n" ++
          "bloats output. Use a mixin or a shared class instead."
        badExample := ".b \x7b @extend .a; \x7d"
        goodExample := ".b \x7b @include a; \x7d"
        fixDescription := "", configOptions := "" }
    applies := fun n => .ok (match n.label with
      | .style (.atRule name _ _ _) => name == "extend"
      | _ => false)
    check := Rule.simpleCheck fun n c =>
      match n.label with
      | .style (.atRule _ prelude _ _) =>
        [c.violation n.span s!"@extend {prelude} is not allowed; use a mixin"]
      | _ => []
    fix := Rule.noFix }

end HouseStyle
