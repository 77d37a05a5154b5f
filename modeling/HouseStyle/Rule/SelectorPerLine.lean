import HouseStyle.Rule.Basic
import HouseStyle.Text.Blank

/-!
# One selector per line

The selectors of a list stand on lines of their own.

* `selectorPerLine`: the rule.
* `SelectorPerLine.fix` breaks the line after the comma before a selector.
-/

namespace HouseStyle

namespace SelectorPerLine

/-- Each selector of a list with the one before it. -/
def neighbours (n : Node) : List (Node × Node) :=
  n.children.zip n.children.tail

/-- The text between two selectors. -/
def gap (t : Source) (a b : Node) : List Char :=
  t.sliceChars a.span.stop b.span.start

/-- The text of a selector. -/
def textOf (n : Node) : String :=
  match n.label with
  | .style (.selector text) => text
  | _ => ""

/-- The selectors that share a line with the one before. -/
def check (n : Node) (c : Context) : List Violation :=
  (neighbours n).filterMap fun (a, b) =>
    if (gap c.text a b).contains '\n' then none
    else some (c.violation b.span s!"Selector '{textOf b}' should start on its own line")

/-- Breaks the line after the comma before a selector, unless something stands
between them. -/
def fix (v : Violation) (n : Node) (c : Context) : Option Edit :=
  match (neighbours n).find? fun (_, b) => b.span == v.span with
  | none => none
  | some (a, b) =>
    let between := gap c.text a b
    let beforeComma := between.takeWhile (· != ',')
    let afterComma := between.drop (beforeComma.length + 1)
    if beforeComma.length = between.length || !afterComma.all isBlank then none
    else
      some { span := .between (a.span.stop + beforeComma.length + 1) b.span.start
             replacement := c.text.newline ++ c.text.indentation n.span.start
             rule := c.info.id }

end SelectorPerLine

/-- Flags selectors in a list that share a line with the previous one. -/
def selectorPerLine : Rule :=
  { info :=
      { id := RuleId.selectorPerLine.name, name := "One Selector Per Line"
        category := "formatting", languages := styleLanguages, kinds := ["selector-list"]
        severity := .warning, fixable := true
        description := "When a rule declaration has several selectors, each selector\n" ++
          "goes on its own line."
        badExample := ".one, .two \x7b color: red; \x7d"
        goodExample := ".one,\n.two \x7b color: red; \x7d"
        fixDescription := "Breaks the line after each comma, keeping the rule's indentation."
        configOptions := "" }
    applies := fun n => .ok (match n.label with
      | .style .selectorList => decide (1 < n.children.length)
      | _ => false)
    check := Rule.simpleCheck SelectorPerLine.check
    fix := fun v n c => .ok (SelectorPerLine.fix v n c) }

end HouseStyle
