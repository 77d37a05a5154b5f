import HouseStyle.Rule.Basic

/-!
# Class names

A class is named after its block, its element and its modifier.

* `bemClassName`: the rule.
* `Bem.isName` is the shape of a class name.
-/

namespace HouseStyle

namespace Bem

/-- Whether a character can stand in a word of a class name. -/
def isWordChar (c : Char) : Bool :=
  (decide ('a' ≤ c) && decide (c ≤ 'z')) || c.isDigit

/-- What is left after further words, each behind a hyphen; `inWord` tells that the
text stands inside a word. -/
def afterHyphens : Bool → List Char → List Char
  | _, [] => []
  | true, c :: rest => if isWordChar c then afterHyphens true rest else afterHyphens false (c :: rest)
  | false, '-' :: c :: rest => if isWordChar c then afterHyphens true rest else '-' :: c :: rest
  | false, cs => cs
termination_by inWord cs => 2 * cs.length + inWord.toNat

/-- What is left after at least one word and further ones behind hyphens. -/
def afterWords? (cs : List Char) : Option (List Char) :=
  match cs with
  | [] => none
  | c :: rest => if isWordChar c then some (afterHyphens true rest) else none

/-- What is left after an optional part that begins with a doubled mark. -/
def afterPart? (mark : Char) (cs : List Char) : Option (List Char) :=
  match cs with
  | a :: b :: rest => if a = mark ∧ b = mark then afterWords? rest else some cs
  | _ => some cs

/-- Whether a name is hyphenated words in lower case, the first of which begins
with a letter, then an element behind two underscores and a modifier behind two
hyphens, both of which may be left out. -/
def isName (name : String) : Bool :=
  match name.toList with
  | [] => false
  | c :: rest =>
    decide ('a' ≤ c) && decide (c ≤ 'z') &&
      (match afterPart? '_' (afterHyphens true rest) with
        | none => false
        | some cs => afterPart? '-' cs == some [])

end Bem

/-- Flags class selectors that are not BEM-shaped. -/
def bemClassName : Rule :=
  { info :=
      { id := RuleId.bemClassName.name, name := "BEM Class Names", category := "naming"
        languages := styleLanguages, kinds := ["class-selector"], severity := .warning
        fixable := false
        description := "Class names follow BEM: lowercase hyphenated words for the block,\n" ++
          "__element and --modifier suffixes."
        badExample := ".navBar_Item \x7b \x7d"
        goodExample := ".nav-bar__item--active \x7b \x7d"
        fixDescription := "", configOptions := "" }
    applies := fun n => .ok (match n.label with
      | .style (.classSelector _ interpolated) => !interpolated
      | _ => false)
    check := Rule.simpleCheck fun n c =>
      match n.label with
      | .style (.classSelector name _) =>
        if Bem.isName name then []
        else [c.violation n.span
          s!"Class '.{name}' does not follow block__element--modifier naming"]
      | _ => []
    fix := Rule.noFix }

end HouseStyle
