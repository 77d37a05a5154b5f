import HouseStyle.Rule.Basic

/-!
# Reverse accessors of relations

A relation field spells out the name of its reverse accessor.

* `relatedNameRequired`: the rule.
* `RelatedName.lastName` is the last component of a dotted name.
-/

namespace HouseStyle

namespace RelatedName

/-- The last component of a dotted name. -/
def lastName (dotted : String) : String :=
  String.ofList (dotted.toList.reverse.takeWhile (· != '.')).reverse

/-- The keyword that names the reverse accessor. -/
def keyword : String := "related_name"

/-- Reports a relation field that does not name its reverse accessor. -/
def check (n : Node) (c : Context) : List Violation :=
  match n.label with
  | .python (.call (some func) keywords) =>
    let fieldType := lastName func
    if (c.options .relatedNameRequired).fieldTypes.contains fieldType &&
        !keywords.contains keyword then
      [c.violation n.span s!"{fieldType} must declare related_name"]
    else []
  | _ => []

end RelatedName

/-- Flags relation fields declared without a reverse accessor. -/
def relatedNameRequired : Rule :=
  { info :=
      { id := RuleId.relatedNameRequired.name, name := "Related Name Required"
        category := "django", languages := [.python], kinds := ["Call"], severity := .error
        fixable := false
        description := "Relation fields always spell out the reverse accessor with\n" ++
          "related_name instead of relying on the generated <model>_set."
        badExample := "author = models.ForeignKey(User, on_delete=models.CASCADE)"
        goodExample := "author = models.ForeignKey(User, on_delete=models.CASCADE, " ++
          "related_name='books')"
        fixDescription := ""
        configOptions := "[tool.styleguard.rules.\"python.related-name-required\"]\n" ++
          "options = \x7b field_types = [\"ForeignKey\", \"ManyToManyField\", \"OneToOneField\"] \x7d" }
    applies := fun n => .ok (match n.label with
      | .python (.call (some func) _) => func != ""
      | _ => false)
    check := Rule.simpleCheck RelatedName.check
    fix := Rule.noFix }

end HouseStyle
