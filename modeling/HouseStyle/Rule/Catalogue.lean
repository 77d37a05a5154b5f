import HouseStyle.Rule.BorderNone
import HouseStyle.Rule.ClassName
import HouseStyle.Rule.Forbidden
import HouseStyle.Rule.ImportGrouping
import HouseStyle.Rule.MetaPosition
import HouseStyle.Rule.NamingConvention
import HouseStyle.Rule.NestingDepth
import HouseStyle.Rule.PropertyOrder
import HouseStyle.Rule.QuoteStyle
import HouseStyle.Rule.RelatedName
import HouseStyle.Rule.SelectorPerLine
import HouseStyle.Rule.ZeroUnit

/-!
# The catalogue of rules

Every rule by its identifier.

* `RuleId.rule` is the rule of an identifier.
* `enabledRules` are the rules that take part in a run.
-/

namespace HouseStyle

/-- The rule of an identifier. -/
def RuleId.rule : RuleId → Rule
  | .bemClassName => HouseStyle.bemClassName
  | .borderNone => HouseStyle.borderNone
  | .nestingDepth => HouseStyle.nestingDepth
  | .noExtend => HouseStyle.noExtend
  | .noIdSelector => HouseStyle.noIdSelector
  | .propertyOrder => HouseStyle.propertyOrder
  | .selectorPerLine => HouseStyle.selectorPerLine
  | .zeroUnit => HouseStyle.zeroUnit
  | .importGrouping => HouseStyle.importGrouping
  | .modelMetaPosition => HouseStyle.modelMetaPosition
  | .namingConvention => HouseStyle.namingConvention
  | .quoteStyle => HouseStyle.quoteStyle
  | .relatedNameRequired => HouseStyle.relatedNameRequired

theorem RuleId.rule_id (id : RuleId) : id.rule.id = id.name := by
  cases id <;> rfl

/-- All rules in the order of their names. -/
def allRules : List Rule :=
  RuleId.all.map RuleId.rule

/-- The rule of a name. -/
def ruleNamed (name : String) : Except Failure Rule :=
  match RuleId.ofName? name with
  | some id => .ok id.rule
  | none => .error (.unknownRule name)

/-- The rules that take part in a run. -/
def enabledRules (s : Settings) : List Rule :=
  (RuleId.all.filter s.runs).map RuleId.rule

/-- The rules for a language that take part in a run. -/
def enabledRulesFor (s : Settings) (language : Language) : List Rule :=
  (enabledRules s).filter fun r => r.info.languages.contains language

end HouseStyle
