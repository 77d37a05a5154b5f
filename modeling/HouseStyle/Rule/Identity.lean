/-!
# Rules by name

The rules of the style guide, how grave their violations are by default, and the
two identifiers under which the checker itself reports.
-/

namespace HouseStyle

/-- How grave a violation is. -/
inductive Severity where
  | error
  | warning
  deriving DecidableEq

/-- The name of a severity. -/
def Severity.name : Severity → String
  | .error => "error"
  | .warning => "warning"

/-- The severity of a name. -/
def Severity.ofName? : String → Option Severity
  | "error" => some .error
  | "warning" => some .warning
  | _ => none

/-- The names of all severities. -/
def Severity.names : List String :=
  ["error", "warning"]

/-- The rules. -/
inductive RuleId where
  /-- Class names follow block, element and modifier. -/
  | bemClassName
  /-- A border is removed with zero. -/
  | borderNone
  /-- Selectors are not nested too deeply. -/
  | nestingDepth
  /-- No `@extend`. -/
  | noExtend
  /-- No id selectors. -/
  | noIdSelector
  /-- Declarations, then includes, then nested blocks. -/
  | propertyOrder
  /-- Each selector of a list has its own line. -/
  | selectorPerLine
  /-- Zero lengths have no unit. -/
  | zeroUnit
  /-- Imports come in ordered groups. -/
  | importGrouping
  /-- The inner options class follows the last field. -/
  | modelMetaPosition
  /-- Names have the case of their kind. -/
  | namingConvention
  /-- Strings have the preferred quotes. -/
  | quoteStyle
  /-- Relations name their reverse accessor. -/
  | relatedNameRequired
  deriving DecidableEq

namespace RuleId

/-- All rules in the order of their names. -/
def all : List RuleId :=
  [.bemClassName, .borderNone, .nestingDepth, .noExtend, .noIdSelector, .propertyOrder,
    .selectorPerLine, .zeroUnit, .importGrouping, .modelMetaPosition, .namingConvention,
    .quoteStyle, .relatedNameRequired]

/-- The name of a rule. -/
def name : RuleId → String
  | .bemClassName => "css.bem-class-name"
  | .borderNone => "css.border-none"
  | .nestingDepth => "css.nesting-depth"
  | .noExtend => "css.no-extend"
  | .noIdSelector => "css.no-id-selector"
  | .propertyOrder => "css.property-order"
  | .selectorPerLine => "css.selector-per-line"
  | .zeroUnit => "css.zero-unit"
  | .importGrouping => "python.import-grouping"
  | .modelMetaPosition => "python.model-meta-position"
  | .namingConvention => "python.naming-convention"
  | .quoteStyle => "python.quote-style"
  | .relatedNameRequired => "python.related-name-required"

/-- The rule of a name. -/
def ofName? (s : String) : Option RuleId :=
  all.find? fun id => id.name == s

theorem mem_all (id : RuleId) : id ∈ all := by
  cases id <;> decide

theorem ofName?_eq_some_iff {name : String} {id : RuleId} : ofName? name = some id ↔ id.name = name := by
  constructor
  · intro h
    simpa using List.find?_some h
  · rintro rfl
    cases id <;> rfl

/-- How grave the violations of a rule are unless the settings say otherwise. -/
def defaultSeverity : RuleId → Severity
  | .bemClassName | .selectorPerLine | .zeroUnit | .modelMetaPosition | .quoteStyle => .warning
  | .borderNone | .nestingDepth | .noExtend | .noIdSelector | .propertyOrder
  | .importGrouping | .namingConvention | .relatedNameRequired => .error

end RuleId

/-- The identifier under which a text that cannot be parsed is reported. -/
def parseErrorId : String := "internal.parse-error"

/-- The identifier under which a rule that crashes is reported. -/
def ruleCrashId : String := "internal.rule-crash"

/-- Whether the checker itself reports under an identifier. -/
def isInternalId (id : String) : Bool :=
  id == parseErrorId || id == ruleCrashId

end HouseStyle
