import HouseStyle.Data
import HouseStyle.Rule.Identity
import HouseStyle.Text.Quoted

/-!
# Options of the rules

Each rule has a type of options of its own. A schema says how the options of a
rule are written: the names of the fields, the kind of value each one takes, and
what a set of values must satisfy.

* `Options id` is the type of the options of a rule.
* `schema id` is how they are written and shown.
-/

namespace HouseStyle

/-- The quotes that string literals should have. -/
inductive QuoteStyle where
  | single
  | double
  deriving DecidableEq

/-- The name of a quote style. -/
def QuoteStyle.name : QuoteStyle → String
  | .single => "single"
  | .double => "double"

/-- The quote style of a name. -/
def QuoteStyle.ofName? : String → Option QuoteStyle
  | "single" => some .single
  | "double" => some .double
  | _ => none

/-- How deep selectors may be nested. -/
structure NestingDepthOptions where
  maxDepth : Int
  countConditionalWrappers : Bool
  deriving DecidableEq

/-- The properties that remove a border. -/
structure BorderNoneOptions where
  properties : List String
  deriving DecidableEq

/-- The units that a zero length needs not. -/
structure ZeroUnitOptions where
  units : List String
  deriving DecidableEq

/-- The packages of the framework and of the project itself. -/
structure ImportGroupingOptions where
  frameworkPackages : List String
  localPackages : List String
  deriving DecidableEq

/-- Which names are exempt from the case conventions. -/
structure NamingConventionOptions where
  allowUpperConstants : Bool
  ignoreNames : List String
  deriving DecidableEq

/-- The names of the inner options class. -/
structure ModelMetaOptions where
  metaClassNames : List String
  deriving DecidableEq

/-- The types of relation fields. -/
structure RelatedNameOptions where
  fieldTypes : List String
  deriving DecidableEq

/-- The preferred quotes. -/
structure QuoteStyleOptions where
  preferred : QuoteStyle
  deriving DecidableEq

/-- The options of a rule. -/
@[reducible] def Options : RuleId → Type
  | .nestingDepth => NestingDepthOptions
  | .borderNone => BorderNoneOptions
  | .zeroUnit => ZeroUnitOptions
  | .importGrouping => ImportGroupingOptions
  | .namingConvention => NamingConventionOptions
  | .modelMetaPosition => ModelMetaOptions
  | .relatedNameRequired => RelatedNameOptions
  | .quoteStyle => QuoteStyleOptions
  | .bemClassName | .noExtend | .noIdSelector | .propertyOrder | .selectorPerLine => Unit

/-- A field of options of type `α`: the kind of value it takes, how it is read and
how it is written. -/
inductive OptionField (α : Type) where
  | flag (get : α → Bool) (set : Bool → α → α)
  | number (get : α → Int) (set : Int → α → α)
  | texts (get : α → List String) (set : List String → α → α)
  | quotes (get : α → QuoteStyle) (set : QuoteStyle → α → α)

namespace OptionField

variable {α : Type}

/-- The value of a field. -/
def show? (f : OptionField α) (o : α) : Data :=
  match f with
  | .flag get _ => .bool (get o)
  | .number get _ => .int (get o)
  | .texts get _ => .ofTexts (get o)
  | .quotes get _ => .text (get o).name

/-- Writes a value into a field, or says what the field takes instead. -/
def write (f : OptionField α) (value : Data) (o : α) : Except String α :=
  match f with
  | .flag _ set =>
    match value with
    | .bool b => .ok (set b o)
    | _ => .error "must be a boolean"
  | .number _ set =>
    match value with
    | .int n => .ok (set n o)
    | _ => .error "must be an integer"
  | .texts _ set =>
    match value.texts? with
    | some items => .ok (set items o)
    | none => .error "must be a list of strings"
  | .quotes _ set =>
    match value.text?.bind QuoteStyle.ofName? with
    | some q => .ok (set q o)
    | none => .error s!"must be one of {Quoted.list [QuoteStyle.name .single, QuoteStyle.name .double]}"

end OptionField

/-- How options of type `α` are written: their defaults, their fields in order of
display, and what is wrong with a set of values. -/
structure OptionSchema (α : Type) where
  default : α
  fields : List (String × OptionField α)
  problems : α → List String

namespace OptionSchema

variable {α : Type}

/-- The field of a name. -/
def field? (s : OptionSchema α) (name : String) : Option (OptionField α) :=
  (s.fields.find? fun f => f.1 == name).map Prod.snd

/-- The options as a list of entries. -/
def entries (s : OptionSchema α) (o : α) : List (String × Data) :=
  s.fields.map fun (name, f) => (name, f.show? o)

end OptionSchema

/-- A problem that arises when a list is empty. -/
def requireSome (items : List String) (problem : String) : List String :=
  if items.isEmpty then [problem] else []

/-- The texts of a list in order, each once. -/
def sortedDistinct (items : List String) : List String :=
  (items.mergeSort fun a b => decide (a ≤ b)).eraseDups

/-- The options of a rule that takes none. -/
def noOptions : OptionSchema Unit :=
  { default := (), fields := [], problems := fun _ => [] }

/-- How the options of a rule are written. -/
def schema : (id : RuleId) → OptionSchema (Options id)
  | .nestingDepth =>
    { default := { maxDepth := 3, countConditionalWrappers := false }
      fields := [
        ("max_depth", .number (·.maxDepth) fun n o => { o with maxDepth := n }),
        ("count_conditional_wrappers", .flag (·.countConditionalWrappers)
          fun b o => { o with countConditionalWrappers := b })]
      problems := fun o => if o.maxDepth < 1 then ["max_depth must be at least 1"] else [] }
  | .borderNone =>
    { default := { properties := ["border"] }
      fields := [("properties", .texts (·.properties) fun xs o => { o with properties := xs })]
      problems := fun o => requireSome o.properties "properties must name at least one property" }
  | .zeroUnit =>
    { default := { units := ["px", "em", "rem", "ex", "ch", "vw", "vh", "vmin", "vmax", "cm", "mm",
        "in", "pt", "pc"] }
      fields := [("units", .texts (·.units) fun xs o => { o with units := xs })]
      problems := fun _ => [] }
  | .importGrouping =>
    { default := { frameworkPackages := ["django"], localPackages := [] }
      fields := [
        ("framework_packages", .texts (·.frameworkPackages)
          fun xs o => { o with frameworkPackages := xs }),
        ("local_packages", .texts (·.localPackages) fun xs o => { o with localPackages := xs })]
      problems := fun o =>
        let both := sortedDistinct (o.frameworkPackages.filter o.localPackages.contains)
        if both.isEmpty then []
        else [s!"framework_packages and local_packages both list {Quoted.list both}"] }
  | .namingConvention =>
    { default := { allowUpperConstants := true, ignoreNames := ["setUp", "tearDown", "setUpClass",
        "tearDownClass", "setUpTestData", "asyncSetUp", "asyncTearDown"] }
      fields := [
        ("allow_upper_constants", .flag (·.allowUpperConstants)
          fun b o => { o with allowUpperConstants := b }),
        ("ignore_names", .texts (·.ignoreNames) fun xs o => { o with ignoreNames := xs })]
      problems := fun _ => [] }
  | .modelMetaPosition =>
    { default := { metaClassNames := ["Meta"] }
      fields := [("meta_class_names", .texts (·.metaClassNames)
        fun xs o => { o with metaClassNames := xs })]
      problems := fun o =>
        requireSome o.metaClassNames "meta_class_names must name at least one class" }
  | .relatedNameRequired =>
    { default := { fieldTypes := ["ForeignKey", "ManyToManyField", "OneToOneField"] }
      fields := [("field_types", .texts (·.fieldTypes) fun xs o => { o with fieldTypes := xs })]
      problems := fun _ => [] }
  | .quoteStyle =>
    { default := { preferred := .single }
      fields := [("preferred", .quotes (·.preferred) fun q o => { o with preferred := q })]
      problems := fun _ => [] }
  | .bemClassName => noOptions
  | .noExtend => noOptions
  | .noIdSelector => noOptions
  | .propertyOrder => noOptions
  | .selectorPerLine => noOptions

end HouseStyle
