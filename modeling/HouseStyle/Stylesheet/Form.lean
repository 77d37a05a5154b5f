/-!
# Forms of stylesheet syntax

The grammatical form of a node of a stylesheet: its kind, together with the facts
that rules match on.

* `Form.kind` names the form.
-/

namespace HouseStyle.Stylesheet

/-- The grammatical form of a node, with the facts that rules match on. -/
inductive Form where
  /-- A whole text. -/
  | stylesheet
  /-- A selector list and its block. -/
  | rule (selector : String)
  | selectorList
  | selector (text : String)
  /-- `#name`; the name goes on with an interpolation when `interpolated`. -/
  | idSelector (name : String) (interpolated : Bool)
  /-- `.name`; the name goes on with an interpolation when `interpolated`. -/
  | classSelector (name : String) (interpolated : Bool)
  /-- Statements between braces. -/
  | block
  /-- A property, in lower case, and its value. -/
  | declaration (property value : String) (important : Bool)
  | property (name : String)
  | value (text : String)
  /-- An at-rule, its name in lower case, what stands between name and block, and
  the mixin that an `@include` names. -/
  | atRule (name prelude : String) (mixin : Option String) (hasBlock : Bool)
  deriving DecidableEq

/-- The name of a node's form. -/
def Form.kind : Form → String
  | .stylesheet => "stylesheet"
  | .rule _ => "rule"
  | .selectorList => "selector-list"
  | .selector _ => "selector"
  | .idSelector _ _ => "id-selector"
  | .classSelector _ _ => "class-selector"
  | .block => "block"
  | .declaration _ _ _ => "declaration"
  | .property _ => "property"
  | .value _ => "value"
  | .atRule _ _ _ _ => "at-rule"

end HouseStyle.Stylesheet
