import HouseStyle.Parse.Language
import HouseStyle.Rule.Violation
import HouseStyle.Settings.Basic
import HouseStyle.Text.Edit
import HouseStyle.Tree.Basic

/-!
# Rules

A rule looks at the nodes of some kinds. It decides whether a node concerns it,
reports the violations it finds there, and may offer an edit that mends one. Each
of the three may crash, which is a finding about the rule.

What a rule may look at besides the node is its `Context`. What it remembers from
one child of a node to the next is its `Memory`, which it is handed and hands
back, also when it crashes.

* `Context.violation` is the violation of the context's rule at a span.
* `Scope.enter` is the scope of a node's children.
-/

namespace HouseStyle

/-- The description of a rule, which is also its documentation. -/
structure RuleInfo where
  id : String
  name : String
  category : String
  languages : List Language
  kinds : List String
  severity : Severity
  fixable : Bool
  description : String
  badExample : String
  goodExample : String
  fixDescription : String
  configOptions : String

/-- The languages of stylesheets. -/
def styleLanguages : List Language :=
  [.css, .scss]

/-! ### Scopes -/

/-- Where a node stands: its parent, the nodes around that, innermost first, and
the number of selector blocks and of conditional at-rules among them. -/
structure Scope where
  parent : Node
  outer : List Node
  selectorDepth : Nat
  wrapperDepth : Nat

/-- The at-rules that wrap blocks under a condition. -/
def conditionalAtRules : List String :=
  ["media", "supports", "container", "layer", "document", "at-root"]

namespace Scope

/-- The scope of the root of a tree over a text of `size` characters. -/
def document (size : Nat) : Scope :=
  { parent := { label := .document, span := { start := 0, stop := size }, children := [] }
    outer := [], selectorDepth := 0, wrapperDepth := 0 }

/-- One more selector block for a rule. -/
def selectorStep (n : Node) : Nat :=
  match n.label with
  | .style (.rule _) => 1
  | _ => 0

/-- One more conditional for an at-rule of that sort. -/
def wrapperStep (n : Node) : Nat :=
  match n.label with
  | .style (.atRule name _ _ _) => if conditionalAtRules.contains name then 1 else 0
  | _ => 0

/-- The scope of the children of a node. -/
def enter (s : Scope) (n : Node) : Scope :=
  { parent := n, outer := s.parent :: s.outer
    selectorDepth := s.selectorDepth + selectorStep n
    wrapperDepth := s.wrapperDepth + wrapperStep n }

/-- The nodes around a node, outermost first. -/
def ancestors (s : Scope) : List Node :=
  (s.parent :: s.outer).reverse

end Scope

/-! ### What a rule sees -/

/-- What a rule may look at besides a node. -/
structure Context where
  text : Source
  scope : Scope
  info : RuleInfo
  /-- The options of all rules, of which a rule reads its own. -/
  options : (id : RuleId) → Options id

/-- The violation of the context's rule at a span. -/
def Context.violation (c : Context) (span : Span) (message : String) : Violation :=
  let location := c.text.location span
  { rule := c.info.id, span, location, message, severity := c.info.severity,
    fixable := c.info.fixable, line := some (c.text.lineText location.start.line) }

/-- What a rule remembers between the children of one node: numbers under names. -/
abbrev Memory := List (String × Int)

namespace Memory

/-- The number under a name. -/
def get? (m : Memory) (name : String) : Option Int :=
  (m.find? fun e => e.1 == name).map Prod.snd

/-- Remembers a number under a name. -/
def set (m : Memory) (name : String) (value : Int) : Memory :=
  (name, value) :: m.filter fun e => e.1 != name

end Memory

/-- Why a rule crashed: the class and the text of what it raised. -/
structure Crash where
  kind : String
  message : String
  deriving DecidableEq

/-- What a check answers: violations or a crash, and the memory it leaves. -/
abbrev CheckResult := Except Crash (List Violation) × Memory

/-- A rule. -/
structure Rule where
  info : RuleInfo
  applies : Node → Except Crash Bool
  check : Node → Context → Memory → CheckResult
  fix : Violation → Node → Context → Except Crash (Option Edit)

namespace Rule

/-- The name of a rule. -/
def id (r : Rule) : String :=
  r.info.id

/-- A check that neither crashes nor remembers anything. -/
def simpleCheck (check : Node → Context → List Violation) : Node → Context → Memory → CheckResult :=
  fun n c m => (.ok (check n c), m)

/-- The fix of a rule that mends nothing. -/
def noFix : Violation → Node → Context → Except Crash (Option Edit) :=
  fun _ _ _ => .ok none

end Rule

end HouseStyle
