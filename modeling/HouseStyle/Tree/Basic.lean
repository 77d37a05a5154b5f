import HouseStyle.Data
import HouseStyle.Python.Form
import HouseStyle.Stylesheet.Form
import HouseStyle.Text.Span

/-!
# Syntax trees

One kind of tree serves all languages. A node has a label (what it is), the span
of text it covers and its children in order of appearance.

* `Node.walk` lists a tree in document order.
* `Label.attributes` shows the facts of a label under their names.
-/

namespace HouseStyle

/-- What a node is. -/
inductive Label where
  /-- The synthetic parent of a whole tree. -/
  | document
  | style (form : Stylesheet.Form)
  | python (form : Python.Form)

/-- A node of a syntax tree. -/
structure Node where
  label : Label
  span : Span
  children : List Node

namespace Label

/-- The name of a node's kind. -/
def kind : Label → String
  | .document => "document"
  | .style form => form.kind
  | .python form => form.kind

/-- The facts of a stylesheet form. -/
def styleAttributes : Stylesheet.Form → List (String × Data)
  | .stylesheet | .selectorList | .block => []
  | .rule selector => [("selector", .text selector)]
  | .selector text => [("text", .text text)]
  | .idSelector name interpolated | .classSelector name interpolated =>
    [("name", .text name), ("interpolated", .bool interpolated)]
  | .declaration property value important =>
    [("property", .text property), ("value", .text value), ("important", .bool important)]
  | .property name => [("name", .text name)]
  | .value text => [("text", .text text)]
  | .atRule name prelude mixin hasBlock =>
    [("name", .text name), ("prelude", .text prelude), ("mixin", .ofOption mixin),
      ("has_block", .bool hasBlock)]

/-- The facts of a Python form. -/
def pythonAttributes : Python.Form → List (String × Data)
  | .name value => [("value", .text value)]
  | .attribute dotted => [("dotted", .ofOption dotted)]
  | .importNames names => [("names", .ofTexts names)]
  | .importFrom moduleName level names =>
    [("module", .text moduleName), ("level", .int level), ("names", .ofTexts names)]
  | .importAlias name asName => [("name", .ofOption name), ("asname", .ofOption asName)]
  | .classDef name bases => [("name", .text name), ("bases", .ofTexts bases)]
  | .functionDef name isAsync => [("name", .text name), ("is_async", .bool isAsync)]
  | .param name => [("name", .text name)]
  | .call func keywords => [("func", .ofOption func), ("keywords", .ofTexts keywords)]
  | .arg keyword => [("keyword", .ofOption keyword)]
  | .simpleString value marker quote =>
    [("value", .text value), ("prefix", .text marker), ("quote", .text quote)]
  | .plain _ => []

/-- The facts of a label under their names. -/
def attributes : Label → List (String × Data)
  | .document => []
  | .style form => styleAttributes form
  | .python form => pythonAttributes form

end Label

namespace Node

/-- The name of the node's kind. -/
def kind (n : Node) : String :=
  n.label.kind

/-- Whether the node is a form of Python syntax without facts of its own. -/
def hasShape (n : Node) (shape : Python.Shape) : Bool :=
  match n.label with
  | .python (.plain s) => s == shape
  | _ => false

/-- The first direct child of a kind. -/
def child? (n : Node) (kind : String) : Option Node :=
  n.children.find? fun c => c.kind == kind

/-- The direct children of a kind. -/
def childrenOf (n : Node) (kind : String) : List Node :=
  n.children.filter fun c => c.kind == kind

mutual

/-- The number of nodes of a tree. -/
def count : Node → Nat
  | ⟨_, _, children⟩ => countList children + 1

/-- The number of nodes of a list of trees. -/
def countList : List Node → Nat
  | [] => 0
  | n :: rest => count n + countList rest

end

mutual

/-- A node and its descendants in document order. -/
def walk : Node → List Node
  | ⟨label, span, children⟩ => ⟨label, span, children⟩ :: walkList children

/-- The nodes of a list of trees in document order. -/
def walkList : List Node → List Node
  | [] => []
  | n :: rest => walk n ++ walkList rest

end

mutual

/-- The nodes of a tree in document order, each with its depth, when the root has
the given depth. -/
def outline (depth : Nat) : Node → List (Nat × Node)
  | ⟨label, span, children⟩ => (depth, ⟨label, span, children⟩) :: outlineList (depth + 1) children

/-- The nodes of a list of trees with their depths. -/
def outlineList (depth : Nat) : List Node → List (Nat × Node)
  | [] => []
  | n :: rest => outline depth n ++ outlineList depth rest

end

mutual

/-- The number of nodes on the longest path from the root. -/
def height : Node → Nat
  | ⟨_, _, children⟩ => heightList children + 1

/-- The greatest height in a list of trees. -/
def heightList : List Node → Nat
  | [] => 0
  | n :: rest => max (height n) (heightList rest)

end

end Node

end HouseStyle
