import HouseStyle.Proofs.Tree.Relocation
import HouseStyle.Tree.Basic
import Mathlib.Logic.Basic

/-!
# What is left of a tree

Trees without their facts, and trees without what they tell of the values of declarations.

* `Node.bare`: a tree without its facts, that is the kinds and the spans of its nodes.
* `Form.bare_eq_iff`: of a form its kind is left.
* `Node.kinds`, `Node.spans`: the kinds and the spans of the nodes in document order.
* `Label.sketch`: what a node is, apart from what it tells of the value of a declaration.
* `Node.sketch`: a tree of such labels, whose places are told by another text.
* `Node.values`: the places of the values of a tree.
-/

namespace HouseStyle

deriving instance DecidableEq for Python.Form

deriving instance DecidableEq for Label

/-- A form without its facts. -/
def Stylesheet.Form.bare : Stylesheet.Form → Stylesheet.Form
  | .stylesheet => .stylesheet
  | .rule _ => .rule ""
  | .selectorList => .selectorList
  | .selector _ => .selector ""
  | .idSelector _ _ => .idSelector "" false
  | .classSelector _ _ => .classSelector "" false
  | .block => .block
  | .declaration _ _ _ => .declaration "" "" false
  | .property _ => .property ""
  | .value _ => .value ""
  | .atRule _ _ _ _ => .atRule "" "" none false

theorem Stylesheet.Form.bare_eq_iff {f g : Stylesheet.Form} : f.bare = g.bare ↔ f.kind = g.kind := by
  cases f <;> cases g <;> simp [bare, kind]

/-- A label of a stylesheet without its facts. -/
def Label.bare : Label → Label
  | .style form => .style form.bare
  | label => label

namespace Node

mutual

/-- A tree without its facts. -/
def bare : Node → Node
  | ⟨label, span, children⟩ => ⟨label.bare, span, bareList children⟩

/-- Trees without their facts. -/
def bareList : List Node → List Node
  | [] => []
  | n :: rest => bare n :: bareList rest

end

theorem bareList_eq_map (ns : List Node) : bareList ns = ns.map bare := by
  induction ns with
  | nil => rfl
  | cons n rest ih => rw [bareList, ih, List.map_cons]

@[simp] theorem bare_label (n : Node) : n.bare.label = n.label.bare := by
  cases n; rfl

@[simp] theorem bare_span (n : Node) : n.bare.span = n.span := by
  cases n; rfl

@[simp] theorem bare_children (n : Node) : n.bare.children = bareList n.children := by
  cases n; rfl

@[simp] theorem bareList_append (ns ms : List Node) : bareList (ns ++ ms) = bareList ns ++ bareList ms := by
  rw [bareList_eq_map, bareList_eq_map, bareList_eq_map, List.map_append]

mutual

/-- The nodes of a tree without facts are those of the tree without theirs. -/
theorem walk_bare (n : Node) : walk n.bare = (walk n).map bare := by
  cases n with
  | mk label span children =>
    rw [bare, walk, walk, List.map_cons, walkList_bare children]
    rfl

theorem walkList_bare (ns : List Node) : walkList (bareList ns) = (walkList ns).map bare := by
  cases ns with
  | nil => rfl
  | cons n rest => rw [bareList, walkList, walkList, List.map_append, walk_bare n, walkList_bare rest]

end

mutual

/-- The nodes of a tree without facts stand where those of the tree do. -/
theorem outline_bare (depth : Nat) (n : Node) :
    outline depth n.bare = (outline depth n).map fun (k, m) => (k, m.bare) := by
  cases n with
  | mk label span children =>
    rw [bare, outline, outline, List.map_cons, outlineList_bare (depth + 1) children]
    rfl

theorem outlineList_bare (depth : Nat) (ns : List Node) :
    outlineList depth (bareList ns) = (outlineList depth ns).map fun (k, m) => (k, m.bare) := by
  cases ns with
  | nil => rfl
  | cons n rest =>
    rw [bareList, outlineList, outlineList, List.map_append, outline_bare depth n, outlineList_bare depth rest]

end

/-- The kinds of the nodes of a tree in document order, each with its depth. -/
def kinds (tree : Node) : List (Nat × String) :=
  (outline 0 tree).map fun (depth, n) => (depth, n.kind)

/-- The spans of the nodes of a tree in document order. -/
def spans (tree : Node) : List Span :=
  (walk tree).map span

theorem kind_bare (n : Node) : n.bare.kind = n.kind := by
  rw [kind, bare_label, kind]
  cases n.label with
  | style form => exact Stylesheet.Form.bare_eq_iff.1 (by cases form <;> rfl)
  | document => rfl
  | python form => rfl

theorem kinds_bare (n : Node) : n.bare.kinds = n.kinds := by
  simp only [kinds, outline_bare, List.map_map, Function.comp_def, kind_bare]

theorem spans_bare (n : Node) : n.bare.spans = n.spans := by
  simp only [spans, walk_bare, List.map_map, Function.comp_def, bare_span]

mutual

/-- Whether two trees are equal. -/
def decEq : (m n : Node) → Decidable (m = n)
  | ⟨label, span, children⟩, ⟨label', span', children'⟩ =>
    match decEqList children children' with
    | isTrue h => decidable_of_iff (label = label' ∧ span = span') (by rw [mk.injEq, and_iff_left h])
    | isFalse h => isFalse fun heq => h (congrArg Node.children heq)

/-- Whether two lists of trees are equal. -/
def decEqList : (ms ns : List Node) → Decidable (ms = ns)
  | [], [] => isTrue rfl
  | [], _ :: _ => isFalse (nomatch ·)
  | _ :: _, [] => isFalse (nomatch ·)
  | m :: ms, n :: ns =>
    match decEq m n, decEqList ms ns with
    | isTrue h, isTrue h' => isTrue (by rw [h, h'])
    | isFalse h, _ => isFalse fun heq => h (List.cons.inj heq).1
    | _, isFalse h => isFalse fun heq => h (List.cons.inj heq).2

end

instance : DecidableEq Node :=
  decEq

end Node

/-- A form without what it tells of the value of a declaration. -/
def Stylesheet.Form.sketch : Stylesheet.Form → Stylesheet.Form
  | .declaration name _ _ => .declaration name "" false
  | .value _ => .value ""
  | form => form

/-- A label without what it tells of the value of a declaration. -/
def Label.sketch : Label → Label
  | .style form => .style form.sketch
  | label => label

/-- Whether a label is that of the value of a declaration. -/
def Label.isValue : Label → Bool
  | .style (.value _) => true
  | _ => false

theorem Label.isValue_sketch (l : Label) : l.sketch.isValue = l.isValue := by
  cases l with
  | document => rfl
  | style form => cases form <;> rfl
  | python form => rfl

theorem Label.sketch_sketch (l : Label) : l.sketch.sketch = l.sketch := by
  cases l with
  | document => rfl
  | style form => cases form <;> rfl
  | python form => rfl

namespace Node

mutual

/-- A tree without its values, each end of a span put elsewhere. -/
def sketch (place : Nat → Nat) : Node → Node
  | ⟨label, span, children⟩ =>
    ⟨label.sketch, .between (place span.start) (place span.stop), sketchList place children⟩

/-- Trees without their values. -/
def sketchList (place : Nat → Nat) : List Node → List Node
  | [] => []
  | n :: rest => sketch place n :: sketchList place rest

end

variable {place : Nat → Nat}

theorem sketchList_eq_map (ns : List Node) : sketchList place ns = ns.map (sketch place) := by
  induction ns with
  | nil => rfl
  | cons n rest ih => rw [sketchList, ih, List.map_cons]

@[simp] theorem sketch_label (n : Node) : (n.sketch place).label = n.label.sketch := by
  cases n; rfl

@[simp] theorem sketch_span (n : Node) :
    (n.sketch place).span = .between (place n.span.start) (place n.span.stop) := by
  cases n; rfl

theorem sketchList_append (ns ms : List Node) :
    sketchList place (ns ++ ms) = sketchList place ns ++ sketchList place ms := by
  rw [sketchList_eq_map, sketchList_eq_map, sketchList_eq_map, List.map_append]

mutual

theorem walk_sketch (n : Node) : walk (n.sketch place) = (walk n).map (sketch place) := by
  cases n with
  | mk label span children =>
    rw [sketch, walk, walk, List.map_cons, walkList_sketch children]
    rfl

theorem walkList_sketch (ns : List Node) : walkList (sketchList place ns) = (walkList ns).map (sketch place) := by
  cases ns with
  | nil => rfl
  | cons n rest => rw [sketchList, walkList, walkList, List.map_append, walk_sketch n, walkList_sketch rest]

end

mutual

theorem outline_sketch (depth : Nat) (n : Node) : outline depth (n.sketch place) =
    (outline depth n).map fun (k, m) => (k, m.sketch place) := by
  cases n with
  | mk label span children =>
    rw [sketch, outline, outline, List.map_cons, outlineList_sketch (depth + 1) children]
    rfl

theorem outlineList_sketch (depth : Nat) (ns : List Node) : outlineList depth (sketchList place ns) =
    (outlineList depth ns).map fun (k, m) => (k, m.sketch place) := by
  cases ns with
  | nil => rfl
  | cons n rest =>
    rw [sketchList, outlineList, outlineList, List.map_append, outline_sketch depth n,
      outlineList_sketch depth rest]

end

mutual

/-- A tree that is moved keeps its sketch, if its places are told alike. -/
theorem sketch_relocate {place' : Nat → Nat} {old new : Nat} (n : Node)
    (h : ∀ m ∈ walk n, place' (new + (m.span.start - old)) = place m.span.start ∧
      place' (new + (m.span.stop - old)) = place m.span.stop) :
    (n.relocate old new).sketch place' = n.sketch place := by
  cases n with
  | mk label span children =>
    rw [walk, List.forall_mem_cons] at h
    rw [relocate, sketch, sketch, sketchList_relocate children h.2, Span.relocate_start, Span.relocate_stop,
      h.1.1, h.1.2]

theorem sketchList_relocate {place' : Nat → Nat} {old new : Nat} (ns : List Node)
    (h : ∀ m ∈ walkList ns, place' (new + (m.span.start - old)) = place m.span.start ∧
      place' (new + (m.span.stop - old)) = place m.span.stop) :
    sketchList place' (relocateList old new ns) = sketchList place ns := by
  cases ns with
  | nil => rfl
  | cons n rest =>
    rw [walkList, List.forall_mem_append] at h
    rw [relocateList, sketchList, sketchList, sketch_relocate n h.1, sketchList_relocate rest h.2]

end

/-- What a tree says apart from the values of its declarations: each node in document order, with
its depth. -/
def skeleton (tree : Node) : List (Nat × Label) :=
  (outline 0 tree).map fun (depth, n) => (depth, n.label.sketch)

/-- Trees with the same sketch say the same apart from their values. -/
theorem skeleton_of_sketch {place' : Nat → Nat} {m n : Node} (h : m.sketch place' = n.sketch place) :
    m.skeleton = n.skeleton := by
  have hskeleton {place : Nat → Nat} (n : Node) : (n.sketch place).skeleton = n.skeleton := by
    simp only [skeleton, outline_sketch, List.map_map, Function.comp_def, sketch_label, Label.sketch_sketch]
  rw [← hskeleton, h, hskeleton]

theorem kind_sketch (n : Node) : (n.sketch place).kind = n.kind := by
  rw [kind, sketch_label, kind]
  cases n.label with
  | style form => cases form <;> rfl
  | document => rfl
  | python form => rfl

theorem kinds_sketch (n : Node) : (n.sketch place).kinds = n.kinds := by
  simp only [kinds, outline_sketch, List.map_map, Function.comp_def, kind_sketch]

theorem spans_sketch (n : Node) :
    (n.sketch place).spans = n.spans.map fun s => .between (place s.start) (place s.stop) := by
  simp only [spans, walk_sketch, List.map_map, Function.comp_def, sketch_span]

/-- The places of the values of a tree, in document order. -/
def values (tree : Node) : List Span :=
  ((walk tree).filter fun n => n.label.isValue).map span

theorem values_sketch (n : Node) :
    (n.sketch place).values = n.values.map fun s => .between (place s.start) (place s.stop) := by
  rw [values, walk_sketch, List.filter_map, List.map_map, values, List.map_map]
  have hfilter : ((fun n : Node => n.label.isValue) ∘ sketch place) = fun n : Node => n.label.isValue :=
    funext fun n => by rw [Function.comp_apply, sketch_label, Label.isValue_sketch]
  rw [hfilter]
  exact List.map_congr_left fun n _ => sketch_span n

end Node

end HouseStyle
