import HouseStyle.Proofs.Python.Standing
import HouseStyle.Python.Pattern
import Mathlib.Data.List.Forall2

/-!
# Rows of tokens that mirror each other

Two rows of tokens are read alike if their tokens agree in all that a recognizer asks for: offsets may be moved by one
distance, and literals may be spelled in other ways. What is built from the one row then mirrors what is built from
the other.

* `Drift`: what the rows may differ in; `Mirrored`: things of both rows that correspond.
* `Mirror`: two rows of tokens; `Tracks`: the relation of two recognizers.
* `Tracks.bind`, `Tracks.many`, `Tracks.orElse` and others: the ways to combine recognizers keep it.
-/

namespace HouseStyle.Python

open Recognizer

/-- **How a row of tokens may differ from one that is read in its place**: all offsets are moved by one distance, and a
literal may be spelled in another way, with the same letters in front of it. -/
structure Drift where
  lost : Nat
  gained : Nat
  /-- The other spellings of a literal that begins at an offset. -/
  respelled : Nat → String → String → Prop
  marker : ∀ {offset s s'}, respelled offset s s' → stringMarker s'.toList = stringMarker s.toList

/-- Things made of offsets, tokens and nodes, and those that are built in their place. -/
class Mirrored (α : Type) where
  mirrored : Drift → α → α → Prop

export Mirrored (mirrored)

variable {D : Drift} {α β γ : Type}

/-- An offset and where it has moved. -/
instance : Mirrored Nat := ⟨fun D i i' => i + D.gained = i' + D.lost⟩
instance : Mirrored Bool := ⟨fun _ => Eq⟩
instance : Mirrored String := ⟨fun _ => Eq⟩
instance : Mirrored Unit := ⟨fun _ => Eq⟩
instance : Mirrored ParameterState := ⟨fun _ => Eq⟩
instance : Mirrored ArgumentPhase := ⟨fun _ => Eq⟩
instance [Mirrored α] : Mirrored (List α) := ⟨fun D => List.Forall₂ (mirrored D)⟩
instance [Mirrored α] : Mirrored (Option α) := ⟨fun D => Option.Rel (mirrored D)⟩
instance [Mirrored α] [Mirrored β] : Mirrored (α × β) := ⟨fun D p p' => mirrored D p.1 p'.1 ∧ mirrored D p.2 p'.2⟩
/-- What is built later, from things that correspond. -/
instance [Mirrored α] [Mirrored β] : Mirrored (α → β) := ⟨fun D f f' => ∀ a a', mirrored D a a' → mirrored D (f a) (f' a')⟩

/-! ### Tokens -/

/-- A token and one that is read in its place. -/
structure Token.Mirrors (D : Drift) (t t' : Token) : Prop where
  kind : t'.kind = t.kind
  start : mirrored D t.start t'.start
  stop : mirrored D t.stop t'.stop
  text : t.kind ≠ .string → t'.text = t.text
  literal : t.kind = .string → D.respelled t.start t.text t'.text

instance : Mirrored Token := ⟨Token.Mirrors⟩

section

variable {t t' : Token}

@[grind →] theorem start_of_mirrored (h : mirrored D t t') : mirrored D t.start t'.start :=
  Token.Mirrors.start h

@[grind →] theorem stop_of_mirrored (h : mirrored D t t') : mirrored D t.stop t'.stop :=
  Token.Mirrors.stop h

theorem kind_of_mirrored (h : mirrored D t t') : t'.kind = t.kind :=
  Token.Mirrors.kind h

theorem text_of_mirrored (h : mirrored D t t') (hkind : t.kind ≠ .string) : t'.text = t.text :=
  Token.Mirrors.text h hkind

theorem isWord_of_mirrored (h : mirrored D t t') (w : String) : isWord w t' = isWord w t := by
  unfold isWord
  rw [kind_of_mirrored h]
  by_cases hkind : t.kind = .name
  · rw [text_of_mirrored h (by rw [hkind]; decide)]
  · rw [beq_false_of_ne hkind, Bool.false_and, Bool.false_and]

theorem isOperator_of_mirrored (h : mirrored D t t') (o : String) : isOperator o t' = isOperator o t := by
  unfold isOperator
  rw [kind_of_mirrored h]
  by_cases hkind : t.kind = .operator
  · rw [text_of_mirrored h (by rw [hkind]; decide)]
  · rw [beq_false_of_ne hkind, Bool.false_and, Bool.false_and]

end

/-! ### Nodes -/

/-- The form of a literal with a spelling. -/
def literalForm (spelling : String) : Form :=
  let marker := stringMarker spelling.toList
  .simpleString spelling (String.ofList marker) (String.ofList (openingQuote (spelling.toList.drop marker.length)))

/-- Whether a form is that of a literal. -/
@[grind]
def Form.isLiteral : Form → Bool
  | .simpleString _ _ _ => true
  | _ => false

/-- A form of a node that begins at an offset, and the form in its place. -/
inductive Form.Mirrors (D : Drift) (offset : Nat) : Form → Form → Prop
  | same {form : Form} (h : form.isLiteral = false) : Mirrors D offset form form
  | literal {s s' : String} (h : D.respelled offset s s') : Mirrors D offset (literalForm s) (literalForm s')

/-- A tree and the tree in its place. -/
inductive Node.Mirrors (D : Drift) : Node → Node → Prop
  | node {f f' : Form} {s s' : Span} {ns ns' : List Node} (form : Form.Mirrors D s.start f f')
      (start : mirrored D s.start s'.start) (stop : mirrored D s.stop s'.stop)
      (children : List.Forall₂ (Node.Mirrors D) ns ns') : Node.Mirrors D ⟨.python f, s, ns⟩ ⟨.python f', s', ns'⟩

instance : Mirrored Node := ⟨Node.Mirrors⟩

/-- A piece and the piece in its place. -/
structure Piece.Mirrors (D : Drift) (p p' : Piece) : Prop where
  node : mirrored D p.node p'.node
  first : mirrored D p.first p'.first
  last : mirrored D p.last p'.last

instance : Mirrored Piece := ⟨Piece.Mirrors⟩

/-- An argument and the argument in its place. -/
structure Argument.Mirrors (D : Drift) (a a' : Argument) : Prop where
  node : mirrored D a.node a'.node
  keyword : a'.keyword = a.keyword
  stars : a'.stars = a.stars

instance : Mirrored Argument := ⟨Argument.Mirrors⟩

/-! ### Data -/

section

variable [Mirrored α] [Mirrored β] [Mirrored γ] {a a' : α} {b b' : β} {l l' m m' : List α} {o o' : Option α}

@[grind .] theorem mirrored_nil : mirrored D ([] : List α) [] := .nil
@[grind .] theorem mirrored_cons (ha : mirrored D a a') (hl : mirrored D l l') : mirrored D (a :: l) (a' :: l') :=
  .cons ha hl
theorem mirrored_single (ha : mirrored D a a') : mirrored D [a] [a'] :=
  mirrored_cons ha mirrored_nil
@[grind .] theorem mirrored_append (hl : mirrored D l l') (hm : mirrored D m m') : mirrored D (l ++ m) (l' ++ m') :=
  List.rel_append hl hm
@[grind .] theorem mirrored_none : mirrored D (none : Option α) none := .none
@[grind .] theorem mirrored_some (ha : mirrored D a a') : mirrored D (some a) (some a') := .some ha
@[grind .] theorem mirrored_pair (ha : mirrored D a a') (hb : mirrored D b b') : mirrored D (a, b) (a', b') := ⟨ha, hb⟩
theorem fst_of_mirrored {p p' : α × β} (h : mirrored D p p') : mirrored D p.1 p'.1 := h.1
theorem snd_of_mirrored {p p' : α × β} (h : mirrored D p p') : mirrored D p.2 p'.2 := h.2
@[grind .] theorem mirrored_bool (x : Bool) : mirrored D x x := rfl
@[grind .] theorem mirrored_string (s : String) : mirrored D s s := rfl
@[grind .] theorem mirrored_state (s : ParameterState) : mirrored D s s := rfl
@[grind .] theorem mirrored_phase (p : ArgumentPhase) : mirrored D p p := rfl

/-- The later one of two offsets. -/
@[grind .] theorem mirrored_max {i i' j j' : Nat} (hi : mirrored D i i') (hj : mirrored D j j') :
    mirrored D (max i j) (max i' j') := by
  change i + D.gained = i' + D.lost at hi
  change j + D.gained = j' + D.lost at hj
  change max i j + D.gained = max i' j' + D.lost
  omega

theorem eq_iff_of_mirrored {i i' j j' : Nat} (hi : mirrored D i i') (hj : mirrored D j j') : i' = j' ↔ i = j := by
  change i + D.gained = i' + D.lost at hi
  change j + D.gained = j' + D.lost at hj
  omega

theorem mirrored_map {f f' : α → β} (hf : ∀ a a', mirrored D a a' → mirrored D (f a) (f' a')) (h : mirrored D l l') :
    mirrored D (l.map f) (l'.map f') := by
  refine List.forall₂_map_left_iff.2 (List.forall₂_map_right_iff.2 ?_)
  exact List.Forall₂.imp hf h

theorem mirrored_optionMap {f f' : α → β} (hf : ∀ a a', mirrored D a a' → mirrored D (f a) (f' a'))
    (h : mirrored D o o') : mirrored D (o.map f) (o'.map f') := by
  cases h with
  | some h => exact mirrored_some (hf _ _ h)
  | none => exact mirrored_none

theorem mirrored_toList (h : mirrored D o o') : mirrored D o.toList o'.toList := by
  cases h with
  | some h => exact mirrored_cons h mirrored_nil
  | none => exact mirrored_nil

theorem mirrored_getD (h : mirrored D o o') (ha : mirrored D a a') : mirrored D (o.getD a) (o'.getD a') := by
  cases h with
  | some h => exact h
  | none => exact ha

theorem isSome_of_mirrored (h : mirrored D o o') : o'.isSome = o.isSome := by
  cases h <;> rfl

theorem isNone_of_mirrored (h : mirrored D o o') : o'.isNone = o.isNone := by
  cases h <;> rfl

theorem isEmpty_of_mirrored (h : mirrored D l l') : l'.isEmpty = l.isEmpty := by
  cases h <;> rfl

theorem mirrored_head? (h : mirrored D l l') : mirrored D l.head? l'.head? := by
  cases h with
  | nil => exact mirrored_none
  | cons h _ => exact mirrored_some h

theorem mirrored_tail (h : mirrored D l l') : mirrored D l.tail l'.tail := by
  cases h with
  | nil => exact mirrored_nil
  | cons _ h => exact h

theorem mirrored_getLast? (h : mirrored D l l') : mirrored D l.getLast? l'.getLast? := by
  induction h with
  | nil => exact mirrored_none
  | @cons a a' l l' ha hl ih =>
    rw [List.getLast?_cons, List.getLast?_cons]
    exact mirrored_some (mirrored_getD ih ha)

theorem mirrored_getLastD (h : mirrored D l l') (ha : mirrored D a a') :
    mirrored D (l.getLastD a) (l'.getLastD a') := by
  rw [List.getLastD_eq_getLast?, List.getLastD_eq_getLast?]
  exact mirrored_getD (mirrored_getLast? h) ha

/-- What is folded up from things that correspond. -/
theorem mirrored_foldl {f f' : β → α → β} (hf : ∀ b b' a a', mirrored D b b' → mirrored D a a' → mirrored D (f b a) (f' b' a'))
    (hb : mirrored D b b') (h : mirrored D l l') : mirrored D (l.foldl f b) (l'.foldl f' b') := by
  induction h generalizing b b' with
  | nil => exact hb
  | cons ha _ ih => exact ih (hf _ _ _ _ hb ha)

/-- A test that corresponding things pass alike. -/
theorem all_of_mirrored {p p' : α → Bool} (hp : ∀ a a', mirrored D a a' → p' a' = p a) (h : mirrored D l l') :
    l'.all p' = l.all p := by
  induction h with
  | nil => rfl
  | cons ha _ ih => rw [List.all_cons, List.all_cons, hp _ _ ha, ih]

theorem mirrored_filter {p p' : α → Bool} (hp : ∀ a a', mirrored D a a' → p' a' = p a) (h : mirrored D l l') :
    mirrored D (l.filter p) (l'.filter p') := by
  induction h with
  | nil => exact mirrored_nil
  | @cons a a' l l' ha _ ih =>
    rw [List.filter_cons, List.filter_cons, hp _ _ ha]
    split
    · exact mirrored_cons ha ih
    · exact ih

theorem mirrored_dropWhile {p p' : α → Bool} (hp : ∀ a a', mirrored D a a' → p' a' = p a) (h : mirrored D l l') :
    mirrored D (l.dropWhile p) (l'.dropWhile p') := by
  induction h with
  | nil => exact mirrored_nil
  | @cons a a' l l' ha hl ih =>
    rw [List.dropWhile_cons, List.dropWhile_cons, hp _ _ ha]
    split
    · exact ih
    · exact mirrored_cons ha hl

end

/-- Data without offsets is the same. -/
theorem eq_of_mirrored_strings {l l' : List String} (h : mirrored D l l') : l' = l := by
  induction h with
  | nil => rfl
  | cons ha _ ih => rw [ih, ← (ha : _ = _)]

/-! ### Nodes and pieces -/

section

variable {n n' : Node} {p p' : Piece} {t t' : Token} {start start' stop stop' : Nat} {children children' : List Node}

@[grind →] theorem span_start_of_mirrored (h : mirrored D n n') : mirrored D n.span.start n'.span.start := by
  cases h
  assumption

@[grind →] theorem span_stop_of_mirrored (h : mirrored D n n') : mirrored D n.span.stop n'.span.stop := by
  cases h
  assumption

@[grind →] theorem children_of_mirrored (h : mirrored D n n') : mirrored D n.children n'.children := by
  cases h
  assumption

@[grind →] theorem node_of_mirrored (h : mirrored D p p') : mirrored D p.node p'.node :=
  Piece.Mirrors.node h

@[grind →] theorem first_of_mirrored (h : mirrored D p p') : mirrored D p.first p'.first :=
  Piece.Mirrors.first h

@[grind →] theorem last_of_mirrored (h : mirrored D p p') : mirrored D p.last p'.last :=
  Piece.Mirrors.last h

theorem hasShape_of_mirrored (h : mirrored D n n') (shape : Shape) : hasShape shape n' = hasShape shape n := by
  cases h with
  | node form =>
    cases form <;> rfl

/-- A node of a form that is not a literal. -/
@[grind .] theorem mirrored_nodeOf {form : Form} (hform : form.isLiteral = false)
    (h : mirrored D start start' ∧ mirrored D stop stop' ∧ mirrored D children children') :
    mirrored D (nodeOf form start stop children) (nodeOf form start' stop' children') :=
  Node.Mirrors.node (.same hform) h.1 (mirrored_max h.1 h.2.1) h.2.2

@[grind .] theorem mirrored_plainNode {shape : Shape}
    (h : mirrored D start start' ∧ mirrored D stop stop' ∧ mirrored D children children') :
    mirrored D (plainNode shape start stop children) (plainNode shape start' stop' children') :=
  mirrored_nodeOf rfl h

@[grind .] theorem mirrored_nameNode (h : mirrored D t t') (hkind : t.kind = .name) :
    mirrored D (nameNode t) (nameNode t') := by
  unfold nameNode
  rw [text_of_mirrored h (by rw [hkind]; decide)]
  exact mirrored_nodeOf rfl ⟨start_of_mirrored h, stop_of_mirrored h, mirrored_nil⟩

@[grind .] theorem mirrored_ofNode (h : mirrored D n n') : mirrored D (Piece.ofNode n) (Piece.ofNode n') :=
  Piece.Mirrors.mk h (span_start_of_mirrored h) (span_stop_of_mirrored h)

@[grind .] theorem mirrored_make {form : Form} (hform : form.isLiteral = false)
    (h : mirrored D start start' ∧ mirrored D stop stop' ∧ mirrored D children children') :
    mirrored D (Piece.make form start stop children) (Piece.make form start' stop' children') :=
  mirrored_ofNode (mirrored_nodeOf hform h)

@[grind .] theorem mirrored_plain {shape : Shape}
    (h : mirrored D start start' ∧ mirrored D stop stop' ∧ mirrored D children children') :
    mirrored D (Piece.plain shape start stop children) (Piece.plain shape start' stop' children') :=
  mirrored_make rfl h

@[grind .] theorem mirrored_enclose (h : mirrored D p p') (hstart : mirrored D start start') (hstop : mirrored D stop stop') :
    mirrored D (p.enclose start stop) (p'.enclose start' stop') := by
  have hnode := node_of_mirrored h
  exact Piece.Mirrors.mk hnode hstart hstop

theorem isBare_of_mirrored (h : mirrored D p p') : p'.isBare = p.isBare := by
  have hfirst := eq_iff_of_mirrored (first_of_mirrored h) (span_start_of_mirrored (node_of_mirrored h))
  have hlast := eq_iff_of_mirrored (last_of_mirrored h) (span_stop_of_mirrored (node_of_mirrored h))
  unfold Piece.isBare
  simp only [Bool.beq_eq_decide_eq, hfirst, hlast]

end

/-! ### Names and targets -/

/-- The dotted name of an expression stays. -/
theorem dottedName?_of_mirrored : ∀ {n n' : Node}, mirrored D n n' → dottedName? n' = dottedName? n
  | _, _, .node (.literal _) _ _ children => by cases children <;> rfl
  | _, _, .node (f := f) (.same _) _ _ .nil => by
    cases f with
    | plain shape => cases shape <;> rfl
    | _ => rfl
  | _, _, .node (f := f) (.same _) _ _ (.cons hvalue _) => by
    cases f with
    | plain shape =>
      cases shape with
      | subscript =>
        have ih := dottedName?_of_mirrored hvalue
        exact ih
      | _ => rfl
    | _ => rfl

theorem attributeName_of_mirrored {n n' : Node} (h : mirrored D n n') (name : String) :
    attributeName n' name = attributeName n name := by
  unfold attributeName
  rw [dottedName?_of_mirrored h]

mutual

theorem isTarget_of_mirrored : ∀ {n n' : Node}, Node.Mirrors D n n' → isTarget n' = isTarget n
  | _, _, .node (.literal _) _ _ children => by cases children <;> rfl
  | _, _, .node (f := f) (.same _) _ _ children => by
    cases f with
    | plain shape =>
      cases shape with
      | tupleDisplay | listDisplay => exact areTargets_of_mirrored children
      | starredElement | element =>
        cases children with
        | nil => rfl
        | cons h hrest =>
          cases hrest with
          | nil =>
            have ih := isTarget_of_mirrored h
            exact ih
          | cons _ _ => rfl
      | _ => rfl
    | _ => rfl

theorem areTargets_of_mirrored : ∀ {ns ns' : List Node}, List.Forall₂ (Node.Mirrors D) ns ns' →
    areTargets ns' = areTargets ns
  | _, _, .nil => rfl
  | _, _, .cons h hrest => by rw [areTargets, areTargets, isTarget_of_mirrored h, areTargets_of_mirrored hrest]

end

mutual

theorem isDeletable_of_mirrored : ∀ {n n' : Node}, Node.Mirrors D n n' → isDeletable n' = isDeletable n
  | _, _, .node (.literal _) _ _ children => by cases children <;> rfl
  | _, _, .node (f := f) (.same hform) start stop children => by
    have hother := isTarget_of_mirrored (.node (.same hform) start stop children)
    cases f with
    | plain shape =>
      cases shape with
      | tupleDisplay | listDisplay => exact areDeletable_of_mirrored children
      | element =>
        cases children with
        | nil => rfl
        | cons h hrest =>
          cases hrest with
          | nil =>
            have ih := isDeletable_of_mirrored h
            exact ih
          | cons _ _ => rfl
      | starredElement => rfl
      | _ => exact hother
    | _ => exact hother

theorem areDeletable_of_mirrored : ∀ {ns ns' : List Node}, List.Forall₂ (Node.Mirrors D) ns ns' →
    areDeletable ns' = areDeletable ns
  | _, _, .nil => rfl
  | _, _, .cons h hrest => by
    rw [areDeletable, areDeletable, isDeletable_of_mirrored h, areDeletable_of_mirrored hrest]

end

theorem isSimpleTarget_of_mirrored {n n' : Node} (h : mirrored D n n') : isSimpleTarget n' = isSimpleTarget n := by
  have htarget := isTarget_of_mirrored h
  cases h with
  | @node f _ _ _ _ _ form =>
    cases form with
    | literal => rfl
    | same =>
      cases f with
      | plain shape =>
        cases shape with
        | subscript => exact htarget
        | _ => rfl
      | _ => exact htarget

/-! ### Recognizers -/

/-- **Two rows of tokens that mirror each other** from a place on. -/
structure Mirror extends Drift where
  before : Array Token
  after : Array Token
  first : Nat
  token : ∀ i, first ≤ i → mirrored toDrift before[i]? after[i]?
  behind : ∀ i, first ≤ i → mirrored toDrift (stopBefore before i) (stopBefore after i)

variable {M : Mirror}

/-- As many tokens are left in the one row as in the other. -/
theorem Mirror.size_sub (M : Mirror) {i : Nat} (hi : M.first ≤ i) : M.after.size - i = M.before.size - i := by
  have hend (k : Nat) (hk : M.first ≤ k) : M.before.size ≤ k ↔ M.after.size ≤ k := by
    rw [← Array.getElem?_eq_none_iff, ← Array.getElem?_eq_none_iff, ← Option.isNone_iff_eq_none,
      ← Option.isNone_iff_eq_none, isNone_of_mirrored (M.token k hk)]
  have hbefore := hend (max M.first M.before.size) (Nat.le_max_left _ _)
  have hafter := hend (max M.first M.after.size) (Nat.le_max_left _ _)
  omega

/-- A token that is read is the one at the place. -/
theorem token_of_satisfy {test : Token → Bool} {tokens : Array Token} {i j : Nat} {t : Token} {h : i ≤ j}
    (hfound : satisfy test tokens i = .found t j h) : tokens[i]? = some t := by
  unfold satisfy at hfound
  split at hfound
  · split at hfound <;> cases hfound
    assumption
  · cases hfound

/-- Answers that mirror each other. -/
inductive Mirror.Answers [Mirrored α] (M : Mirror) {i : Nat} : Outcome α i → Outcome α i → Prop
  | found {a a' : α} {j : Nat} {h : i ≤ j} (value : mirrored M.toDrift a a') : Answers M (.found a j h) (.found a' j h)
  | absent : Answers M .absent .absent
  | tooDeep : Answers M .tooDeep .tooDeep

/-- Two recognizers that start to read at a token answer alike. -/
def TracksAt [Mirrored α] (M : Mirror) (i : Nat) (p p' : Recognizer α) : Prop :=
  M.Answers (p M.before i) (p' M.after i)

/-- **Two recognizers answer alike**, wherever they start to read. -/
def Tracks [Mirrored α] (M : Mirror) (p p' : Recognizer α) : Prop :=
  ∀ i, M.first ≤ i → TracksAt M i p p'

section

variable [Mirrored α] [Mirrored β] {p p' q q' : Recognizer α}

/-- What follows may ask what the first recognizer has found, and where. -/
theorem TracksAt.bindFound {f f' : α → Recognizer β} {i : Nat} (hp : TracksAt M i p p')
    (hf : ∀ a a' j h, p M.before i = .found a j h → p' M.after i = .found a' j h → mirrored M.toDrift a a' →
      TracksAt M j (f a) (f' a')) : TracksAt M i (p >>= f) (p' >>= f') := by
  change M.Answers (Recognizer.bind p f M.before i) (Recognizer.bind p' f' M.after i)
  unfold TracksAt at hp
  unfold Recognizer.bind
  generalize hafter : p' M.after i = o' at hp ⊢
  cases hbefore : p M.before i with
  | found a j h =>
    rw [hbefore] at hp
    cases hp with
    | @found _ a' _ _ value =>
      have hrest := hf a a' j h hbefore hafter value
      unfold TracksAt at hrest
      dsimp only
      generalize f a M.before j = o at hrest ⊢
      generalize f' a' M.after j = o' at hrest ⊢
      cases hrest with
      | found value => exact .found value
      | absent => exact .absent
      | tooDeep => exact .tooDeep
  | absent =>
    rw [hbefore] at hp
    cases hp
    exact .absent
  | tooDeep =>
    rw [hbefore] at hp
    cases hp
    exact .tooDeep

/-- A test of one token that it and the token in its place pass alike. -/
theorem TracksAt.satisfy {test : Token → Bool} {i : Nat} (hi : M.first ≤ i)
    (htest : ∀ t t', M.before[i]? = some t → mirrored M.toDrift t t' → test t' = test t) :
    TracksAt M i (Recognizer.satisfy test) (Recognizer.satisfy test) := by
  have htoken := M.token i hi
  unfold TracksAt Recognizer.satisfy
  generalize M.before[i]? = o at htoken htest
  generalize M.after[i]? = o' at htoken
  cases htoken with
  | none => exact .absent
  | @some t t' ht =>
    dsimp only
    rw [htest t t' rfl ht]
    split
    · exact .found ht
    · exact .absent

end

namespace Tracks

variable [Mirrored α] [Mirrored β] {p p' q q' : Recognizer α}

protected theorem pure {a a' : α} (h : mirrored M.toDrift a a') : Tracks M (pure a : Recognizer α) (pure a') :=
  fun _ _ => .found h

theorem fail : Tracks M (fail : Recognizer α) fail :=
  fun _ _ => .absent

theorem giveUp : Tracks M (giveUp : Recognizer α) giveUp :=
  fun _ _ => .tooDeep

/-- What follows may ask what the first recognizer has found, and where. -/
theorem bindFound {f f' : α → Recognizer β} (hp : Tracks M p p')
    (hf : ∀ i a a' j h, M.first ≤ i → p M.before i = .found a j h → p' M.after i = .found a' j h →
      mirrored M.toDrift a a' → TracksAt M j (f a) (f' a')) : Tracks M (p >>= f) (p' >>= f') :=
  fun i hi => (hp i hi).bindFound fun a a' j h => hf i a a' j h hi

protected theorem bind {f f' : α → Recognizer β} (hp : Tracks M p p')
    (hf : ∀ a a', mirrored M.toDrift a a' → Tracks M (f a) (f' a')) : Tracks M (p >>= f) (p' >>= f') :=
  hp.bindFound fun _ a a' j h hi _ _ ha => hf a a' ha j (Nat.le_trans hi h)

/-- What follows may ask for a property of all that the first recognizer finds. -/
theorem bindFinds {P : α → Prop} {f f' : α → Recognizer β} (hp : Tracks M p p') (hfinds : Finds P p)
    (hf : ∀ a a', mirrored M.toDrift a a' → P a → Tracks M (f a) (f' a')) : Tracks M (p >>= f) (p' >>= f') :=
  hp.bindFound fun i a a' j h hi hfound _ ha => hf a a' ha (hfinds M.before i a j h hfound) j (Nat.le_trans hi h)

protected theorem map {f f' : α → β} (hp : Tracks M p p')
    (hf : ∀ a a', mirrored M.toDrift a a' → mirrored M.toDrift (f a) (f' a')) : Tracks M (f <$> p) (f' <$> p') :=
  hp.bind fun a a' ha => .pure (hf a a' ha)

/-- Tests that have one answer. -/
protected theorem ite {x y : Bool} (h : y = x) (hp : Tracks M p p') (hq : Tracks M q q') :
    Tracks M (if x = true then p else q) (if y = true then p' else q') := by
  rw [h]
  split
  · exact hp
  · exact hq

theorem guard {x y : Bool} (h : y = x) {f f' : Unit → Recognizer β} (hf : Tracks M (f ()) (f' ())) :
    Tracks M (guardThat x >>= f) (guardThat y >>= f') := by
  rw [h]
  cases x with
  | true => exact Tracks.bind (.pure (rfl : () = ())) fun _ _ _ => hf
  | false => exact Tracks.bind .fail fun _ _ _ => hf

theorem orElse (hp : Tracks M p p') (hq : Tracks M q q') : Tracks M (p <|> q) (p' <|> q') := by
  intro i hi
  have hfirst := hp i hi
  change M.Answers (Recognizer.orElse p (fun _ => q) M.before i) (Recognizer.orElse p' (fun _ => q') M.after i)
  unfold TracksAt at hfirst
  unfold Recognizer.orElse
  generalize p M.before i = o at hfirst ⊢
  generalize p' M.after i = o' at hfirst ⊢
  cases hfirst with
  | found value => exact .found value
  | absent => exact hq i hi
  | tooDeep => exact .tooDeep

/-- What follows may ask which token is the next one to be read. -/
theorem peekAt {f f' : Token → Recognizer β}
    (hf : ∀ i t t', M.first ≤ i → M.before[i]? = some t → M.after[i]? = some t' → mirrored M.toDrift t t' →
      TracksAt M i (f t) (f' t')) : Tracks M (Recognizer.peek >>= f) (Recognizer.peek >>= f') := by
  refine bindFound (fun i hi => ?_) fun i t t' j _ hi hbefore hafter ht => ?_
  · have htoken := M.token i hi
    unfold TracksAt Recognizer.peek
    generalize M.before[i]? = o at htoken ⊢
    generalize M.after[i]? = o' at htoken ⊢
    cases htoken with
    | some ht => exact .found ht
    | none => exact .absent
  · obtain ⟨rfl, htoken⟩ := at_of_peek hbefore
    exact hf j t t' hi htoken (at_of_peek hafter).2 ht

theorem peek {f f' : Token → Recognizer β} (hf : ∀ t t', mirrored M.toDrift t t' → Tracks M (f t) (f' t')) :
    Tracks M (Recognizer.peek >>= f) (Recognizer.peek >>= f') :=
  peekAt fun i t t' hi _ _ ht => hf t t' ht i hi

/-- Whether an operator is next has one answer. -/
theorem atOp {o : String} {f f' : Bool → Recognizer β} (hf : ∀ x, Tracks M (f x) (f' x)) :
    Tracks M (Recognizer.atOp o >>= f) (Recognizer.atOp o >>= f') := by
  refine Tracks.bind (peek fun t t' ht => .pure ?_) fun x y h => ?_
  · exact (isOperator_of_mirrored ht o).symm
  · obtain rfl : x = y := h
    exact hf x

/-- Whether a word is next has one answer. -/
theorem atWord {w : String} {f f' : Bool → Recognizer β} (hf : ∀ x, Tracks M (f x) (f' x)) :
    Tracks M (Recognizer.atWord w >>= f) (Recognizer.atWord w >>= f') := by
  refine Tracks.bind (peek fun t t' ht => .pure ?_) fun x y h => ?_
  · exact (isWord_of_mirrored ht w).symm
  · obtain rfl : x = y := h
    exact hf x

theorem satisfy {test : Token → Bool} (htest : ∀ t t', mirrored M.toDrift t t' → test t' = test t) :
    Tracks M (Recognizer.satisfy test) (Recognizer.satisfy test) :=
  fun _ hi => .satisfy hi fun t t' _ => htest t t'

theorem word (w : String) : Tracks M (word w) (word w) :=
  satisfy fun _ _ ht => isWord_of_mirrored ht w

theorem op (o : String) : Tracks M (op o) (op o) :=
  satisfy fun _ _ ht => isOperator_of_mirrored ht o

theorem kind (k : TokenKind) : Tracks M (kind k) (kind k) :=
  satisfy fun t t' ht => by rw [kind_of_mirrored ht]

/-- One of some texts, of a token of a kind other than that of literals. -/
theorem satisfyText {k : TokenKind} (hk : k ≠ .string) (test : String → Bool) :
    Tracks M (Recognizer.satisfy fun t => t.kind == k && test t.text)
      (Recognizer.satisfy fun t => t.kind == k && test t.text) := by
  refine satisfy fun t t' ht => ?_
  rw [kind_of_mirrored ht]
  by_cases hkind : t.kind = k
  · rw [text_of_mirrored ht (by rwa [hkind])]
  · rw [beq_false_of_ne hkind, Bool.false_and, Bool.false_and]

theorem identifier : Tracks M identifier identifier :=
  satisfyText (by decide) fun text => !reservedWords.contains text

theorem oneOf (operators : List String) : Tracks M (oneOf operators) (oneOf operators) :=
  satisfyText (by decide) operators.contains

/-- What follows a name that is not reserved may ask for its kind. -/
theorem named {f f' : Token → Recognizer β}
    (hf : ∀ t t', mirrored M.toDrift t t' → t.kind = .name → Tracks M (f t) (f' t')) :
    Tracks M (Recognizer.identifier >>= f) (Recognizer.identifier >>= f') :=
  identifier.bindFinds .identifier hf

theorem lastStop : Tracks M lastStop lastStop := by
  intro i hi
  unfold TracksAt
  rw [lastStop_eq, lastStop_eq]
  exact .found (M.behind i hi)

theorem maybe (hp : Tracks M p p') : Tracks M (maybe p) (maybe p') := by
  intro i hi
  have hfirst := hp i hi
  unfold TracksAt at hfirst ⊢
  unfold Recognizer.maybe
  generalize p M.before i = o at hfirst ⊢
  generalize p' M.after i = o' at hfirst ⊢
  cases hfirst with
  | found value => exact .found (mirrored_some value)
  | absent => exact .found mirrored_none
  | tooDeep => exact .tooDeep

theorem repeatUpTo (hp : Tracks M p p') (fuel : Nat) : Tracks M (repeatUpTo p fuel) (repeatUpTo p' fuel) := by
  induction fuel with
  | zero => exact .pure mirrored_nil
  | succ fuel ih =>
    intro i hi
    have hfirst := hp i hi
    unfold TracksAt at hfirst ⊢
    unfold Recognizer.repeatUpTo
    generalize p M.before i = o at hfirst ⊢
    generalize p' M.after i = o' at hfirst ⊢
    cases hfirst with
    | @found a a' j h value =>
      have hrest := ih j (Nat.le_trans hi h)
      unfold TracksAt at hrest
      dsimp only
      generalize Recognizer.repeatUpTo p fuel M.before j = o at hrest ⊢
      generalize Recognizer.repeatUpTo p' fuel M.after j = o' at hrest ⊢
      cases hrest with
      | found values => exact .found (mirrored_cons value values)
      | absent => exact .absent
      | tooDeep => exact .tooDeep
    | absent => exact .found mirrored_nil
    | tooDeep => exact .tooDeep

/-- Recognizers whose fuel is the number of tokens that are left. -/
theorem fueled {p p' : Nat → Recognizer α} (h : ∀ fuel, Tracks M (p fuel) (p' fuel)) :
    Tracks M (fun ts i => p (ts.size - i) ts i) fun ts i => p' (ts.size - i) ts i := by
  intro i hi
  have hleft := h (M.before.size - i) i hi
  unfold TracksAt at hleft
  change M.Answers (p (M.before.size - i) M.before i) (p' (M.after.size - i) M.after i)
  rwa [M.size_sub hi]

theorem many (hp : Tracks M p p') : Tracks M (many p) (many p') :=
  fueled hp.repeatUpTo

theorem some1 (hp : Tracks M p p') : Tracks M (some1 p) (some1 p') :=
  hp.bind fun _ _ ha => hp.many.bind fun _ _ hl => .pure (mirrored_cons ha hl)

/-- What stands behind a comma. -/
theorem afterOp (o : String) (hp : Tracks M p p') : Tracks M (Recognizer.op o *> p) (Recognizer.op o *> p') :=
  (op o).bind fun _ _ _ => hp

theorem commaSeparated (hp : Tracks M p p') : Tracks M (commaSeparated p) (commaSeparated p') :=
  hp.bind fun _ _ ha => (hp.afterOp ",").many.bind fun _ _ hl => (op ",").maybe.bind fun _ _ ht =>
    .pure ⟨mirrored_cons ha hl, ht⟩

end Tracks

end HouseStyle.Python
