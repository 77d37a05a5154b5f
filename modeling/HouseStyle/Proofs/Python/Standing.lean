import HouseStyle.Proofs.Python.Windows
import HouseStyle.Proofs.Tree.Relocation
import HouseStyle.Python.Expression

/-!
# Recognizers build what stands in the text

All that a recognizer builds stands in the window of the tokens that it has read: offsets lie between the
tokens around the window, and a node that says how it is spelled says what is written at its place. A class
begins with a token of the window, which puts the statements of a block into an order.

* `Standing`: what stands in a window, for each type that recognizers build.
* `Builds`: the invariant of a recognizer; `Finds`: what holds of all that it finds, whatever it reads.
* `Builds.bind`, `Builds.many`, `Builds.orElse` and others: the ways to combine recognizers keep it.
* `Builds.inOrder`: a block that is read statement by statement is in order.
-/

namespace HouseStyle.Python

open Recognizer

variable {W : Window} {α β : Type}

/-! ### What stands in a window -/

/-- Things made of offsets, tokens and nodes of a text. -/
class Standing (α : Type) where
  stands : Window → α → Prop

export Standing (stands)

/-- The spelling that a node of a form tells. -/
@[grind]
def Form.spelling? : Form → Option String
  | .name value | .simpleString value _ _ => some value
  | .attribute _ | .importNames _ | .importFrom _ _ _ | .importAlias _ _ | .classDef _ _ | .functionDef _ _
  | .param _ | .call _ _ | .arg _ | .plain _ => none

/-- The names that a node of a form tells, of those that messages quote. -/
@[grind]
def Form.names : Form → List String
  | .name value => [value]
  | .attribute dotted => dotted.toList
  | .importNames names => names
  | .importFrom moduleName _ _ => [moduleName]
  | .classDef className _ => [className]
  | .call func _ => func.toList
  | .importAlias _ _ | .functionDef _ _ | .param _ | .arg _ | .simpleString _ _ _ | .plain _ => []

/-- A literal is told together with the letters before its quotes, and with its opening quote. -/
structure IsLiteral (value marker quote : String) : Prop where
  quoted : IsQuoted value.toList
  marker_eq : marker = String.ofList (stringMarker value.toList)
  quote_eq : quote = String.ofList (openingQuote (value.toList.drop marker.length))

/-- A node that defines a class. -/
def IsClass (n : Node) : Prop :=
  ∃ name bases, n.label = .python (.classDef name bases)

/-- A statement comes before another one. Where a class is one of the two, its keyword tells: the decorators of
a class are not part of its place. -/
structure Precedes (a b : Node) : Prop where
  start_le : IsClass a → a.span.start ≤ b.span.start
  stop_le : IsClass b → a.span.stop ≤ b.span.start

/-- Statements one after the other. -/
def InOrder (statements : List Node) : Prop :=
  statements.Pairwise Precedes

/-- A node covers a part of a text, its spelling is that part, and if it is a block its statements are in
order. -/
structure Spelled (src : Array Char) (n : Node) : Prop where
  inside : n.span.stop ≤ src.size
  text : ∀ form, n.label = .python form → ∀ value ∈ form.spelling?, Cursor.text src n.span.start n.span.stop = value
  literal : ∀ value marker quote, n.label = .python (.simpleString value marker quote) → IsLiteral value marker quote
  inOrder : n.label = .python (.plain .indentedBlock) → InOrder n.children

/-- The names that a node tells stand on one line each. -/
def Named (n : Node) : Prop :=
  ∀ form, n.label = .python form → ∀ name ∈ form.names, OneLine name

/-- A node is spelled inside of a window, its names stand on one line, and a class begins with a token of
it. -/
structure Within (W : Window) (n : Node) : Prop where
  spelled : Spelled W.chars n
  named : Named n
  start : W.Covers n.span.start
  stop : W.Covers n.span.stop
  keyword : IsClass n → ∃ k t, W.Reads k t ∧ n.span.start = t.start

/-- An offset of the window, both ends included. -/
instance : Standing Nat := ⟨Window.Covers⟩
instance : Standing Token := ⟨fun W t => ∃ k, W.Reads k t⟩
instance : Standing Node := ⟨fun W n => ∀ m ∈ Node.walk n, Within W m⟩
instance : Standing Piece := ⟨fun W p => stands W p.node ∧ stands W p.first ∧ stands W p.last⟩
instance : Standing Argument := ⟨fun W a => stands W a.node⟩
instance : Standing Bool := ⟨fun _ _ => True⟩
/-- A name. -/
instance : Standing String := ⟨fun _ s => OneLine s⟩
instance : Standing ParameterState := ⟨fun _ _ => True⟩
instance : Standing ArgumentPhase := ⟨fun _ _ => True⟩
instance [Standing α] : Standing (List α) := ⟨fun W l => ∀ a ∈ l, stands W a⟩
instance [Standing α] : Standing (Option α) := ⟨fun W o => ∀ a ∈ o, stands W a⟩
instance [Standing α] [Standing β] : Standing (α × β) := ⟨fun W p => stands W p.1 ∧ stands W p.2⟩
/-- What is built later, from things that stand in the window. -/
instance [Standing α] [Standing β] : Standing (α → β) := ⟨fun W f => ∀ a, stands W a → stands W (f a)⟩

@[grind =] theorem stands_piece {p : Piece} :
    stands W p ↔ stands W p.node ∧ stands W p.first ∧ stands W p.last := Iff.rfl
theorem node_of_stands {p : Piece} (h : stands W p) : stands W p.node := h.1
theorem first_of_stands {p : Piece} (h : stands W p) : stands W p.first := h.2.1
theorem last_of_stands {p : Piece} (h : stands W p) : stands W p.last := h.2.2
@[grind =] theorem stands_argument {a : Argument} : stands W a ↔ stands W a.node := Iff.rfl
@[grind .] theorem stands_bool (b : Bool) : stands W b := trivial
@[grind .] theorem stands_state (s : ParameterState) : stands W s := trivial
@[grind .] theorem stands_phase (p : ArgumentPhase) : stands W p := trivial

@[grind →] theorem start_of_stands {t : Token} (h : stands W t) : stands W t.start :=
  h.elim fun _ => Window.covers_start
@[grind →] theorem stop_of_stands {t : Token} (h : stands W t) : stands W t.stop :=
  h.elim fun _ => Window.covers_stop

theorem text_of_stands {t : Token} (h : stands W t) (hkind : t.kind = .name) : stands W t.text :=
  h.elim fun _ hread => (Window.stands_of_token hread.token).named hkind

theorem token_of_stands {t : Token} (h : stands W t) : t.Stands W.chars :=
  h.elim fun _ hread => Window.stands_of_token hread.token

/-- The later one of two offsets. -/
theorem stands_max {i j : Nat} (hi : stands W i) (hj : stands W j) : stands W (max i j) := by
  rcases Nat.le_total i j with h | h
  · rwa [Nat.max_eq_right h]
  · rwa [Nat.max_eq_left h]

section

variable [Standing α] [Standing β]

@[grind .] theorem stands_nil : stands W ([] : List α) := nofun
@[grind =] theorem stands_cons {a : α} {l : List α} : stands W (a :: l) ↔ stands W a ∧ stands W l :=
  List.forall_mem_cons
@[grind =] theorem stands_append {l l' : List α} : stands W (l ++ l') ↔ stands W l ∧ stands W l' :=
  List.forall_mem_append
@[grind .] theorem stands_none : stands W (none : Option α) := nofun
@[grind =] theorem stands_some {a : α} : stands W (some a) ↔ stands W a :=
  ⟨fun h => h a rfl, fun h => by rintro _ ⟨⟩; exact h⟩
@[grind =] theorem stands_pair {a : α} {b : β} : stands W (a, b) ↔ stands W a ∧ stands W b := Iff.rfl
theorem fst_of_stands {p : α × β} (h : stands W p) : stands W p.1 := h.1
theorem snd_of_stands {p : α × β} (h : stands W p) : stands W p.2 := h.2

theorem stands_map {f : α → β} {l : List α} (hf : ∀ a, stands W a → stands W (f a)) (h : stands W l) :
    stands W (l.map f) :=
  List.forall_mem_map.2 fun a ha => hf a (h a ha)

theorem stands_toList {o : Option α} (h : stands W o) : stands W o.toList :=
  fun a ha => h a (Option.mem_toList.1 ha)

theorem stands_optionMap {f : α → β} {o : Option α} (hf : ∀ a, stands W a → stands W (f a))
    (h : stands W o) : stands W (o.map f) := by
  cases o with
  | none => exact stands_none
  | some a => exact stands_some.2 (hf a (stands_some.1 h))

theorem stands_getD {o : Option α} {a : α} (h : stands W o) (ha : stands W a) : stands W (o.getD a) := by
  cases o with
  | none => exact ha
  | some b => exact stands_some.1 h

theorem stands_getLast? {l : List α} (h : stands W l) : stands W l.getLast? :=
  fun a ha => h a (List.mem_of_getLast? ha)

theorem stands_head? {l : List α} (h : stands W l) : stands W l.head? :=
  fun a ha => h a (List.mem_of_mem_head? ha)

theorem stands_getLastD {l : List α} {a : α} (h : stands W l) (ha : stands W a) : stands W (l.getLastD a) := by
  rw [List.getLastD_eq_getLast?]
  exact stands_getD (stands_getLast? h) ha

end

/-! ### Nodes -/

theorem stands_nodes {ns : List Node} : stands W ns ↔ ∀ m ∈ Node.walkList ns, Within W m := by
  induction ns with
  | nil => exact ⟨fun _ => nofun, fun _ => stands_nil⟩
  | cons n rest ih =>
    rw [stands_cons, ih, Node.walkList_cons, List.forall_mem_append]
    rfl

theorem stands_node {n : Node} : stands W n ↔ Within W n ∧ stands W n.children := by
  rw [stands_nodes]
  change (∀ m ∈ Node.walk n, Within W m) ↔ _
  rw [Node.walk_eq, List.forall_mem_cons]

theorem within_of_stands {n : Node} (h : stands W n) : Within W n :=
  (stands_node.1 h).1

@[grind →] theorem children_of_stands {n : Node} (h : stands W n) : stands W n.children :=
  (stands_node.1 h).2

@[grind →] theorem span_stop_of_stands {n : Node} (h : stands W n) : stands W n.span.stop :=
  (within_of_stands h).stop

@[grind →] theorem span_start_of_stands {n : Node} (h : stands W n) : stands W n.span.start :=
  (within_of_stands h).start

/-- A form of which nothing is promised but its place: it does not tell its spelling or a name, and it is
neither a class nor a block. -/
@[grind]
def Form.isOrdinary : Form → Bool
  | .name _ | .simpleString _ _ _ | .classDef _ _ => false
  | .attribute _ | .importNames _ | .importFrom _ _ _ | .call _ _ => false
  | .plain shape => shape != .indentedBlock
  | .importAlias _ _ | .functionDef _ _ | .param _ | .arg _ => true

/-- A form that tells a name which it does not spell. -/
def Form.isNaming : Form → Bool
  | .attribute _ | .importNames _ | .importFrom _ _ _ | .call _ _ => true
  | .name _ | .simpleString _ _ _ | .classDef _ _ | .plain _ | .importAlias _ _ | .functionDef _ _ | .param _
  | .arg _ => false

section

variable {start stop : Nat} {children : List Node}

/-- A node that does not tell its spelling. A class has to begin with a token, and a block has to be in order. -/
theorem stands_silent {form : Form} (hform : form.spelling? = none) (hnames : stands W form.names)
    (h : stands W start ∧ stands W stop ∧ stands W children)
    (hkeyword : IsClass (nodeOf form start stop children) → ∃ k t, W.Reads k t ∧ start = t.start)
    (horder : form = .plain .indentedBlock → InOrder children) : stands W (nodeOf form start stop children) := by
  obtain ⟨hstart, hstop, hchildren⟩ := h
  have hmax := stands_max hstart hstop
  refine stands_node.2 ⟨⟨⟨hmax.le_size, ?_, ?_, ?_⟩, ?_, hstart, hmax, hkeyword⟩, hchildren⟩
  · rintro _ ⟨⟩ value hvalue
    rw [hform] at hvalue
    cases hvalue
  · rintro value marker quote ⟨⟩
    cases hform
  · rintro ⟨⟩
    exact horder rfl
  · rintro _ ⟨⟩
    exact hnames

/-- A node of an ordinary form. -/
@[grind .] theorem stands_nodeOf {form : Form} (hform : form.isOrdinary = true)
    (h : stands W start ∧ stands W stop ∧ stands W children) : stands W (nodeOf form start stop children) := by
  refine stands_silent ?_ ?_ h ?_ ?_
  · cases form <;> first | rfl | cases hform
  · cases form <;> first | exact (stands_nil : stands W ([] : List String)) | cases hform
  · rintro ⟨name, bases, ⟨⟩⟩
    cases hform
  · rintro rfl
    cases hform

/-- A node that tells a name. -/
theorem stands_naming {form : Form} (hform : form.isNaming = true) (hnames : stands W form.names)
    (h : stands W start ∧ stands W stop ∧ stands W children) : stands W (nodeOf form start stop children) := by
  refine stands_silent ?_ hnames h ?_ ?_
  · cases form <;> first | rfl | cases hform
  · rintro ⟨name, bases, ⟨⟩⟩
    cases hform
  · rintro rfl
    cases hform

@[grind .] theorem stands_plainNode {shape : Shape} (hshape : shape ≠ .indentedBlock)
    (h : stands W start ∧ stands W stop ∧ stands W children) : stands W (plainNode shape start stop children) :=
  stands_nodeOf (bne_iff_ne.2 hshape) h

@[grind =] theorem stands_ofNode {n : Node} : stands W (Piece.ofNode n) ↔ stands W n :=
  ⟨fun h => h.1, fun h => ⟨h, span_start_of_stands h, span_stop_of_stands h⟩⟩

@[grind .] theorem stands_make {form : Form} (hform : form.isOrdinary = true)
    (h : stands W start ∧ stands W stop ∧ stands W children) : stands W (Piece.make form start stop children) :=
  stands_ofNode.2 (stands_nodeOf hform h)

@[grind .] theorem stands_plain {shape : Shape} (hshape : shape ≠ .indentedBlock)
    (h : stands W start ∧ stands W stop ∧ stands W children) : stands W (Piece.plain shape start stop children) :=
  stands_make (bne_iff_ne.2 hshape) h

@[grind .] theorem stands_enclose {p : Piece} {first last : Nat} (h : stands W p) (hfirst : stands W first)
    (hlast : stands W last) : stands W (p.enclose first last) :=
  ⟨h.1, hfirst, hlast⟩

end

/-- A node that tells the spelling of one token. -/
theorem stands_spelled {form : Form} {t : Token} (hform : form.spelling? = some t.text)
    (hliteral : ∀ value marker quote, form = .simpleString value marker quote → IsLiteral value marker quote)
    (hnames : stands W form.names) (h : stands W t) : stands W (nodeOf form t.start t.stop []) := by
  have ht := token_of_stands h
  have hstop : max t.start t.stop = t.stop := Nat.max_eq_right ht.ordered
  have hmax := stands_max (start_of_stands h) (stop_of_stands h)
  refine stands_node.2 ⟨⟨⟨hmax.le_size, ?_, ?_, fun _ => .nil⟩, ?_, start_of_stands h, hmax,
    fun _ => h.imp fun _ hread => ⟨t, hread, rfl⟩⟩, stands_nil⟩
  · rintro _ ⟨⟩ value hvalue
    rw [hform] at hvalue
    cases hvalue
    exact (congrArg (Cursor.text W.chars t.start) hstop).trans ht.text.symm
  · rintro value marker quote heq
    cases heq
    exact hliteral value marker quote rfl
  · rintro _ ⟨⟩
    exact hnames

@[grind .] theorem stands_nameNode {t : Token} (h : stands W t) (hkind : t.kind = .name) : stands W (nameNode t) :=
  stands_spelled rfl (by rintro _ _ _ ⟨⟩) (stands_cons.2 ⟨text_of_stands h hkind, stands_nil⟩) h

/-- The dotted name of an expression is made of names that stand in it. -/
theorem stands_dottedName? {n : Node} (h : stands W n) : stands W (dottedName? n) := by
  fun_induction dottedName? n with
  | case1 value span children => exact stands_some.2 ((within_of_stands h).named _ rfl value List.mem_cons_self)
  | case2 dotted span children => exact fun name hname => (within_of_stands h).named _ rfl name (Option.mem_toList.2 hname)
  | case3 func keywords span children =>
    exact fun name hname => (within_of_stands h).named _ rfl name (Option.mem_toList.2 hname)
  | case4 span value rest ih => exact ih (stands_cons.1 (children_of_stands h)).1
  | case5 => exact stands_none

theorem stands_attributeName {value : Node} {name : String} (hvalue : stands W value) (hname : stands W name) :
    stands W (attributeName value name) :=
  oneLine_append.2 ⟨oneLine_append.2 ⟨stands_getD (stands_dottedName? hvalue) (show OneLine "None" by decide),
    by decide⟩, hname⟩

/-- An attribute tells its dotted name. -/
theorem stands_member {p : Piece} {name : Token} (hp : stands W p) (hname : stands W name) (hkind : name.kind = .name) :
    stands W (Piece.make (.attribute (some (attributeName p.node name.text))) p.first name.stop
      [p.node, nameNode name]) := by
  refine stands_ofNode.2 (stands_naming rfl ?_ ⟨first_of_stands hp, stop_of_stands hname, ?_⟩)
  · exact stands_cons.2 ⟨stands_attributeName (node_of_stands hp) (text_of_stands hname hkind), stands_nil⟩
  · exact stands_cons.2 ⟨node_of_stands hp, stands_cons.2 ⟨stands_nameNode hname hkind, stands_nil⟩⟩

/-- Of two windows side by side, what stands in the first one comes before what stands in the second one. -/
theorem precedes_of_stands {i j k : Nat} {hj : j ≤ W.stop} {hk : k ≤ W.stop} {a b : Node}
    (ha : stands (W.part i j hj) a) (hb : stands (W.part j k hk) b) : Precedes a b where
  start_le hclass := by
    obtain ⟨l, t, hread, hstart⟩ := (within_of_stands ha).keyword hclass
    rw [hstart]
    exact Nat.le_trans (Window.start_le_stopBefore hread) (span_start_of_stands hb).first_le
  stop_le hclass := by
    obtain ⟨l, t, hread, hstart⟩ := (within_of_stands hb).keyword hclass
    rw [hstart]
    exact Nat.le_trans (span_stop_of_stands ha).le_last (Window.startAt_le hread)

/-! ### Recognizers -/

/-- Both of two recognizers, one after the other, have found something. -/
theorem found_of_bind {p : Recognizer α} {f : α → Recognizer β} {tokens : Array Token} {i k : Nat} {b : β} {h : i ≤ k}
    (hfound : (p >>= f) tokens i = .found b k h) :
    ∃ a j h₁ h₂, p tokens i = .found a j h₁ ∧ f a tokens j = .found b k h₂ := by
  change Recognizer.bind p f tokens i = _ at hfound
  unfold Recognizer.bind at hfound
  split at hfound
  · rename_i a j h₁ hfirst
    cases hsecond : f a tokens j with
    | found b' k' h₂ =>
      rw [hsecond] at hfound
      cases hfound
      exact ⟨a, j, h₁, h₂, hfirst, hsecond⟩
    | absent =>
      rw [hsecond] at hfound
      cases hfound
    | tooDeep =>
      rw [hsecond] at hfound
      cases hfound
  · cases hfound
  · cases hfound

/-- A token that passes a test has been read. -/
theorem reads_of_satisfy {test : Token → Bool} {i j : Nat} {t : Token} {h : i ≤ j} (hi : W.start ≤ i) (hj : j ≤ W.stop)
    (hfound : Recognizer.satisfy test W.tokens i = .found t j h) : W.Reads i t ∧ test t = true := by
  unfold Recognizer.satisfy at hfound
  split at hfound
  · split at hfound <;> cases hfound
    exact ⟨⟨hi, hj, ‹_›⟩, ‹_›⟩
  · cases hfound

/-- A token that is looked at is the next one to be read. -/
theorem at_of_peek {tokens : Array Token} {i j : Nat} {t : Token} {h : i ≤ j}
    (hfound : Recognizer.peek tokens i = .found t j h) : j = i ∧ tokens[i]? = some t := by
  unfold Recognizer.peek at hfound
  split at hfound <;> cases hfound
  exact ⟨rfl, ‹_›⟩

theorem next_le_of_satisfy {test : Token → Bool} {tokens : Array Token} {i j : Nat} {t : Token} {h : i ≤ j}
    (hfound : Recognizer.satisfy test tokens i = .found t j h) : j ≤ tokens.size := by
  unfold Recognizer.satisfy at hfound
  split at hfound
  · rename_i t' ht
    split at hfound <;> cases hfound
    exact (Array.getElem?_eq_some_iff.1 ht).1
  · cases hfound

/-- All that a recognizer finds has a property, whatever it reads. -/
def Finds (P : α → Prop) (p : Recognizer α) : Prop :=
  ∀ tokens i a j h, p tokens i = .found a j h → P a

namespace Finds

variable {P : α → Prop} {Q : β → Prop} {p : Recognizer α}

protected theorem pure {a : α} (h : P a) : Finds P (pure a : Recognizer α) := by
  rintro tokens i _ j _ ⟨⟩
  exact h

protected theorem bind {f : α → Recognizer β} (hp : Finds P p) (hf : ∀ a, P a → Finds Q (f a)) : Finds Q (p >>= f) := by
  intro tokens i b k _ h
  obtain ⟨a, j, h₁, h₂, hfirst, hsecond⟩ := found_of_bind h
  exact hf a (hp tokens i a j h₁ hfirst) tokens j b k h₂ hsecond

theorem skip {f : β → Recognizer α} {q : Recognizer β} (hf : ∀ b, Finds P (f b)) : Finds P (q >>= f) := by
  intro tokens i a k _ h
  obtain ⟨b, j, h₁, h₂, -, hsecond⟩ := found_of_bind h
  exact hf b tokens j a k h₂ hsecond

protected theorem ite {c : Prop} [Decidable c] {q : Recognizer α} (hp : Finds P p) (hq : Finds P q) :
    Finds P (if c then p else q) := by
  split
  · exact hp
  · exact hq

theorem satisfy (test : Token → Bool) : Finds (fun t => test t = true) (Recognizer.satisfy test) := by
  intro tokens i t j _ h
  unfold Recognizer.satisfy at h
  split at h
  · split at h <;> cases h
    assumption
  · cases h

theorem kind (k : TokenKind) : Finds (fun t => t.kind = k) (Recognizer.kind k) :=
  fun tokens i t j hle h => beq_iff_eq.1 (satisfy _ tokens i t j hle h)

theorem identifier : Finds (fun t => t.kind = .name) Recognizer.identifier :=
  fun tokens i t j hle h => beq_iff_eq.1 (Bool.and_eq_true_iff.1 (satisfy _ tokens i t j hle h)).1

theorem maybe (hp : Finds P p) : Finds (fun found => ∀ a ∈ found, P a) (Recognizer.maybe p) := by
  intro tokens i _ j _ h
  unfold Recognizer.maybe at h
  split at h <;> cases h
  · rintro _ ⟨⟩
    exact hp tokens i _ _ _ ‹_›
  · exact fun a ha => absurd ha (Option.not_mem_none a)

theorem repeatUpTo (hp : Finds P p) (fuel : Nat) :
    Finds (fun found => ∀ a ∈ found, P a) (Recognizer.repeatUpTo p fuel) := by
  induction fuel with
  | zero => exact .pure (List.forall_mem_nil _)
  | succ fuel ih =>
    intro tokens i _ k _ h
    unfold Recognizer.repeatUpTo at h
    split at h
    · rename_i a j hle hfound
      split at h <;> cases h
      exact List.forall_mem_cons.2 ⟨hp tokens i a j hle hfound, ih tokens j _ _ _ ‹_›⟩
    · cases h
      exact List.forall_mem_nil _
    · cases h

theorem many (hp : Finds P p) : Finds (fun found => ∀ a ∈ found, P a) (Recognizer.many p) :=
  fun tokens i => hp.repeatUpTo _ tokens i

end Finds

/-- A recognizer that starts to read at a token builds what stands in a window. -/
def BuildsAt [Standing α] (W : Window) (i : Nat) (p : Recognizer α) : Prop :=
  ∀ a j h, p W.tokens i = .found a j h → j ≤ W.stop → stands W a

/-- A recognizer builds what stands in a window, as long as it reads tokens of the window. -/
def Builds [Standing α] (W : Window) (p : Recognizer α) : Prop :=
  ∀ i, W.start ≤ i → BuildsAt W i p

namespace Builds

variable [Standing α] [Standing β] {p q : Recognizer α}

protected theorem pure {a : α} (h : stands W a) : Builds W (pure a : Recognizer α) := by
  rintro i - _ j _ ⟨⟩ -
  exact h

theorem fail : Builds W (fail : Recognizer α) := by
  rintro i - _ j _ ⟨⟩

theorem giveUp : Builds W (giveUp : Recognizer α) := by
  rintro i - _ j _ ⟨⟩

/-- What follows may ask how far the first recognizer has read. -/
theorem bindFound {γ : Type} {p : Recognizer γ} {f : γ → Recognizer β}
    (hf : ∀ i a j h, W.start ≤ i → p W.tokens i = .found a j h → j ≤ W.stop → Builds W (f a)) :
    Builds W (p >>= f) := by
  intro i hi b k _ h hk
  obtain ⟨a, j, h₁, h₂, hfirst, hsecond⟩ := found_of_bind h
  exact hf i a j h₁ hi hfirst (Nat.le_trans h₂ hk) j (Nat.le_trans hi h₁) b k h₂ hsecond hk

protected theorem bind {f : α → Recognizer β} (hp : Builds W p) (hf : ∀ a, stands W a → Builds W (f a)) :
    Builds W (p >>= f) :=
  bindFound fun i a j h hi hfound hj => hf a (hp i hi a j h hfound hj)

/-- What follows may ask for a property of all that the first recognizer finds. -/
theorem bindFinds {P : α → Prop} {f : α → Recognizer β} (hp : Builds W p) (hfinds : Finds P p)
    (hf : ∀ a, stands W a → P a → Builds W (f a)) : Builds W (p >>= f) :=
  bindFound fun i a j h hi hfound hj => hf a (hp i hi a j h hfound hj) (hfinds W.tokens i a j h hfound)

/-- What comes first is not asked what it builds. -/
theorem skip {γ : Type} {p : Recognizer γ} {f : γ → Recognizer β} (hf : ∀ a, Builds W (f a)) : Builds W (p >>= f) :=
  bindFound fun _ a _ _ _ _ _ => hf a

protected theorem map {f : α → β} (hp : Builds W p) (hf : ∀ a, stands W a → stands W (f a)) :
    Builds W (f <$> p) :=
  hp.bind fun a ha => .pure (hf a ha)

protected theorem ite {c : Prop} [Decidable c] (hp : Builds W p) (hq : Builds W q) :
    Builds W (if c then p else q) := by
  split
  · exact hp
  · exact hq

theorem orElse (hp : Builds W p) (hq : Builds W q) : Builds W (p <|> q) := by
  intro i hi a j hle h hj
  change Recognizer.orElse p (fun _ => q) W.tokens i = _ at h
  unfold Recognizer.orElse at h
  split at h
  · exact hq i hi a j hle h hj
  · exact hp i hi a j hle h hj

/-- Of a token that is not read, only the place where it begins is sure to be covered. -/
theorem peek {f : Token → Recognizer β} (hf : ∀ t, stands W t.start → Builds W (f t)) : Builds W (peek >>= f) := by
  refine bindFound fun i t j _ hi h hj => hf t ?_
  obtain ⟨rfl, ht⟩ := at_of_peek h
  exact Window.covers_next hi hj ht

/-- What follows may ask which token is the next one to be read. -/
theorem peekAt {f : Token → Recognizer β}
    (hf : ∀ i t, W.start ≤ i → W.tokens[i]? = some t → BuildsAt W i (f t)) : Builds W (Recognizer.peek >>= f) := by
  intro i hi b k _ h hk
  obtain ⟨t, j, h₁, h₂, hpeek, hrest⟩ := found_of_bind h
  obtain ⟨rfl, ht⟩ := at_of_peek hpeek
  exact hf _ t hi ht b k h₂ hrest hk

/-- What follows a token that passes a test may ask for the test. -/
theorem satisfyBind {test : Token → Bool} {f : Token → Recognizer β}
    (hf : ∀ t, stands W t → test t = true → Builds W (f t)) : Builds W (Recognizer.satisfy test >>= f) :=
  bindFound fun i t _ _ hi h hj => hf t ⟨i, (reads_of_satisfy hi hj h).1⟩ (reads_of_satisfy hi hj h).2

theorem satisfy (test : Token → Bool) : Builds W (satisfy test) :=
  fun i hi _ _ _ h hj => ⟨i, (reads_of_satisfy hi hj h).1⟩

theorem word (w : String) : Builds W (word w) := satisfy _
theorem op (o : String) : Builds W (op o) := satisfy _
theorem kind (k : TokenKind) : Builds W (kind k) := satisfy _
theorem identifier : Builds W identifier := satisfy _

/-- What follows a name that is not reserved may ask for its kind. -/
theorem named {f : Token → Recognizer β} (hf : ∀ t, stands W t → t.kind = .name → Builds W (f t)) :
    Builds W (Recognizer.identifier >>= f) :=
  identifier.bindFinds .identifier hf

theorem lastStop : Builds W lastStop := by
  intro i hi a j hle h hj
  rw [lastStop_eq] at h
  cases h
  exact Window.covers_stopBefore hi hj

theorem maybe (hp : Builds W p) : Builds W (maybe p) := by
  intro i hi a j hle h hj
  unfold Recognizer.maybe at h
  split at h <;> cases h
  · exact stands_some.2 (hp i hi _ _ _ ‹_› hj)
  · exact stands_none

theorem repeatUpTo (hp : Builds W p) (fuel : Nat) : Builds W (repeatUpTo p fuel) := by
  induction fuel with
  | zero => exact .pure stands_nil
  | succ fuel ih =>
    intro i hi l k _ h hk
    unfold Recognizer.repeatUpTo at h
    split at h
    · rename_i a j hle hfound
      split at h <;> cases h
      rename_i hle' hrest
      exact stands_cons.2 ⟨hp i hi a j hle hfound (Nat.le_trans hle' hk),
        ih j (Nat.le_trans hi hle) _ _ hle' hrest hk⟩
    · cases h
      exact stands_nil
    · cases h

/-- A recognizer whose fuel is the number of tokens that are left. -/
theorem fueled {p : Nat → Recognizer α} (h : ∀ fuel, Builds W (p fuel)) :
    Builds W fun ts i => p (ts.size - i) ts i :=
  fun i => h (W.tokens.size - i) i

theorem many (hp : Builds W p) : Builds W (many p) :=
  fueled hp.repeatUpTo

theorem some1 (hp : Builds W p) : Builds W (some1 p) :=
  hp.bind fun _ ha => hp.many.bind fun _ hl => .pure (stands_cons.2 ⟨ha, hl⟩)

theorem commaSeparated (hp : Builds W p) : Builds W (commaSeparated p) :=
  hp.bind fun _ ha => (many (skip fun _ => hp)).bind fun _ hl => (op ",").maybe.bind fun _ ht =>
    .pure ⟨stands_cons.2 ⟨ha, hl⟩, ht⟩

/-! ### Statements one after the other -/

/-- What is repeated is found in order: every repetition goes on where the one before it has stopped. -/
theorem inOrder_of_repeatUpTo {p : Recognizer Node} (hp : ∀ i j h, Builds (W.part i j h) p) {fuel i k : Nat}
    {l : List Node} {h : i ≤ k} (hk : k ≤ W.stop) (hfound : Recognizer.repeatUpTo p fuel W.tokens i = .found l k h) :
    InOrder l := by
  induction fuel generalizing i l with
  | zero =>
    cases hfound
    exact .nil
  | succ fuel ih =>
    unfold Recognizer.repeatUpTo at hfound
    split at hfound
    · rename_i a j hle hfirst
      split at hfound <;> cases hfound
      rename_i rest hle' hrest
      have hj := Nat.le_trans hle' hk
      have ha : stands (W.part i j hj) a := hp i j hj i (Nat.le_refl i) a j hle hfirst (Nat.le_refl j)
      have hall : stands (W.part j k hk) rest :=
        repeatUpTo (hp j k hk) fuel j (Nat.le_refl j) rest k hle' hrest (Nat.le_refl k)
      exact List.pairwise_cons.2 ⟨fun b hb => precedes_of_stands ha (hall b hb), ih hrest⟩
    · cases hfound
      exact .nil
    · cases hfound

/-- What follows one or more statements may ask for their order. -/
theorem inOrder {p : Recognizer Node} {f : List Node → Recognizer β} (hp : ∀ V, Builds V p)
    (hf : ∀ first rest, stands W (first :: rest) → InOrder (first :: rest) → Builds W (f (first :: rest))) :
    Builds W (Recognizer.some1 p >>= f) := by
  refine bindFound fun i l k hle hi h hk => ?_
  have hstands := some1 (hp W) i hi l k hle h hk
  obtain ⟨first, j, h₁, h₂, hfirst, hmore⟩ := found_of_bind h
  obtain ⟨rest, k', h₃, h₄, hmany, hpure⟩ := found_of_bind hmore
  cases hpure
  refine hf first rest hstands (@inOrder_of_repeatUpTo W p (fun _ _ _ => hp _) (W.tokens.size - j + 1) i k _
    (Nat.le_trans h₁ h₃) hk ?_)
  unfold Recognizer.repeatUpTo
  rw [hfirst]
  unfold Recognizer.many at hmany
  simp only [hmany]

end Builds

end HouseStyle.Python
