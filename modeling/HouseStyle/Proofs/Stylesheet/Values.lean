import HouseStyle.Proofs.Stylesheet.Nodes
import HouseStyle.Proofs.Tree.Sketch

/-!
# The values of a stylesheet

* `values_ordered`: the values of a tree stand one after the other.
* `headNode_value`, `Reads.value_inside`: where a value stands.
* `textAround`: the text of a stylesheet without its values.
-/

namespace HouseStyle.Stylesheet

open Cursor (skipWhile le_skipWhile)
open Node (walk walkList)

variable {d : Dialect} {src : Array Char}

/-! ### Values one after the other -/

mutual

/-- All nodes of a tree whose nodes hold their children stand inside of its root. -/
theorem inside_of_nested (n : Node) (h : ∀ y ∈ walk n, Nested y) :
    ∀ x ∈ walk n, n.span.start ≤ x.span.start ∧ x.span.stop ≤ n.span.stop := by
  cases n with
  | mk label span children =>
    rw [walk, List.forall_mem_cons] at h ⊢
    exact ⟨⟨Nat.le_refl _, Nat.le_refl _⟩, insideList_of_nested children h.2 h.1.inside⟩

/-- All nodes of trees that stand between two places stand there. -/
theorem insideList_of_nested (ns : List Node) (h : ∀ y ∈ walkList ns, Nested y) {start stop : Nat}
    (hns : ∀ c ∈ ns, start ≤ c.span.start ∧ c.span.stop ≤ stop) :
    ∀ x ∈ walkList ns, start ≤ x.span.start ∧ x.span.stop ≤ stop := by
  cases ns with
  | nil => exact List.forall_mem_nil _
  | cons n rest =>
    rw [walkList, List.forall_mem_append] at h ⊢
    rw [List.forall_mem_cons] at hns
    refine ⟨fun x hx => ?_, insideList_of_nested rest h.2 hns.2⟩
    obtain ⟨hstart, hstop⟩ := inside_of_nested n h.1 x hx
    exact ⟨Nat.le_trans hns.1.1 hstart, Nat.le_trans hstop hns.1.2⟩

end

/-- The nodes of the tree of a stylesheet stand inside of the text. -/
theorem stop_le_size {tree n : Node} (h : parse d src = .ok tree) (hn : n ∈ walk tree) : n.span.stop ≤ src.size := by
  rw [← (span_of_parse h).2]
  exact (inside_of_nested tree (fun y hy => (wellFormed_of_parse h hy).nested) n hn).2

/-- A value has no nodes below it. -/
theorem WellFormed.value_leaf {n : Node} (h : WellFormed src n) (hv : n.label.isValue = true) :
    n.children = [] := by
  have hfits := h.fits
  unfold Fits at hfits
  unfold Label.isValue at hv
  split at hv
  · rename_i hl
    rw [hl] at hfits
    exact hfits.2
  · cases hv

mutual

/-- **The values of a tree stand one after the other.** -/
theorem values_ordered (n : Node) (h : ∀ y ∈ walk n, WellFormed src y) :
    n.values.Pairwise fun a b => a.stop ≤ b.start := by
  cases n with
  | mk label span children =>
    rw [walk, List.forall_mem_cons] at h
    have hbelow := valuesList_ordered children h.2 h.1.nested.ordered
    rw [Node.values, walk, List.filter_cons]
    split
    · have hleaf : children = [] := h.1.value_leaf ‹_›
      rw [hleaf]
      exact List.pairwise_singleton _ _
    · exact hbelow

/-- The values of trees that stand one after the other do so. -/
theorem valuesList_ordered (ns : List Node) (h : ∀ y ∈ walkList ns, WellFormed src y)
    (hns : ns.Pairwise fun a b => a.span.stop ≤ b.span.start) :
    (((walkList ns).filter fun n => n.label.isValue).map Node.span).Pairwise fun a b => a.stop ≤ b.start := by
  cases ns with
  | nil => exact .nil
  | cons n rest =>
    rw [walkList, List.forall_mem_append] at h
    rw [List.pairwise_cons] at hns
    rw [walkList, List.filter_append, List.map_append, List.pairwise_append]
    refine ⟨values_ordered n h.1, valuesList_ordered rest h.2 hns.2, fun a ha b hb => ?_⟩
    obtain ⟨x, hx, rfl⟩ := List.mem_map.1 ha
    obtain ⟨y, hy, rfl⟩ := List.mem_map.1 hb
    -- the one stands in the first tree, the other in a tree that comes later
    obtain ⟨m, hm, hym⟩ : ∃ m ∈ rest, y ∈ walk m := by
      obtain ⟨m, hm, hy⟩ := mem_walkList (List.mem_filter.1 hy).1
      exact ⟨m, hm, by rw [Node.walk_eq, List.mem_cons]; exact hy⟩
    have hnested {m : Node} (hm : m ∈ rest) : ∀ z ∈ walk m, Nested z := fun z hz =>
      (h.2 z (Node.mem_walkList_trans hz _ (Node.mem_walkList_of_mem hm))).nested
    have hxn := (inside_of_nested n (fun z hz => (h.1 z hz).nested) x (List.mem_filter.1 hx).1).2
    have hym' := (inside_of_nested m (hnested hm) y hym).1
    exact Nat.le_trans hxn (Nat.le_trans (hns.1 m hm) hym')

end

/-! ### Where values stand -/

theorem IsSelectorPart.not_value {n : Node} (h : IsSelectorPart n) : n.label.isValue = false := by
  unfold IsSelectorPart at h
  split at h
  · rename_i hl; rw [hl]; rfl
  · rename_i hl; rw [hl]; rfl
  · rename_i hl; rw [hl]; rfl
  · cases h

/-- **A value of a statement** is the one of a declaration, or stands in the block of the statement. -/
theorem headNode_value {start headStop stop : Nat} {block : Option Node} {m x : Node}
    (hblock : ∀ b, block = some b → b.label.isValue = false)
    (h : headNode src start headStop stop block = .ok m) (hx : x ∈ walk m) (hv : x.label.isValue = true) :
    (∃ b, block = some b ∧ x ∈ walkList b.children) ∨
      block = none ∧ src[start]? ≠ some '@' := by
  rcases headNode_nodes h hx with rfl | hx | hx | hx
  · -- a statement is no value
    unfold headNode at h
    split at h
    · obtain ⟨name, prelude, mixin, rfl⟩ := atRule_shape h
      cases hv
    · split at h
      · obtain ⟨list, -, rfl⟩ := rule_shape h
        cases hv
      · obtain ⟨property, value, important, name, propertyStop, valueStart, rfl⟩ := declaration_shape h
        cases hv
  · have hnone (b : Node) (hb : block = some b) : x ≠ b := by
      rintro rfl
      rw [hblock x hb] at hv
      cases hv
    unfold headNode at h
    split at h
    · obtain ⟨name, prelude, mixin, rfl⟩ := atRule_shape h
      exact absurd rfl (hnone x (Option.mem_toList.1 hx))
    · rename_i hat
      split at h
      · obtain ⟨list, hlist, rfl⟩ := rule_shape h
        rcases List.mem_cons.1 hx with rfl | hx
        · rw [(selectorList_shape hlist).1] at hv
          cases hv
        · exact absurd (List.mem_singleton.1 hx) (hnone _ rfl)
      · exact .inr ⟨rfl, hat⟩
  · rw [hx.not_value] at hv
    cases hv
  · exact .inl hx

theorem declaration_of_colon {start bodyStop colon : Nat} (h : findColon? src bodyStop start = .ok (some colon))
    (stop : Nat) : ∃ important,
      declaration src start bodyStop stop = .ok (nodeOf
        (.declaration (lower (Cursor.text src start (trimEnd src start colon)))
          (Cursor.text src (skipWhile isStyleBlank src bodyStop (colon + 1)) bodyStop) important) start stop
        [nodeOf (.property (Cursor.text src start (trimEnd src start colon))) start (trimEnd src start colon) [],
          nodeOf (.value (Cursor.text src (skipWhile isStyleBlank src bodyStop (colon + 1)) bodyStop))
            (skipWhile isStyleBlank src bodyStop (colon + 1)) bodyStop []]) := by
  rw [declaration, h]
  exact ⟨_, rfl⟩

theorem findColon?_of_declaration {start bodyStop stop : Nat} {m : Node}
    (h : declaration src start bodyStop stop = .ok m) :
    ∃ colon, findColon? src bodyStop start = .ok (some colon) := by
  unfold declaration at h
  split at h
  · cases h
  · cases h
  · exact ⟨_, ‹_›⟩

/-- The value of a declaration stands between its colon and its end. -/
theorem declaration_value {start bodyStop stop : Nat} {m x : Node}
    (h : declaration src start bodyStop stop = .ok m) (hx : x ∈ walk m) (hv : x.label.isValue = true) :
    ∃ colon, findColon? src bodyStop start = .ok (some colon) ∧
      x.span.start = skipWhile isStyleBlank src bodyStop (colon + 1) ∧ x.span.stop = bodyStop := by
  obtain ⟨colon, hcolon⟩ := findColon?_of_declaration h
  obtain ⟨important, hm⟩ := declaration_of_colon hcolon stop
  cases hm.symm.trans h
  refine ⟨colon, hcolon, ?_⟩
  -- the value is the last of its three nodes
  simp only [nodeOf, walk, walkList, List.append_nil, List.cons_append, List.nil_append, List.mem_cons,
    List.not_mem_nil, or_false] at hx
  rcases hx with rfl | rfl | rfl
  · cases hv
  · cases hv
  · exact ⟨rfl, Nat.max_eq_right (skipWhile_le (findColon?_bounds hcolon).2.1)⟩

/-- **The values of statements stand between the places from and to which these are read.** -/
theorem Reads.value_inside {depth p r : Nat} {ns : List Node} (h : Reads d src depth p ns r) (hp : p ≤ src.size)
    {x : Node} (hx : x ∈ walkList ns) (hv : x.label.isValue = true) : p ≤ x.span.start ∧ x.span.stop ≤ r := by
  -- a statement without a block
  have hdeclaration {q headStop stop : Nat} {m : Node} (hx : x ∈ walk m)
      (node : headNode src q headStop stop none = .ok m) : q ≤ x.span.start ∧ x.span.stop = headStop := by
    rcases headNode_value (by rintro _ ⟨⟩) node hx hv with ⟨b, hb, -⟩ | ⟨-, hat⟩
    · cases hb
    · rw [headNode, if_neg hat] at node
      obtain ⟨colon, hcolon, hstart, hstop⟩ := declaration_value node hx hv
      have := @le_skipWhile isStyleBlank src headStop (colon + 1)
      have := findColon?_bounds hcolon
      exact ⟨by omega, hstop⟩
  induction h with
  | done => cases hx
  | semicolon skip char rest ih =>
    have hskip := (skipTrivia_bounds skip).1
    obtain ⟨h1, h2⟩ := ih (Array.getElem?_eq_some_iff.1 char).1 hx
    exact ⟨by omega, h2⟩
  | @closed depth p q stop r m ns skip starts head node rest ih =>
    have hskip := (skipTrivia_bounds skip).1
    have hle := (starts.scan_bounds head).1
    have hlt := starts.stop_lt_size head
    have hr := (rest.bounds hlt).1
    have htrim := @trimEnd_le src q stop
    rw [Node.walkList_cons, List.mem_append] at hx
    rcases hx with hx | hx
    · obtain ⟨h1, h2⟩ := hdeclaration hx node
      omega
    · obtain ⟨h1, h2⟩ := ih hlt hx
      omega
  | @unclosed depth p q stop m c skip starts head char node =>
    have hskip := (skipTrivia_bounds skip).1
    have htrim := @trimEnd_le src q stop
    rw [Node.walkList_cons, walkList, List.append_nil] at hx
    obtain ⟨h1, h2⟩ := hdeclaration hx node
    omega
  | @nested depth p q brace last close r children ns m skip starts head inner trivia char node rest ihi ih =>
    have hskip := (skipTrivia_bounds skip).1
    have hle := (starts.scan_bounds head).1
    have hclose := (skipTrivia_bounds trivia).1
    have hlt := (Array.getElem?_eq_some_iff.1 char).1
    have hr := (rest.bounds hlt).1
    have hin := (inner.bounds (starts.stop_lt_size head)).1
    rw [Node.walkList_cons, List.mem_append] at hx
    rcases hx with hx | hx
    · rcases headNode_value (by rintro _ ⟨⟩; rfl) node hx hv with ⟨b, hb, hx⟩ | ⟨hb, -⟩
      · cases hb
        obtain ⟨h1, h2⟩ := ihi (starts.stop_lt_size head) hx
        omega
      · cases hb
    · obtain ⟨h1, h2⟩ := ih hlt hx
      omega

/-! ### The text around values -/

/-- **The text that stands outside of some stretches**, from a place on: a piece before each of them
and one after the last. -/
def textAround (src : Array Char) (start : Nat) : List Span → List String
  | [] => [Cursor.text src start src.size]
  | s :: rest => Cursor.text src start s.start :: textAround src s.stop rest

example : textAround "a: 1px; b: c".toList.toArray 0 [.between 3 6, .between 11 12] = ["a: ", "; b: ", ""] := by
  decide

/-- **Two stylesheets that differ inside of their values only**: their trees say the same apart from
the values, and so do their texts. -/
structure AlikeButValues (src : Array Char) (tree : Node) (src' : Array Char) (tree' : Node) : Prop where
  skeleton : tree'.skeleton = tree.skeleton
  text : textAround src' 0 tree'.values = textAround src 0 tree.values

theorem AlikeButValues.refl (src : Array Char) (tree : Node) : AlikeButValues src tree src tree :=
  ⟨rfl, rfl⟩

theorem AlikeButValues.trans {src₁ src₂ src₃ : Array Char} {tree₁ tree₂ tree₃ : Node}
    (h : AlikeButValues src₁ tree₁ src₂ tree₂) (h' : AlikeButValues src₂ tree₂ src₃ tree₃) :
    AlikeButValues src₁ tree₁ src₃ tree₃ :=
  ⟨h'.skeleton.trans h.skeleton, h'.text.trans h.text⟩

end HouseStyle.Stylesheet
