import HouseStyle.Proofs.Parse.Parsed
import HouseStyle.Proofs.Stylesheet.Selectors

/-!
# The nodes of a stylesheet

What is read off the heads and the blocks of a text holds of its tree node by node.

* `Splits`: the head of a rule, cut at the commas between its selectors.
* `Reads.forall_nodes`: what holds of each statement, of the parts of its head and of each
  block holds of every node.
* `parse_wellFormed`: **a tree is well formed.** Its root spans the text; the children of each
  node stand one after the other inside of it and are of the kinds that belong there; each text
  that a node tells is the one that stands at its place.
-/

namespace HouseStyle.Stylesheet

open Cursor (skipWhile le_skipWhile)
open Node (walk walkList)

variable {d : Dialect} {src : Array Char}

/-! ### Well-formed nodes -/

/-- The children of a node stand one after the other inside of it. -/
structure Nested (n : Node) : Prop where
  inside : ∀ c ∈ n.children, n.span.start ≤ c.span.start ∧ c.span.stop ≤ n.span.stop
  ordered : n.children.Pairwise fun a b => a.span.stop ≤ b.span.start

/-- A statement: a rule, a declaration or an at-rule. -/
def IsStatement (n : Node) : Prop :=
  match n.label with
  | .style (.rule _) | .style (.declaration _ _ _) | .style (.atRule _ _ _ _) => True
  | _ => False

/-- An id or a class in a selector. -/
def IsSimpleSelector (n : Node) : Prop :=
  match n.label with
  | .style (.idSelector _ _) | .style (.classSelector _ _) => True
  | _ => False

/-- A node has the children that belong to its kind, and the texts that it tells are those of
the places where it and they stand. -/
def Fits (src : Array Char) (n : Node) : Prop :=
  match n.label with
  | .style .stylesheet | .style .block => ∀ c ∈ n.children, IsStatement c
  | .style (.rule selector) => ∃ list block, n.children = [list, block] ∧
      list.label = .style .selectorList ∧ block.label = .style .block ∧
      selector = Cursor.text src list.span.start list.span.stop
  | .style .selectorList => ∀ c ∈ n.children, ∃ text, c.label = .style (.selector text)
  | .style (.selector text) => text = Cursor.text src n.span.start n.span.stop ∧
      ∀ c ∈ n.children, IsSimpleSelector c
  | .style (.idSelector name _) => src[n.span.start]? = some '#' ∧
      name = Cursor.text src (n.span.start + 1) n.span.stop ∧ n.children = []
  | .style (.classSelector name _) => src[n.span.start]? = some '.' ∧
      name = Cursor.text src (n.span.start + 1) n.span.stop ∧ n.children = []
  | .style (.declaration property value _) => ∃ p v name, n.children = [p, v] ∧
      p.label = .style (.property name) ∧ property = lower name ∧ v.label = .style (.value value)
  | .style (.property text) | .style (.value text) =>
      text = Cursor.text src n.span.start n.span.stop ∧ n.children = []
  | .style (.atRule _ _ _ hasBlock) => if hasBlock then
        ∃ block, n.children = [block] ∧ block.label = .style .block
      else n.children = []
  | .document | .python _ => False

/-- A node of a stylesheet as it should be. -/
structure WellFormed (src : Array Char) (n : Node) : Prop where
  nested : Nested n
  fits : Fits src n

theorem nested_of_leaf {n : Node} (h : n.children = []) : Nested n := by
  constructor
  · rw [h]
    exact List.forall_mem_nil _
  · rw [h]
    exact .nil

/-! ### Selectors -/

/-- **The head of a rule, cut at the commas between its selectors**, from `segment` on. -/
inductive Splits (src : Array Char) (stop : Nat) : Nat → List Node → Prop
  | last {segment : Nat} {found : List Node} (le : segment ≤ stop)
      (here : selectorBetween src segment stop = .ok found) : Splits src stop segment found
  | comma {segment pos : Nat} {found rest : List Node} (le : segment ≤ pos) (lt : pos < stop)
      (char : src[pos]? = some ',') (here : selectorBetween src segment pos = .ok found)
      (next : Splits src stop (pos + 1) rest) : Splits src stop segment (found ++ rest)

theorem splits_of_selectorsFrom {stop segment depth pos : Nat} (hseg : segment ≤ pos)
    (hstop : segment ≤ stop) (hsize : stop ≤ src.size) {found : List Node}
    (h : selectorsFrom src stop segment depth pos = .ok found) : Splits src stop segment found := by
  fun_induction selectorsFrom src stop segment depth pos generalizing found with
  | case1 => cases h
  | case2 _ _ _ _ next hq hb ih => exact ih (by omega) hstop h
  | case3 segment depth pos hlt hq hc =>
    have := Array.getElem?_eq_none_iff.1 hc
    omega
  | case4 _ _ _ _ _ _ _ _ ih => exact ih (by omega) hstop h
  | case5 _ _ _ _ _ _ _ _ _ ih => exact ih (by omega) hstop h
  | case6 => cases h
  | case7 => cases h
  | case8 segment depth pos hlt hq c hc hg hg' hcomma here hhere rest hrest ih =>
    cases h
    rw [hcomma.1] at hc
    exact .comma hseg hlt hc hhere (ih (Nat.le_refl _) hlt hrest)
  | case9 _ _ _ _ _ _ _ _ _ _ ih => exact ih (by omega) hstop h
  | case10 => exact .last hstop h

/-- What stands between two commas: nothing but white space, or one selector with white space
around it. -/
theorem selectorBetween_cases {start stop : Nat} (hle : start ≤ stop) {found : List Node}
    (h : selectorBetween src start stop = .ok found) :
    (found = [] ∧ skipWhile isStyleBlank src stop start =
        trimEnd src (skipWhile isStyleBlank src stop start) stop) ∨
      ∃ first last parts, found = [nodeOf (.selector (Cursor.text src first last)) first last parts] ∧
        first = skipWhile isStyleBlank src stop start ∧ last = trimEnd src first stop ∧
        start ≤ first ∧ first < last ∧ last ≤ stop ∧ simpleSelectors src last first = .ok parts := by
  have hfirst := @le_skipWhile isStyleBlank src stop start
  have hlast := @le_trimEnd src _ _ (@skipWhile_le src isStyleBlank _ _ hle)
  simp only [selectorBetween] at h
  split at h
  · rename_i heq
    cases h
    exact .inl ⟨rfl, heq⟩
  · rename_i hne
    split at h
    · cases h
    · rename_i parts hparts
      cases h
      exact .inr ⟨_, _, parts, rfl, rfl, rfl, hfirst, Nat.lt_of_le_of_ne hlast hne, trimEnd_le, hparts⟩

theorem simpleSelector_wellFormed {mark : Char} {pos stop : Nat} (hle : pos ≤ stop)
    (hc : src[pos]? = some mark) (hm : mark = '#' ∨ mark = '.') :
    WellFormed src (simpleSelector src mark pos stop) ∧ IsSimpleSelector (simpleSelector src mark pos stop) := by
  have hspan : (Span.between pos stop).stop = stop := Nat.max_eq_right hle
  rcases hm with rfl | rfl
  · refine ⟨⟨nested_of_leaf rfl, hc, ?_, rfl⟩, trivial⟩
    simp only [simpleSelector, nodeOf, hspan, Span.between_start]
  · refine ⟨⟨nested_of_leaf rfl, hc, ?_, rfl⟩, trivial⟩
    simp only [simpleSelector, nodeOf, hspan, Span.between_start]

/-- An id or a class stands between two places. -/
structure PartIn (src : Array Char) (start stop : Nat) (c : Node) : Prop where
  wellFormed : WellFormed src c
  simple : IsSimpleSelector c
  leaf : c.children = []
  start_le : start ≤ c.span.start
  stop_le : c.span.stop ≤ stop

theorem PartIn.mono {start start' stop : Nat} {c : Node} (h : PartIn src start stop c)
    (hs : start' ≤ start) : PartIn src start' stop c :=
  ⟨h.wellFormed, h.simple, h.leaf, Nat.le_trans hs h.start_le, h.stop_le⟩

/-- The ids and classes of a selector stand one after the other inside of it. -/
theorem simpleSelectors_partIn {stop pos : Nat} {parts : List Node}
    (h : simpleSelectors src stop pos = .ok parts) :
    (∀ c ∈ parts, PartIn src pos stop c) ∧ parts.Pairwise fun a b => a.span.stop ≤ b.span.start := by
  fun_induction simpleSelectors src stop pos generalizing parts with
  | case1 => cases h
  | case2 pos hlt next hq hb ih =>
    obtain ⟨hparts, hpair⟩ := ih h
    exact ⟨fun c hc => (hparts c hc).mono (Nat.le_of_lt hb.1), hpair⟩
  | case3 => cases h; exact ⟨List.forall_mem_nil _, .nil⟩
  | case4 pos hlt hq hb hc ih =>
    obtain ⟨hparts, hpair⟩ := ih h
    exact ⟨fun c hc => (hparts c hc).mono (Nat.le_of_lt (lt_bracketEnd hlt)), hpair⟩
  | case5 => cases h
  | case6 pos hlt hq c hc hne hm nameEnd hle rest hrest =>
    rename_i ih
    cases h
    obtain ⟨hparts, hpair⟩ := ih hrest
    have hpos : pos ≤ nameEnd := Nat.le_trans (Nat.le_succ pos) hle
    have hspan : (simpleSelector src c pos nameEnd).span.stop = nameEnd := Nat.max_eq_right hpos
    obtain ⟨hwell, hsimple⟩ := simpleSelector_wellFormed hpos hc hm.1
    constructor
    · refine List.forall_mem_cons.2 ⟨⟨hwell, hsimple, rfl, Nat.le_refl _, ?_⟩, fun x hx => ?_⟩
      · rw [hspan]; exact skipWhile_le hlt
      · exact (hparts x hx).mono hpos
    · refine List.pairwise_cons.2 ⟨fun x hx => ?_, hpair⟩
      rw [hspan]
      exact (hparts x hx).start_le
  | case7 pos hlt hq c hc hne hm ih =>
    obtain ⟨hparts, hpair⟩ := ih h
    exact ⟨fun c hc => (hparts c hc).mono (Nat.le_succ pos), hpair⟩
  | case8 => cases h; exact ⟨List.forall_mem_nil _, .nil⟩

/-- A selector between two commas is well formed, and so is everything in it. -/
structure SelectorAt (src : Array Char) (start stop : Nat) (s : Node) : Prop where
  start_le : start ≤ s.span.start
  stop_le : s.span.stop ≤ stop
  label : ∃ text, s.label = .style (.selector text)
  wellFormed : ∀ x ∈ walk s, WellFormed src x

theorem SelectorAt.mono {start start' stop stop' : Nat} {s : Node} (h : SelectorAt src start stop s)
    (hs : start' ≤ start) (he : stop ≤ stop') : SelectorAt src start' stop' s :=
  ⟨Nat.le_trans hs h.start_le, Nat.le_trans h.stop_le he, h.label, h.wellFormed⟩

theorem selectorBetween_at {start stop : Nat} (hle : start ≤ stop) {found : List Node}
    (h : selectorBetween src start stop = .ok found) :
    found = [] ∨ ∃ s, found = [s] ∧ SelectorAt src start stop s := by
  rcases selectorBetween_cases hle h with ⟨rfl, -⟩ | ⟨first, last, parts, rfl, -, -, h1, h2, h3, hparts⟩
  · exact .inl rfl
  have hspan : (Span.between first last).stop = last := Nat.max_eq_right (Nat.le_of_lt h2)
  obtain ⟨hin, hpair⟩ := simpleSelectors_partIn hparts
  refine .inr ⟨_, rfl, h1, Nat.le_trans (Nat.le_of_eq hspan) h3, ⟨_, rfl⟩, fun x hx => ?_⟩
  rw [Node.walk_eq, List.mem_cons] at hx
  rcases hx with rfl | hx
  · refine ⟨⟨fun c hc => ?_, hpair⟩, ?_, fun c hc => (hin c hc).simple⟩
    · exact ⟨(hin c hc).start_le, Nat.le_trans (hin c hc).stop_le (Nat.le_of_eq hspan.symm)⟩
    · simp only [nodeOf, hspan, Span.between_start]
  · -- ids and classes have no nodes below them
    obtain ⟨c, hc, rfl | hx⟩ := mem_walkList hx
    · exact (hin x hc).wellFormed
    · rw [(hin c hc).leaf] at hx
      cases hx

/-- **The selectors of a head are well formed** and stand one after the other inside of it. -/
theorem Splits.selectors {stop segment : Nat} {found : List Node} (h : Splits src stop segment found) :
    (∀ s ∈ found, SelectorAt src segment stop s) ∧
      found.Pairwise fun a b => a.span.stop ≤ b.span.start := by
  induction h with
  | last le here =>
    rcases selectorBetween_at le here with rfl | ⟨s, rfl, hs⟩
    · exact ⟨List.forall_mem_nil _, .nil⟩
    · exact ⟨List.forall_mem_singleton.2 hs, List.pairwise_singleton _ _⟩
  | @comma segment pos found rest le lt char here next ih =>
    obtain ⟨hrest, hpair⟩ := ih
    have hafter : ∀ s ∈ rest, SelectorAt src segment stop s := fun s hs =>
      (hrest s hs).mono (Nat.le_succ_of_le le) (Nat.le_refl _)
    rcases selectorBetween_at le here with rfl | ⟨s, rfl, hs⟩
    · exact ⟨hafter, hpair⟩
    · refine ⟨List.forall_mem_cons.2 ⟨hs.mono (Nat.le_refl _) (Nat.le_of_lt lt), hafter⟩, ?_⟩
      refine List.pairwise_cons.2 ⟨fun x hx => ?_, hpair⟩
      exact Nat.le_trans hs.stop_le (Nat.le_of_succ_le (hrest x hx).start_le)

theorem splits_of_selectorList {start stop : Nat} (hle : start ≤ stop) (hsize : stop ≤ src.size) {list : Node}
    (h : selectorList src start stop = .ok list) :
    ∃ found, list = nodeOf .selectorList start stop found ∧ Splits src stop start found := by
  unfold selectorList at h
  split at h
  · cases h
  · rename_i found hfound
    cases h
    exact ⟨found, rfl, splits_of_selectorsFrom (Nat.le_refl _) hle hsize hfound⟩

theorem selectorList_wellFormed {start stop : Nat} (hle : start ≤ stop) (hsize : stop ≤ src.size) {list : Node}
    (h : selectorList src start stop = .ok list) : ∀ x ∈ walk list, WellFormed src x := by
  obtain ⟨found, rfl, hsplits⟩ := splits_of_selectorList hle hsize h
  obtain ⟨hfound, hpair⟩ := hsplits.selectors
  have hspan : (Span.between start stop).stop = stop := Nat.max_eq_right hle
  intro x hx
  rw [Node.walk_eq, List.mem_cons] at hx
  rcases hx with rfl | hx
  · refine ⟨⟨fun c hc => ?_, hpair⟩, fun c hc => (hfound c hc).label⟩
    exact ⟨(hfound c hc).start_le, Nat.le_trans (hfound c hc).stop_le (Nat.le_of_eq hspan.symm)⟩
  · obtain ⟨c, hc, hx⟩ := mem_walkList hx
    refine (hfound c hc).wellFormed x ?_
    rw [Node.walk_eq, List.mem_cons]
    exact hx

/-! ### Statements -/

/-- What a declaration is read from: the colon that stands first outside of interpolations. -/
theorem declaration_cases {start bodyStop stop : Nat} {node : Node}
    (h : declaration src start bodyStop stop = .ok node) :
    ∃ colon propertyStop valueStart important, start ≤ colon ∧ colon < bodyStop ∧ src[colon]? = some ':' ∧
      propertyStop = trimEnd src start colon ∧ valueStart = skipWhile isStyleBlank src bodyStop (colon + 1) ∧
      node = nodeOf (.declaration (lower (Cursor.text src start propertyStop))
          (Cursor.text src valueStart bodyStop) important) start stop
        [nodeOf (.property (Cursor.text src start propertyStop)) start propertyStop [],
          nodeOf (.value (Cursor.text src valueStart bodyStop)) valueStart bodyStop []] := by
  unfold declaration at h
  split at h
  · cases h
  · cases h
  · rename_i colon hcolon
    obtain ⟨h1, h2, h3⟩ := findColon?_bounds hcolon
    cases h
    exact ⟨colon, _, _, _, h1, h2, h3, rfl, rfl, rfl⟩

theorem declaration_wellFormed {start bodyStop stop : Nat} {node : Node} (hstop : bodyStop ≤ stop)
    (h : declaration src start bodyStop stop = .ok node) : ∀ x ∈ walk node, WellFormed src x := by
  obtain ⟨colon, propertyStop, valueStart, important, h1, h2, -, hp, hv, rfl⟩ := declaration_cases h
  have hps : start ≤ propertyStop := hp ▸ le_trimEnd h1
  have hpc : propertyStop ≤ colon := hp ▸ trimEnd_le
  have hcv : colon + 1 ≤ valueStart := hv ▸ le_skipWhile
  have hvs : valueStart ≤ bodyStop := hv ▸ skipWhile_le h2
  have hspan : (Span.between start stop).stop = stop := Nat.max_eq_right (by omega)
  have hspanp : (Span.between start propertyStop).stop = propertyStop := Nat.max_eq_right hps
  have hspanv : (Span.between valueStart bodyStop).stop = bodyStop := Nat.max_eq_right hvs
  intro x hx
  simp only [nodeOf, walk, walkList, List.append_nil, List.cons_append, List.nil_append, List.mem_cons,
    List.not_mem_nil, or_false] at hx
  rcases hx with rfl | rfl | rfl
  · constructor
    · constructor
      · refine List.forall_mem_cons.2 ⟨⟨Nat.le_refl _, ?_⟩, List.forall_mem_singleton.2 ⟨?_, ?_⟩⟩
        · rw [hspan, hspanp]; omega
        · rw [Span.between_start, Span.between_start]; omega
        · rw [hspan, hspanv]; omega
      · refine List.pairwise_pair.2 ?_
        rw [hspanp, Span.between_start]
        omega
    · exact ⟨_, _, _, rfl, rfl, rfl, rfl⟩
  · refine ⟨nested_of_leaf rfl, ?_, rfl⟩
    simp only [hspanp, Span.between_start]
  · refine ⟨nested_of_leaf rfl, ?_, rfl⟩
    simp only [hspanv, Span.between_start]

/-- **A statement is well formed**, and so is what stands in its head. -/
theorem headNode_wellFormed {start headStop stop : Nat} {block : Option Node} {m : Node}
    (hle : start ≤ headStop) (hsize : headStop ≤ src.size) (hstop : headStop ≤ stop)
    (hblock : ∀ b, block = some b → b.label = .style .block ∧ headStop ≤ b.span.start ∧ b.span.stop ≤ stop)
    (h : headNode src start headStop stop block = .ok m) : IsStatement m ∧ WellFormed src m ∧
      ∀ c ∈ m.children, c.label ≠ .style .block → ∀ x ∈ walk c, WellFormed src x := by
  have hspan : (Span.between start stop).stop = stop := Nat.max_eq_right (Nat.le_trans hle hstop)
  unfold headNode at h
  split at h
  · obtain ⟨name, prelude, mixin, rfl⟩ := atRule_shape h
    cases block with
    | none => exact ⟨trivial, ⟨nested_of_leaf rfl, rfl⟩, List.forall_mem_nil _⟩
    | some b =>
      obtain ⟨hlabel, hstart, hend⟩ := hblock b rfl
      refine ⟨trivial, ⟨⟨List.forall_mem_singleton.2 ⟨Nat.le_trans hle hstart, ?_⟩,
        List.pairwise_singleton _ _⟩, b, rfl, hlabel⟩, fun c hc hne => ?_⟩
      · exact Nat.le_trans hend (Nat.le_of_eq hspan.symm)
      · rw [List.mem_singleton.1 hc] at hne
        exact absurd hlabel hne
  · cases block with
    | some b =>
      obtain ⟨hlabel, hstart, hend⟩ := hblock b rfl
      obtain ⟨list, hlist, rfl⟩ := rule_shape h
      have hwell := selectorList_wellFormed hle hsize hlist
      obtain ⟨found, rfl, -⟩ := splits_of_selectorList hle hsize hlist
      have hspanl : (Span.between start headStop).stop = headStop := Nat.max_eq_right hle
      refine ⟨trivial, ⟨⟨?_, ?_⟩, _, b, rfl, rfl, hlabel, ?_⟩, fun c hc hne => ?_⟩
      · refine List.forall_mem_cons.2 ⟨⟨Nat.le_refl _, ?_⟩, List.forall_mem_singleton.2
          ⟨Nat.le_trans hle hstart, Nat.le_trans hend (Nat.le_of_eq hspan.symm)⟩⟩
        simp only [nodeOf, hspan, hspanl]
        exact hstop
      · refine List.pairwise_pair.2 (Nat.le_trans (Nat.le_of_eq hspanl) hstart)
      · simp only [nodeOf, hspanl, Span.between_start]
      · rcases List.mem_cons.1 hc with rfl | hc
        · exact hwell
        · rw [List.mem_singleton.1 hc] at hne
          exact absurd hlabel hne
    | none =>
      have hwell := declaration_wellFormed hstop h
      have hself := hwell m (Node.mem_walk_self m)
      refine ⟨?_, hself, fun c hc _ x hx => hwell x ?_⟩
      · obtain ⟨property, value, important, name, propertyStop, valueStart, rfl⟩ := declaration_shape h
        exact trivial
      · rw [Node.walk_eq]
        exact List.mem_cons_of_mem _ (Node.mem_walkList_trans hx _ (Node.mem_walkList_of_mem hc))

theorem Item.wellFormed {depth : Nat} {m : Node} (h : Item d src depth m) : IsStatement m ∧ WellFormed src m ∧
    ∀ c ∈ m.children, c.label ≠ .style .block → ∀ x ∈ walk c, WellFormed src x := by
  cases h with
  | @closed _ stop _ rest starts head node =>
    have hstop := (starts.scan_bounds head).2.1
    have htrim := @trimEnd_le src m.span.start stop
    exact headNode_wellFormed (starts.le_trimEnd head) (by omega) (by omega) (by rintro _ ⟨⟩) node
  | @unclosed _ stop _ c rest starts head char node =>
    have hstop := (starts.scan_bounds head).2.1
    have htrim := @trimEnd_le src m.span.start stop
    exact headNode_wellFormed (starts.le_trimEnd head) (by omega) (Nat.le_refl _)
      (by rintro _ ⟨⟩) node
  | @nested depth brace last close children _ rest starts head inner trivia char node =>
    have hlt := starts.stop_lt_size head
    have hlast := (inner.bounds hlt).1
    have hclose := (skipTrivia_bounds trivia).1
    have htrim := @trimEnd_le src m.span.start brace
    refine headNode_wellFormed (starts.le_trimEnd head) (by omega) (by omega) (fun b hb => ?_) node
    cases hb
    refine ⟨rfl, htrim, Nat.max_le.2 ⟨by omega, Nat.le_refl _⟩⟩

/-! ### All nodes of a tree -/

/-- A node of a statement is the statement, or stands in its head or in its block. -/
theorem headNode_walk {start headStop stop : Nat} {block : Option Node} {m x : Node} (hle : start ≤ headStop)
    (h : headNode src start headStop stop block = .ok m) (hx : x ∈ walk m) :
    x = m ∨ (∃ c ∈ m.children, c.label ≠ .style .block ∧ x ∈ walk c) ∨
      ∃ b, block = some b ∧ x ∈ walk b := by
  obtain ⟨parts, hshape, -, -, hparts, -⟩ := headNode_shape hle h
  have hchildren : m.children = parts ++ block.toList := congrArg Node.children hshape
  rw [Node.walk_eq, List.mem_cons, hchildren, Node.walkList_append, List.mem_append] at hx
  rcases hx with hx | hx | hx
  · exact .inl hx
  · obtain ⟨c, hc, hx⟩ := mem_walkList hx
    refine .inr (.inl ⟨c, ?_, hparts c (Node.mem_walkList_of_mem hc), ?_⟩)
    · rw [hchildren]
      exact List.mem_append_left _ hc
    · rw [Node.walk_eq, List.mem_cons]
      exact hx
  · obtain ⟨b, hb, hx⟩ := mem_walkList hx
    refine .inr (.inr ⟨b, Option.mem_toList.1 hb, ?_⟩)
    rw [Node.walk_eq, List.mem_cons]
    exact hx

/-- **What holds of each statement, of what stands in its head, and of each block holds of every
node.** By induction on the reading. -/
theorem Reads.forall_nodes {P : Node → Prop} {depth p r : Nat} {ns : List Node}
    (h : Reads d src depth p ns r)
    (hstatement : ∀ k m, Item d src k m →
      P m ∧ ∀ c ∈ m.children, c.label ≠ .style .block → ∀ x ∈ walk c, P x)
    (hblock : ∀ k brace children last close, src[brace]? = some '{' →
      Reads d src k (brace + 1) children last → skipTrivia d src last = .ok close → src[close]? = some '}' →
      P (nodeOf .block brace (close + 1) children)) : ∀ x ∈ walkList ns, P x := by
  -- a statement and what stands in its head
  have hhead {k : Nat} {m x : Node} (hitem : Item d src k m)
      (hx : x = m ∨ ∃ c ∈ m.children, c.label ≠ .style .block ∧ x ∈ walk c) : P x := by
    obtain ⟨hm, hparts⟩ := hstatement k m hitem
    rcases hx with rfl | ⟨c, hc, hne, hx⟩
    · exact hm
    · exact hparts c hc hne x hx
  induction h with
  | done => exact List.forall_mem_nil _
  | semicolon skip char rest ih => exact ih
  | @closed depth p q stop r m ns skip starts head node rest ih =>
    intro x hx
    rw [Node.walkList_cons, List.mem_append] at hx
    rcases hx with hx | hx
    · obtain rfl := headNode_start (starts.le_trimEnd head) node
      have hitem : Item d src depth m := .closed (skipTrivia_idem skip) starts head node
      rcases headNode_walk (starts.le_trimEnd head) node hx with hx | hx | ⟨b, hb, -⟩
      · exact hhead hitem (.inl hx)
      · exact hhead hitem (.inr hx)
      · cases hb
    · exact ih x hx
  | @unclosed depth p q stop m c skip starts head char node =>
    intro x hx
    rw [Node.walkList_cons, walkList, List.append_nil] at hx
    obtain rfl := headNode_start (starts.le_trimEnd head) node
    have hitem : Item d src depth m := .unclosed (skipTrivia_idem skip) starts head char node
    rcases headNode_walk (starts.le_trimEnd head) node hx with hx | hx | ⟨b, hb, -⟩
    · exact hhead hitem (.inl hx)
    · exact hhead hitem (.inr hx)
    · cases hb
  | @nested depth p q brace last close r children ns m skip starts head inner trivia char node rest ihi ih =>
    intro x hx
    rw [Node.walkList_cons, List.mem_append] at hx
    rcases hx with hx | hx
    · obtain rfl := headNode_start (starts.le_trimEnd head) node
      have hitem : Item d src (depth + 1) m := .nested (skipTrivia_idem skip) starts head inner trivia char node
      rcases headNode_walk (starts.le_trimEnd head) node hx with hx | hx | ⟨b, hb, hx⟩
      · exact hhead hitem (.inl hx)
      · exact hhead hitem (.inr hx)
      · cases hb
        rw [Node.walk_eq, List.mem_cons] at hx
        rcases hx with rfl | hx
        · exact hblock depth brace children last close (starts.scan_bounds head).2.2 inner trivia char
        · exact ihi x hx
    · exact ih x hx

/-- Statements stand one after the other between the places from and to which they are read. -/
theorem Reads.inOrder {depth p r : Nat} {ns : List Node} (h : Reads d src depth p ns r) (hp : p ≤ src.size) :
    (∀ m ∈ ns, IsStatement m ∧ p ≤ m.span.start ∧ m.span.stop ≤ r) ∧
      ns.Pairwise fun a b => a.span.stop ≤ b.span.start := by
  induction ns generalizing p with
  | nil => exact ⟨List.forall_mem_nil _, .nil⟩
  | cons m ns ih =>
    have hmem := h.items hp
    obtain ⟨hitem, hstart⟩ := hmem m List.mem_cons_self
    obtain ⟨before, -, -, hstarts, ⟨-, hone, hrest⟩ | ⟨-, rfl, -, htail, -⟩⟩ := h.uncons hp
    · have hstop := (hone.bounds (Nat.le_of_lt hstarts.lt_size)).2
      have hr := (hrest.bounds hstop).1
      have hle := m.span.start_le_stop
      obtain ⟨hns, hpair⟩ := ih hrest hstop
      refine ⟨List.forall_mem_cons.2 ⟨⟨hitem.wellFormed.1, hstart, hr⟩, fun x hx => ?_⟩,
        List.pairwise_cons.2 ⟨fun x hx => (hns x hx).2.1, hpair⟩⟩
      obtain ⟨h1, h2, h3⟩ := hns x hx
      exact ⟨h1, by omega, h3⟩
    · exact ⟨List.forall_mem_singleton.2 ⟨hitem.wellFormed.1, hstart, (skipTrivia_bounds htail).1⟩,
        List.pairwise_singleton _ _⟩

/-- Statements that are read from a place to another one belong into a node around these. -/
theorem Reads.wellFormed {depth p r start stop : Nat} {ns : List Node} {form : Form}
    (h : Reads d src depth p ns r) (hp : p ≤ src.size) (hform : form = .stylesheet ∨ form = .block)
    (hstart : start ≤ p) (hstop : r ≤ stop) : WellFormed src (nodeOf form start stop ns) := by
  have hpr := (h.bounds hp).1
  have hspan : (Span.between start stop).stop = stop := Nat.max_eq_right (by omega)
  obtain ⟨hns, hpair⟩ := h.inOrder hp
  refine ⟨⟨fun c hc => ?_, hpair⟩, ?_⟩
  · obtain ⟨-, hle, hge⟩ := hns c hc
    exact ⟨Nat.le_trans hstart hle, Nat.le_trans hge (Nat.le_trans hstop (Nat.le_of_eq hspan.symm))⟩
  · rcases hform with rfl | rfl <;> exact fun c hc => (hns c hc).1

theorem span_of_parse {tree : Node} (h : parse d src = .ok tree) : tree.span.start = 0 ∧ tree.span.stop = src.size := by
  obtain ⟨ns, r, -, -, rfl⟩ := parse_iff.1 h
  exact ⟨rfl, Nat.max_eq_right (Nat.zero_le _)⟩

/-- Every node of the tree of a stylesheet is well formed. -/
theorem wellFormed_of_parse {tree n : Node} (h : parse d src = .ok tree) (hn : n ∈ walk tree) : WellFormed src n := by
  obtain ⟨ns, r, hr, htail, rfl⟩ := parse_iff.1 h
  rw [Node.walk_eq, List.mem_cons] at hn
  rcases hn with rfl | hn
  · exact hr.wellFormed (Nat.zero_le _) (.inl rfl) (Nat.le_refl _) (skipTrivia_bounds htail).1
  · refine hr.forall_nodes (fun k m hm => hm.wellFormed.2)
      (fun k brace children last close hb hin htrivia _ => ?_) n hn
    have hlt := (Array.getElem?_eq_some_iff.1 hb).1
    have hclose := (skipTrivia_bounds htrivia).1
    exact hin.wellFormed hlt (.inr rfl) (Nat.le_succ brace) (Nat.le_succ_of_le hclose)

/-- **The trees of stylesheets are well formed**: the root spans the text, and at every node the
children stand one after the other inside of it, are of the kinds that belong there, and the
texts that are told are those of the places. -/
theorem parse_wellFormed {tree : Node} (h : parse d src = .ok tree) :
    tree.label = .style .stylesheet ∧ tree.span.start = 0 ∧ tree.span.stop = src.size ∧
      ∀ n ∈ walk tree, WellFormed src n := by
  obtain ⟨hstart, hstop⟩ := span_of_parse h
  have hlabel : tree.label = .style .stylesheet := by
    obtain ⟨ns, r, -, -, rfl⟩ := parse_iff.1 h
    rfl
  exact ⟨hlabel, hstart, hstop, fun n hn => wellFormed_of_parse h hn⟩

theorem parse_wellFormed_media : ∃ tree,
    parse .css "@media print \x7b a[b='\x7d'], .c#d \x7b color: red;; margin: 0 \x7d \x7d".toList.toArray = .ok tree ∧
      Node.count tree = 16 ∧ tree.label = .style .stylesheet ∧ tree.span.start = 0 ∧ tree.span.stop = 58 ∧
      ∀ n ∈ walk tree, WellFormed
        "@media print \x7b a[b='\x7d'], .c#d \x7b color: red;; margin: 0 \x7d \x7d".toList.toArray n := by
  have hb : ((parse .css
      "@media print \x7b a[b='\x7d'], .c#d \x7b color: red;; margin: 0 \x7d \x7d".toList.toArray).toOption.any
        fun tree => Node.count tree == 16) = true := by
    decide +kernel
  obtain ⟨tree, htree, hcount⟩ := (Option.any_eq_true _ _).1 hb
  have hparse := toOption_eq_some.1 htree
  exact ⟨tree, hparse, beq_iff_eq.1 hcount, parse_wellFormed hparse⟩

end HouseStyle.Stylesheet
