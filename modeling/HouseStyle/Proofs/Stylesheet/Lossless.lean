import HouseStyle.Proofs.Stylesheet.Nodes

/-!
# No text of a stylesheet is lost

What the nodes of a tree do not cover is told by the place where it stands.

* `Comment`, `Filler`: a whole comment; white space, semicolons and whole comments.
* `Lossless`: what stands between the children of a node.
* `parse_lossless`: **no text is lost.** Between the statements of a text or of a block there is
  only filler; around the parts of a statement there is only white space besides the colon and the
  semicolon; between the selectors of a rule there are only white space and commas.
-/

namespace HouseStyle.Stylesheet

open Cursor (find skipWhile le_skipWhile)
open Node (walk walkList)

variable {d : Dialect} {src : Array Char}

/-! ### White space and comments -/

/-- Only white space stands between two places. -/
structure Blanks (src : Array Char) (start stop : Nat) : Prop where
  le : start ≤ stop
  blank : ∀ i, start ≤ i → i < stop → ∃ c, src[i]? = some c ∧ isStyleBlank c = true

/-- **A whole comment** stands between two places: up to the first `*/` after its start or, in
SCSS, up to the end of its line. -/
inductive Comment (d : Dialect) (src : Array Char) (start stop : Nat) : Prop
  | block (slash : src[start]? = some '/') (star : src[start + 1]? = some '*') (le : start + 4 ≤ stop)
      (close : src[stop - 2]? = some '*' ∧ src[stop - 1]? = some '/')
      (first : ∀ i, start + 2 ≤ i → i + 2 < stop → ¬ (src[i]? = some '*' ∧ src[i + 1]? = some '/'))
  | line (scss : d = .scss) (slash : src[start]? = some '/') (slash' : src[start + 1]? = some '/')
      (le : start + 2 ≤ stop) (inner : ∀ i, start ≤ i → i < stop → src[i]? ≠ some '\n')
      (close : src[stop]? = some '\n' ∨ stop = src.size)

theorem Comment.lt {start stop : Nat} (h : Comment d src start stop) : start < stop := by
  cases h with
  | block slash star le => omega
  | line scss slash slash' le => omega

/-- **White space, semicolons and whole comments** stand between two places. -/
inductive Filler (d : Dialect) (src : Array Char) : Nat → Nat → Prop
  | done {p : Nat} : Filler d src p p
  | blank {p r : Nat} {c : Char} (char : src[p]? = some c) (blank : isStyleBlank c = true)
      (rest : Filler d src (p + 1) r) : Filler d src p r
  | semicolon {p r : Nat} (char : src[p]? = some ';') (rest : Filler d src (p + 1) r) : Filler d src p r
  | comment {p q r : Nat} (comment : Comment d src p q) (rest : Filler d src q r) : Filler d src p r

theorem Filler.trans {p q r : Nat} (h : Filler d src p q) (h' : Filler d src q r) : Filler d src p r := by
  induction h with
  | done => exact h'
  | blank char blank rest ih => exact .blank char blank (ih h')
  | semicolon char rest ih => exact .semicolon char (ih h')
  | comment comment rest ih => exact .comment comment (ih h')

theorem Filler.le {p q : Nat} (h : Filler d src p q) : p ≤ q := by
  induction h with
  | done => exact Nat.le_refl _
  | blank char blank rest ih => omega
  | semicolon char rest ih => omega
  | comment comment rest ih => exact Nat.le_of_lt (Nat.lt_of_lt_of_le comment.lt ih)

theorem Blanks.filler {p q : Nat} (h : Blanks src p q) : Filler d src p q := by
  obtain ⟨hle, hblank⟩ := h
  induction hle with
  | refl => exact .done
  | @step q hle ih =>
    obtain ⟨c, hc, hb⟩ := hblank q hle (Nat.lt_succ_self q)
    exact (ih fun i hi hlt => hblank i hi (Nat.lt_succ_of_lt hlt)).trans (.blank hc hb .done)

/-- The white space that is cut off the end of a stretch. -/
theorem blanks_trimEnd {start stop : Nat} : Blanks src (trimEnd src start stop) stop :=
  ⟨trimEnd_le, fun _ hi hlt => trimEnd_blank hi hlt⟩

/-- The white space that is passed over. -/
theorem blanks_skipWhile (stop cursor : Nat) :
    Blanks src cursor (skipWhile isStyleBlank src stop cursor) := by
  refine ⟨le_skipWhile, ?_⟩
  fun_induction skipWhile isStyleBlank src stop cursor with
  | case1 cursor hc ih =>
    intro i hi hlt
    rcases Nat.eq_or_lt_of_le hi with rfl | hi
    · exact (Option.any_eq_true _ _).1 hc.2
    · exact ih i hi hlt
  | case2 cursor hc => intro i hi hlt; omega

theorem closingComment?_first {cursor stop : Nat} (h : closingComment? src cursor = some stop) :
    cursor + 2 ≤ stop ∧ (src[stop - 2]? = some '*' ∧ src[stop - 1]? = some '/') ∧
      ∀ i, cursor ≤ i → i + 2 < stop → ¬ (src[i]? = some '*' ∧ src[i + 1]? = some '/') := by
  fun_induction closingComment? src cursor with
  | case1 cursor hlt hc =>
    cases h
    refine ⟨Nat.le_refl _, ⟨?_, ?_⟩, fun i hi hlt => by omega⟩
    · rw [Nat.add_sub_cancel, Array.getElem?_eq_getElem (by omega), hc.1]
    · rw [show cursor + 2 - 1 = cursor + 1 by omega, Array.getElem?_eq_getElem hlt, hc.2]
  | case2 cursor hlt hc ih =>
    obtain ⟨hle, hclose, hfirst⟩ := ih h
    refine ⟨by omega, hclose, fun i hi hlt' => ?_⟩
    rcases Nat.eq_or_lt_of_le hi with rfl | hi
    · rw [Array.getElem?_eq_getElem (by omega), Array.getElem?_eq_getElem hlt, Option.some.injEq,
        Option.some.injEq]
      exact hc
    · exact hfirst i hi hlt'
  | case3 => cases h

theorem find_first {target : Char} {stop cursor : Nat} :
    ∀ i, cursor ≤ i → i < find src target stop cursor → src[i]? ≠ some target := by
  fun_induction find src target stop cursor with
  | case1 cursor hlt hc => intro i hi hlt; omega
  | case2 cursor hlt hc ih =>
    intro i hi hlt'
    rcases Nat.eq_or_lt_of_le hi with rfl | hi
    · exact hc
    · exact ih i hi hlt'
  | case3 cursor hlt => intro i hi hlt'; omega

theorem comment_of_commentEnd? {pos next : Nat} (h : commentEnd? (d == .scss) src pos = .ok (some next)) :
    Comment d src pos next := by
  have hlt := commentEnd?_lt h
  unfold commentEnd? at h
  split at h
  · rename_i hslash
    split at h
    · rename_i hstar
      have hend := of_map_some h
      unfold commentEnd at hend
      split at hend
      · rename_i hclose
        cases hend
        obtain ⟨hle, hclose, hfirst⟩ := closingComment?_first hclose
        exact .block hslash hstar (by omega) hclose hfirst
      · cases hend
    · split at h
      · rename_i hline
        simp only [Except.ok.injEq, Option.some.injEq] at h
        subst h
        exact .line (beq_iff_eq.1 hline.2) hslash hline.1 (by omega) find_first find_stops.symm
      · cases h
  · cases h

/-- **Trivia is white space and whole comments.** -/
theorem filler_of_skipTrivia {pos next : Nat} (h : skipTrivia d src pos = .ok next) :
    Filler d src pos next := by
  fun_induction skipTrivia d src pos with
  | case1 pos hlt hc ih => exact .blank (Array.getElem?_eq_getElem hlt) hc (ih h)
  | case2 => cases h
  | case3 pos hlt hc stop hn hb ih => exact .comment (comment_of_commentEnd? hn) (ih h)
  | case4 => cases h; exact .done
  | case5 => cases h; exact .done

/-! ### What nodes do not cover -/

/-- What stands between two places besides some nodes, one after the other, is of a sort. -/
def Covered (gap : Nat → Nat → Prop) (stop : Nat) : Nat → List Node → Prop
  | pos, [] => gap pos stop
  | pos, n :: ns => gap pos n.span.start ∧ Covered gap stop n.span.stop ns

section

variable {gap : Nat → Nat → Prop} {p q stop stop' : Nat} {ns : List Node}

theorem Covered.before (h : Covered gap stop q ns) (htrans : ∀ p q r, gap p q → gap q r → gap p r)
    (hgap : gap p q) : Covered gap stop p ns := by
  cases ns with
  | nil => exact htrans _ _ _ hgap h
  | cons n ns => exact ⟨htrans _ _ _ hgap h.1, h.2⟩

theorem Covered.after (h : Covered gap stop p ns) (htrans : ∀ p q r, gap p q → gap q r → gap p r)
    (hgap : gap stop stop') : Covered gap stop' p ns := by
  induction ns generalizing p with
  | nil => exact htrans _ _ _ h hgap
  | cons n ns ih => exact ⟨h.1, ih h.2⟩

end

/-- Only white space and commas stand between two places. -/
structure Separators (src : Array Char) (start stop : Nat) : Prop where
  le : start ≤ stop
  separator : ∀ i, start ≤ i → i < stop → ∃ c, src[i]? = some c ∧ (isStyleBlank c = true ∨ c = ',')

theorem Separators.trans {p q r : Nat} (h : Separators src p q) (h' : Separators src q r) :
    Separators src p r := by
  refine ⟨Nat.le_trans h.le h'.le, fun i hi hlt => ?_⟩
  by_cases hq : i < q
  · exact h.separator i hi hq
  · exact h'.separator i (by omega) hlt

theorem Blanks.separators {p q : Nat} (h : Blanks src p q) : Separators src p q := by
  refine ⟨h.le, fun i hi hlt => ?_⟩
  obtain ⟨c, hc, hb⟩ := h.blank i hi hlt
  exact ⟨c, hc, .inl hb⟩

theorem separators_comma {p : Nat} (h : src[p]? = some ',') : Separators src p (p + 1) := by
  refine ⟨Nat.le_succ p, fun i hi hlt => ?_⟩
  obtain rfl : i = p := by omega
  exact ⟨',', h, .inr rfl⟩

/-- A comma stands between two nodes. -/
def Parted (src : Array Char) (a b : Node) : Prop :=
  ∃ i, a.span.stop ≤ i ∧ i < b.span.start ∧ src[i]? = some ','

/-- The text of a statement without a block ends at a place, but for its semicolon. -/
def Closed (src : Array Char) (bodyStop stop : Nat) : Prop :=
  stop = bodyStop ∨ ∃ semicolon, Blanks src bodyStop semicolon ∧ src[semicolon]? = some ';' ∧
    stop = semicolon + 1

/-- **What the children of a node do not cover**, for each kind of node. -/
def Lossless (d : Dialect) (src : Array Char) (n : Node) : Prop :=
  match n.label with
  | .style .stylesheet => Covered (Filler d src) n.span.stop n.span.start n.children
  | .style .block => ∃ close, src[n.span.start]? = some '\x7b' ∧ src[close]? = some '}' ∧
      n.span.stop = close + 1 ∧ Covered (Filler d src) close (n.span.start + 1) n.children
  | .style (.rule _) => ∃ list block, n.children = [list, block] ∧ list.span.start = n.span.start ∧
      Blanks src list.span.stop block.span.start ∧ block.span.stop = n.span.stop
  | .style .selectorList => Covered (Separators src) n.span.stop n.span.start n.children ∧
      n.children.Pairwise (Parted src)
  | .style (.declaration _ _ _) => ∃ property value colon, n.children = [property, value] ∧
      property.span.start = n.span.start ∧ Blanks src property.span.stop colon ∧ src[colon]? = some ':' ∧
      Blanks src (colon + 1) value.span.start ∧ Closed src value.span.stop n.span.stop
  | .style (.atRule name prelude _ _) => ∃ nameStop preludeStart headStop,
      src[n.span.start]? = some '@' ∧ name = lower (Cursor.text src (n.span.start + 1) nameStop) ∧
      Blanks src nameStop preludeStart ∧ preludeStart ≤ headStop ∧
      prelude = Cursor.text src preludeStart headStop ∧
      ((n.children = [] ∧ Closed src headStop n.span.stop) ∨
        ∃ block, n.children = [block] ∧ Blanks src headStop block.span.start ∧
          block.span.stop = n.span.stop)
  | .style (.selector _) | .style (.idSelector _ _) | .style (.classSelector _ _) | .style (.property _)
  | .style (.value _) => True
  | .document | .python _ => False

/-! ### Selectors -/

theorem selectorBetween_covered {start stop : Nat} (hle : start ≤ stop) {found : List Node}
    (h : selectorBetween src start stop = .ok found) : Covered (Separators src) stop start found := by
  have hfirst := @blanks_skipWhile src stop start
  rcases selectorBetween_cases hle h with
    ⟨rfl, heq⟩ | ⟨first, last, parts, rfl, hf, hl, -, hlt, -⟩
  · -- nothing but white space
    have hlast := @blanks_trimEnd src (skipWhile isStyleBlank src stop start) stop
    rw [← heq] at hlast
    exact hfirst.separators.trans hlast.separators
  · subst hf
    have hlast := @blanks_trimEnd src (skipWhile isStyleBlank src stop start) stop
    rw [← hl] at hlast
    have hspan : (Span.between (skipWhile isStyleBlank src stop start) last).stop = last :=
      Nat.max_eq_right (Nat.le_of_lt hlt)
    refine ⟨hfirst.separators, ?_⟩
    simp only [nodeOf, Covered, hspan]
    exact hlast.separators

/-- **Between the selectors of a head there are white space and commas**, at least one comma
between one and the next. -/
theorem Splits.covered {stop segment : Nat} {found : List Node} (h : Splits src stop segment found) :
    Covered (Separators src) stop segment found ∧ found.Pairwise (Parted src) := by
  induction h with
  | last le here =>
    refine ⟨selectorBetween_covered le here, ?_⟩
    rcases selectorBetween_at le here with rfl | ⟨s, rfl, -⟩
    · exact .nil
    · exact List.pairwise_singleton _ _
  | @comma segment pos found rest le lt char here next ih =>
    obtain ⟨hcovered, hparted⟩ := ih
    have hrest : Covered (Separators src) stop pos rest :=
      hcovered.before (fun _ _ _ => Separators.trans) (separators_comma char)
    have hhere := selectorBetween_covered le here
    rcases selectorBetween_at le here with rfl | ⟨s, rfl, hs⟩
    · exact ⟨hrest.before (fun _ _ _ => Separators.trans) hhere, hparted⟩
    · refine ⟨⟨hhere.1, hrest.before (fun _ _ _ => Separators.trans) hhere.2⟩,
        List.pairwise_cons.2 ⟨fun x hx => ?_, hparted⟩⟩
      exact ⟨pos, hs.stop_le, (next.selectors.1 x hx).start_le, char⟩

/-- The parts of selectors have no gaps to tell of. -/
theorem IsSelectorPart.lossless {n : Node} (h : IsSelectorPart n) : Lossless d src n := by
  unfold IsSelectorPart at h
  unfold Lossless
  split at h
  · rename_i hl; rw [hl]; exact trivial
  · rename_i hl; rw [hl]; exact trivial
  · rename_i hl; rw [hl]; exact trivial
  · cases h

theorem selectorList_lossless {start stop : Nat} (hle : start ≤ stop) (hsize : stop ≤ src.size) {list : Node}
    (h : selectorList src start stop = .ok list) : ∀ x ∈ walk list, Lossless d src x := by
  obtain ⟨hshape, hparts⟩ := selectorList_shape h
  obtain ⟨found, rfl, hsplits⟩ := splits_of_selectorList hle hsize h
  have hspan : (Span.between start stop).stop = stop := Nat.max_eq_right hle
  intro x hx
  rw [Node.walk_eq, List.mem_cons] at hx
  rcases hx with rfl | hx
  · simp only [Lossless, nodeOf, hspan, Span.between_start]
    exact hsplits.covered
  · exact (hparts x hx).lossless

/-! ### Statements -/

theorem declaration_lossless {start bodyStop stop : Nat} {node : Node} (hle : bodyStop ≤ stop)
    (hclosed : Closed src bodyStop stop) (h : declaration src start bodyStop stop = .ok node) :
    ∀ x ∈ walk node, Lossless d src x := by
  obtain ⟨colon, propertyStop, valueStart, important, h1, h2, hcolon, hp, hv, rfl⟩ := declaration_cases h
  have hps : start ≤ propertyStop := hp ▸ le_trimEnd h1
  have hvs : valueStart ≤ bodyStop := hv ▸ skipWhile_le h2
  have hspan : (Span.between start stop).stop = stop := Nat.max_eq_right (by omega)
  have hspanp : (Span.between start propertyStop).stop = propertyStop := Nat.max_eq_right hps
  have hspanv : (Span.between valueStart bodyStop).stop = bodyStop := Nat.max_eq_right hvs
  intro x hx
  simp only [nodeOf, walk, walkList, List.append_nil, List.cons_append, List.nil_append, List.mem_cons,
    List.not_mem_nil, or_false] at hx
  rcases hx with rfl | rfl | rfl
  · refine ⟨_, _, colon, rfl, rfl, ?_, hcolon, ?_, ?_⟩
    · rw [hspanp, hp]
      exact blanks_trimEnd
    · rw [Span.between_start, hv]
      exact blanks_skipWhile _ _
    · rw [hspanv, hspan]
      exact hclosed
  · exact trivial
  · exact trivial

/-- What an at-rule is read from: its name, and what follows it. -/
theorem atRule_cases {start headStop stop : Nat} {block : Option Node} {node : Node}
    (h : atRule src start headStop stop block = .ok node) :
    ∃ nameStop preludeStart mixin, nameStop = skipWhile isNameChar src headStop (start + 1) ∧
      preludeStart = skipWhile isStyleBlank src headStop nameStop ∧
      node = nodeOf (.atRule (lower (Cursor.text src (start + 1) nameStop))
        (Cursor.text src preludeStart headStop) mixin block.isSome) start stop block.toList := by
  simp only [atRule] at h
  split at h
  · cases h
  · cases h
    exact ⟨_, _, _, rfl, rfl, rfl⟩

theorem atRule_lossless {start headStop stop : Nat} {block : Option Node} {node : Node}
    (hat : src[start]? = some '@') (hlt : start < headStop) (hle : headStop ≤ stop)
    (hnone : block = none → Closed src headStop stop)
    (hsome : ∀ b, block = some b → Blanks src headStop b.span.start ∧ b.span.stop = stop)
    (h : atRule src start headStop stop block = .ok node) : Lossless d src node := by
  obtain ⟨nameStop, preludeStart, mixin, hn, hp, rfl⟩ := atRule_cases h
  have hns : nameStop ≤ headStop := hn ▸ skipWhile_le hlt
  have hspan : (Span.between start stop).stop = stop := Nat.max_eq_right (by omega)
  refine ⟨nameStop, preludeStart, headStop, hat, rfl, hp ▸ blanks_skipWhile _ _, hp ▸ skipWhile_le hns,
    rfl, ?_⟩
  cases block with
  | none => exact .inl ⟨rfl, by simpa only [nodeOf, hspan] using hnone rfl⟩
  | some b =>
    obtain ⟨hblanks, hstop⟩ := hsome b rfl
    exact .inr ⟨b, rfl, hblanks, by simpa only [nodeOf, hspan] using hstop⟩

/-- **Around the parts of a statement** there is only white space besides its colon and its
semicolon. -/
theorem headNode_lossless {start headStop stop : Nat} {block : Option Node} {m : Node}
    (hle : start ≤ headStop) (hsize : headStop ≤ src.size) (hstop : headStop ≤ stop)
    (hat : src[start]? = some '@' → start < headStop)
    (hnone : block = none → Closed src headStop stop)
    (hsome : ∀ b, block = some b →
      b.label = .style .block ∧ Blanks src headStop b.span.start ∧ b.span.stop = stop)
    (h : headNode src start headStop stop block = .ok m) : Lossless d src m ∧
      ∀ c ∈ m.children, c.label ≠ .style .block → ∀ x ∈ walk c, Lossless d src x := by
  have hspan : (Span.between start stop).stop = stop := Nat.max_eq_right (Nat.le_trans hle hstop)
  unfold headNode at h
  split at h
  · rename_i hc
    refine ⟨atRule_lossless hc (hat hc) hstop hnone (fun b hb => (hsome b hb).2) h, fun c hm hne => ?_⟩
    obtain ⟨name, prelude, mixin, rfl⟩ := atRule_shape h
    exact absurd (hsome c (Option.mem_toList.1 hm)).1 hne
  · cases block with
    | some b =>
      obtain ⟨hlabel, hblanks, hend⟩ := hsome b rfl
      obtain ⟨list, hlist, rfl⟩ := rule_shape h
      have hall := selectorList_lossless (d := d) hle hsize hlist
      obtain ⟨found, rfl, -⟩ := splits_of_selectorList hle hsize hlist
      have hspanl : (Span.between start headStop).stop = headStop := Nat.max_eq_right hle
      refine ⟨⟨_, b, rfl, rfl, ?_, ?_⟩, fun c hc hne => ?_⟩
      · simp only [nodeOf, hspanl]
        exact hblanks
      · simp only [nodeOf, hspan]
        exact hend
      · rcases List.mem_cons.1 hc with rfl | hc
        · exact hall
        · rw [List.mem_singleton.1 hc] at hne
          exact absurd hlabel hne
    | none =>
      have hall := declaration_lossless (d := d) hstop (hnone rfl) h
      refine ⟨hall m (Node.mem_walk_self m), fun c hc _ x hx => hall x ?_⟩
      rw [Node.walk_eq]
      exact List.mem_cons_of_mem _ (Node.mem_walkList_trans hx _ (Node.mem_walkList_of_mem hc))

/-- The at-sign of a statement belongs to its head. -/
theorem Starts.lt_trimEnd {start stop : Nat} {c : Option Char} (starts : Starts src start)
    (head : scan d src start = .ok (stop, c)) (hat : src[start]? = some '@') :
    start < trimEnd src start stop := by
  obtain ⟨hle, -, hchar⟩ := starts.scan_bounds head
  have hne : start ≠ stop := by
    rintro rfl
    rw [hat] at hchar
    rcases scan_char head with rfl | rfl | rfl | rfl <;> cases hchar
  refine Nat.lt_of_le_of_ne (starts.le_trimEnd head) fun heq => ?_
  obtain ⟨x, hx, hblank⟩ := trimEnd_blank (Nat.le_of_eq heq.symm) (Nat.lt_of_le_of_ne hle hne)
  rw [hat] at hx
  cases hx
  exact absurd hblank (by decide)

theorem Item.lossless {depth : Nat} {m : Node} (h : Item d src depth m) : Lossless d src m ∧
    ∀ c ∈ m.children, c.label ≠ .style .block → ∀ x ∈ walk c, Lossless d src x := by
  cases h with
  | @closed _ stop _ rest starts head node =>
    obtain ⟨-, hstop, hchar⟩ := starts.scan_bounds head
    have htrim := @trimEnd_le src m.span.start stop
    exact headNode_lossless (starts.le_trimEnd head) (by omega) (by omega) (starts.lt_trimEnd head)
      (fun _ => .inr ⟨stop, blanks_trimEnd, hchar, rfl⟩) (by rintro _ ⟨⟩) node
  | @unclosed _ stop _ c rest starts head char node =>
    have hstop := (starts.scan_bounds head).2.1
    have htrim := @trimEnd_le src m.span.start stop
    exact headNode_lossless (starts.le_trimEnd head) (by omega) (Nat.le_refl _) (starts.lt_trimEnd head)
      (fun _ => .inl rfl) (by rintro _ ⟨⟩) node
  | @nested depth brace last close children _ rest starts head inner trivia char node =>
    have hlt := starts.stop_lt_size head
    have hlast := (inner.bounds hlt).1
    have hclose := (skipTrivia_bounds trivia).1
    have htrim := @trimEnd_le src m.span.start brace
    refine headNode_lossless (starts.le_trimEnd head) (by omega) (by omega) (starts.lt_trimEnd head)
      (by rintro ⟨⟩) (fun b hb => ?_) node
    cases hb
    exact ⟨rfl, blanks_trimEnd, Nat.max_eq_right (by omega)⟩

/-! ### Blocks and texts -/

/-- **Between statements there are white space, semicolons and whole comments.** -/
theorem Reads.covered {depth p r : Nat} {ns : List Node} (h : Reads d src depth p ns r) :
    Covered (Filler d src) r p ns := by
  induction h with
  | done => exact Filler.done
  | semicolon skip char rest ih =>
    exact ih.before (fun _ _ _ => Filler.trans) ((filler_of_skipTrivia skip).trans (.semicolon char .done))
  | @closed depth p q stop r m ns skip starts head node rest ih =>
    have hqs := (starts.scan_bounds head).1
    have hstart : m.span.start = q := headNode_start (starts.le_trimEnd head) node
    have hstop : m.span.stop = stop + 1 := headNode_stop (starts.le_trimEnd head) (by omega) node
    rw [Covered, hstart, hstop]
    exact ⟨filler_of_skipTrivia skip, ih⟩
  | @unclosed depth p q stop m c skip starts head char node =>
    have hle := starts.le_trimEnd head
    rw [Covered, headNode_start hle node, headNode_stop hle hle node]
    exact ⟨filler_of_skipTrivia skip, blanks_trimEnd.filler⟩
  | @nested depth p q brace last close r children ns m skip starts head inner trivia char node rest ihi ih =>
    have hqb := (starts.scan_bounds head).1
    have hlast := (inner.bounds (starts.stop_lt_size head)).1
    have hclose := (skipTrivia_bounds trivia).1
    have hstart : m.span.start = q := headNode_start (starts.le_trimEnd head) node
    have hstop : m.span.stop = close + 1 := headNode_stop (starts.le_trimEnd head) (by omega) node
    rw [Covered, hstart, hstop]
    exact ⟨filler_of_skipTrivia skip, ih⟩

/-- At every node of the tree of a stylesheet no text is lost. -/
theorem lossless_of_parse {tree n : Node} (h : parse d src = .ok tree) (hn : n ∈ walk tree) : Lossless d src n := by
  obtain ⟨ns, r, hr, htail, rfl⟩ := parse_iff.1 h
  rw [Node.walk_eq, List.mem_cons] at hn
  rcases hn with rfl | hn
  · have hspan : (Span.between 0 src.size).stop = src.size := Nat.max_eq_right (Nat.zero_le _)
    simp only [Lossless, nodeOf, hspan, Span.between_start]
    exact hr.covered.after (fun _ _ _ => Filler.trans) (filler_of_skipTrivia htail)
  · refine hr.forall_nodes (fun k m hm => hm.lossless)
      (fun k brace children last close hb hin htrivia hc => ?_) n hn
    have hlt := (Array.getElem?_eq_some_iff.1 hb).1
    have hlast := (hin.bounds hlt).1
    have hclose := (skipTrivia_bounds htrivia).1
    exact ⟨close, hb, hc, Nat.max_eq_right (by omega),
      hin.covered.after (fun _ _ _ => Filler.trans) (filler_of_skipTrivia htrivia)⟩

/-- **No text of a stylesheet is lost**: at every node, what its children do not cover is white
space, punctuation of that place and, between statements, whole comments. -/
theorem parse_lossless {tree : Node} (h : parse d src = .ok tree) : ∀ n ∈ walk tree, Lossless d src n :=
  fun _ hn => lossless_of_parse h hn

theorem parse_lossless_commented : ∃ tree,
    parse .scss "// x\na /* y */, b \x7b c : d ; /* z */; @include e; f: g // h\n\x7d".toList.toArray = .ok tree ∧
      Node.count tree = 13 ∧ ∀ n ∈ walk tree, Lossless .scss
        "// x\na /* y */, b \x7b c : d ; /* z */; @include e; f: g // h\n\x7d".toList.toArray n := by
  have hb : ((parse .scss
      "// x\na /* y */, b \x7b c : d ; /* z */; @include e; f: g // h\n\x7d".toList.toArray).toOption.any
        fun tree => Node.count tree == 13) = true := by
    decide +kernel
  obtain ⟨tree, htree, hcount⟩ := (Option.any_eq_true _ _).1 hb
  have hparse := toOption_eq_some.1 htree
  exact ⟨tree, hparse, beq_iff_eq.1 hcount, parse_lossless hparse⟩

end HouseStyle.Stylesheet
