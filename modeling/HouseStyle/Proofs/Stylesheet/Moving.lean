import HouseStyle.Proofs.Stylesheet.Reading
import HouseStyle.Proofs.Stylesheet.Shape

/-!
# Statements keep their tree when their text is moved

* `Reads.move`: statements that stand in a stretch of one text are read alike where
  another text repeats the stretch, if the heads of its rules split there.
* `Reads.append`, `Reads.uncons`, `Reads.items`: statements one by one.
-/

namespace HouseStyle.Stylesheet

open Node (relocateList walkList)

variable {d : Dialect} {src src' : Array Char} {a b n : Nat}

/-- The heads of all rules among some trees split into selectors. -/
def HeadsSplit (src : Array Char) (ns : List Node) : Prop :=
  ∀ m ∈ walkList ns, m.label = .style .selectorList →
    ∃ list, selectorList src m.span.start m.span.stop = .ok list

theorem HeadsSplit.append {ns ms : List Node} :
    HeadsSplit src (ns ++ ms) ↔ HeadsSplit src ns ∧ HeadsSplit src ms := by
  unfold HeadsSplit
  rw [Node.walkList_append]
  constructor
  · intro h
    exact ⟨fun m hm => h m (List.mem_append_left _ hm), fun m hm => h m (List.mem_append_right _ hm)⟩
  · rintro ⟨h1, h2⟩ m hm
    rcases List.mem_append.1 hm with hm | hm
    · exact h1 m hm
    · exact h2 m hm

theorem HeadsSplit.cons {m : Node} {ms : List Node} :
    HeadsSplit src (m :: ms) ↔ HeadsSplit src [m] ∧ HeadsSplit src ms :=
  @HeadsSplit.append src [m] ms

theorem HeadsSplit.children {m : Node} (h : HeadsSplit src [m]) : HeadsSplit src m.children := by
  intro x hx
  refine h x ?_
  rw [Node.walkList_cons, Node.walk_eq]
  exact List.mem_append_left _ (List.mem_cons_of_mem _ hx)

theorem IsSelectorPart.label {m : Node} (h : IsSelectorPart m) :
    m.label ≠ .style .selectorList ∧ m.label ≠ .style .block := by
  unfold IsSelectorPart at h
  split at h
  · rename_i hl; rw [hl]; exact ⟨(nomatch ·), (nomatch ·)⟩
  · rename_i hl; rw [hl]; exact ⟨(nomatch ·), (nomatch ·)⟩
  · rename_i hl; rw [hl]; exact ⟨(nomatch ·), (nomatch ·)⟩
  · cases h

/-- The nodes of the selectors of a rule. -/
theorem mem_walk_selectorList {start stop : Nat} {list m : Node}
    (h : selectorList src start stop = .ok list) (hm : m ∈ walkList [list]) :
    m = nodeOf .selectorList start stop list.children ∨
      m.label ≠ .style .selectorList ∧ m.label ≠ .style .block := by
  obtain ⟨hshape, hparts⟩ := selectorList_shape h
  rw [Node.walkList_cons, Node.walk_eq, List.mem_append, List.mem_cons] at hm
  rcases hm with (hm | hm) | hm
  · exact .inl (hm.trans hshape)
  · exact .inr (hparts m hm).label
  · cases hm

theorem headsSplit_selectorList {start stop : Nat} (hle : start ≤ stop) {list : Node}
    (h : selectorList src start stop = .ok list) : HeadsSplit src [list] := by
  intro m hm hlabel
  rcases mem_walk_selectorList h hm with rfl | hm
  · exact ⟨list, by simpa [nodeOf, Nat.max_eq_right hle] using h⟩
  · exact absurd hlabel hm.1

/-- Below a statement stand the parts of its head, among which there is no block, and
its block. -/
theorem headNode_shape {start headStop stop : Nat} {block : Option Node} {node : Node}
    (hle : start ≤ headStop) (h : headNode src start headStop stop block = .ok node) :
    ∃ parts, node = ⟨node.label, .between start stop, parts ++ block.toList⟩ ∧
      node.label ≠ .style .block ∧ node.label ≠ .style .selectorList ∧
      (∀ m ∈ walkList parts, m.label ≠ .style .block) ∧ HeadsSplit src parts := by
  unfold headNode at h
  split at h
  · obtain ⟨name, prelude, mixin, rfl⟩ := atRule_shape h
    refine ⟨[], rfl, ?_, ?_, ?_, ?_⟩
    · intro hl; cases hl
    · intro hl; cases hl
    · intro m hm; cases hm
    · intro m hm; cases hm
  · split at h
    · rename_i b
      obtain ⟨list, hl, rfl⟩ := rule_shape h
      refine ⟨[list], rfl, ?_, ?_, ?_, headsSplit_selectorList hle hl⟩
      · intro hl; cases hl
      · intro hl; cases hl
      · intro m hm
        rcases mem_walk_selectorList hl hm with rfl | hm
        · intro hl; cases hl
        · exact hm.2
    · obtain ⟨property, value, important, name, propertyStop, valueStart, rfl⟩ := declaration_shape h
      have hleaf {m : Node} (hm : m ∈ walkList [nodeOf (.property name) start propertyStop [],
          nodeOf (.value value) valueStart headStop []]) :
          m.label = .style (.property name) ∨ m.label = .style (.value value) := by
        simp only [nodeOf, walkList, Node.walk, List.append_nil, List.cons_append, List.nil_append,
          List.mem_cons, List.not_mem_nil, or_false] at hm
        rcases hm with rfl | rfl
        · exact .inl rfl
        · exact .inr rfl
      refine ⟨_, (by rw [Option.toList_none, List.append_nil]; rfl), ?_, ?_, ?_, ?_⟩
      · intro hl; cases hl
      · intro hl; cases hl
      · intro m hm hl
        rcases hleaf hm with h | h <;> rw [h] at hl <;> cases hl
      · intro m hm hl
        rcases hleaf hm with h | h <;> rw [h] at hl <;> cases hl

theorem headNode_agree_none (h : Agree src src' a b n) (stop' : Nat) {s l stop : Nat}
    (hat : src[a + s]? = some '@' → s < l) (hsn : s < n) (hl : l ≤ n) {node : Node}
    (hn : headNode src (a + s) (a + l) stop none = .ok node) :
    headNode src' (b + s) (b + l) stop' none = .ok ((node.relocate a b).cover (b + s) stop') := by
  unfold headNode at hn ⊢
  rw [← h s hsn]
  by_cases hc : src[a + s]? = some '@'
  · rw [if_pos hc] at hn ⊢
    obtain ⟨name, prelude, mixin, hnode⟩ := atRule_shape hn
    rw [atRule_agree h (hat hc) hl rfl hn, hnode]
    rfl
  · rw [if_neg hc] at hn ⊢
    exact declaration_agree h hl hn

/-- A statement without a block tells whether a semicolon belongs to its text. -/
theorem headNode_headStop {start headStop stop stop' : Nat} {node : Node} (hs : start < headStop)
    (hc : src[headStop]? = some ';') (h : headNode src start headStop stop none = .ok node) :
    headNode src start (headStop + 1) stop' none ≠ .ok node := by
  intro h'
  unfold headNode at h h'
  split at h
  · rename_i hat
    rw [if_pos hat] at h'
    exact atRule_headStop hs hc h h'
  · rename_i hat
    rw [if_neg hat] at h'
    exact Nat.ne_of_lt (Nat.lt_succ_self _) (declaration_bodyStop h h')

theorem headNode_agree (h : Agree src src' a b n) (stop' : Nat) {s l stop : Nat} {block block' : Option Node}
    (hs : s ≤ l) (hat : src[a + s]? = some '@' → s < l) (hl : l < n) (hsize : a + l ≤ src.size)
    (hlast : src[a + l]? ≠ some '#') (hblock : block'.isSome = block.isSome) {node : Node}
    (hn : headNode src (a + s) (a + l) stop block = .ok node) :
    ∃ parts, node = ⟨node.label, .between (a + s) stop, parts ++ block.toList⟩ ∧
      (HeadsSplit src' (relocateList a b parts) →
        headNode src' (b + s) (b + l) stop' block' =
          .ok ⟨node.label, .between (b + s) stop', relocateList a b parts ++ block'.toList⟩) := by
  unfold headNode at hn ⊢
  rw [← h s (by omega)]
  by_cases hc : src[a + s]? = some '@'
  · rw [if_pos hc] at hn ⊢
    obtain ⟨name, prelude, mixin, hnode⟩ := atRule_shape hn
    exact ⟨[], by rw [hnode]; rfl, fun _ => atRule_agree h (hat hc) (Nat.le_of_lt hl) hblock hn⟩
  rw [if_neg hc] at hn ⊢
  cases block with
  | none =>
    cases block' with
    | some _ => cases hblock
    | none =>
      obtain ⟨property, value, important, name, propertyStop, valueStart, rfl⟩ := declaration_shape hn
      refine ⟨_, (by rw [Option.toList_none, List.append_nil]; rfl), fun _ => ?_⟩
      rw [declaration_agree h (Nat.le_of_lt hl) hn, Option.toList_none, List.append_nil]
      rfl
  | some block =>
    cases block' with
    | none => cases hblock
    | some block' =>
      obtain ⟨list, hr, rfl⟩ := rule_shape hn
      refine ⟨[list], rfl, fun hsplit => ?_⟩
      obtain ⟨hshape, -⟩ := selectorList_shape hr
      obtain ⟨list', hr'⟩ : ∃ list', selectorList src' (b + s) (b + l) = .ok list' := by
        have := hsplit (list.relocate a b) (Node.mem_walkList_of_mem (List.mem_singleton_self _))
          (by rw [hshape]; rfl)
        rw [hshape] at this
        simpa [nodeOf, Nat.max_eq_right (show a + s ≤ a + l by omega)] using this
      simp only [rule, hr']
      rw [selectorList_agree h hs hl hsize hlast hr hr', text_agree h (Nat.le_of_lt hl)]
      rfl

/-! ### Moving a stretch -/

theorem skipTrivia_move (h : Agree src src' a b n) {p q : Nat} (hp : a ≤ p) (hq : q < a + n)
    (hnext : src[q]? = some '/' → q + 1 < a + n) (hs : skipTrivia d src p = .ok q) :
    skipTrivia d src' (b + (p - a)) = .ok (b + (q - a)) := by
  have hpq := (skipTrivia_bounds hs).1
  obtain ⟨i, rfl⟩ := Nat.exists_eq_add_of_le hp
  obtain ⟨j, rfl⟩ := Nat.exists_eq_add_of_le (Nat.le_trans hp hpq)
  rw [Nat.add_sub_cancel_left, Nat.add_sub_cancel_left]
  have hrest := skipTrivia_agree_rest h (show j < n by omega) (fun hc => by have := hnext hc; omega)
    (skipTrivia_idem hs)
  exact skipTrivia_agree h (by omega) (fun _ => by omega) hrest hs

theorem Agree.at (h : Agree src src' a b n) {q : Nat} {c : Char} (hq : a ≤ q) (hlt : q < a + n)
    (hc : src[q]? = some c) : src'[b + (q - a)]? = some c := by
  obtain ⟨i, rfl⟩ := Nat.exists_eq_add_of_le hq
  rw [Nat.add_sub_cancel_left, ← h i (by omega)]
  exact hc

theorem Starts.move (h : Agree src src' a b n) {q : Nat} (hq : a ≤ q) (hlt : q < a + n)
    (hs : Starts src q) : Starts src' (b + (q - a)) := by
  obtain ⟨c, hc, hrest⟩ := hs
  exact ⟨c, h.at hq hlt hc, hrest⟩

/-- A head does not end before a number sign: what was trimmed is white space. -/
theorem Starts.trimEnd_ne {q stop : Nat} {c : Option Char} (starts : Starts src q)
    (head : scan d src q = .ok (stop, c)) : src[trimEnd src q stop]? ≠ some '#' := by
  rcases Nat.lt_or_eq_of_le (@trimEnd_le src q stop) with hlt | heq
  · obtain ⟨x, hx, hblank⟩ := trimEnd_blank (Nat.le_refl (trimEnd src q stop)) hlt
    rw [hx]
    rintro ⟨⟩
    exact absurd hblank (by decide)
  · rw [heq, (starts.scan_bounds head).2.2]
    rcases scan_char head with hc | hc | hc | hc <;> rw [hc] <;> decide

/-- **The head of a statement is read alike where it is repeated** up to the character
that ends it. -/
theorem head_move (h : Agree src src' a b n) {q stop e : Nat} {c : Option Char} (hq : a ≤ q)
    (hstop : stop < a + n) (starts : Starts src q) (head : scan d src q = .ok (stop, c))
    {block : Option Node} (block' : Option Node) (hblock : block'.isSome = block.isSome) {m : Node}
    (node : headNode src q (trimEnd src q stop) e block = .ok m) :
    scan d src' (b + (q - a)) = .ok (b + (stop - a), c) ∧
      trimEnd src' (b + (q - a)) (b + (stop - a)) = b + (trimEnd src q stop - a) ∧
      ∃ parts, m = ⟨m.label, .between q e, parts ++ block.toList⟩ ∧
        ∀ e', HeadsSplit src' (relocateList a b parts) →
          headNode src' (b + (q - a)) (trimEnd src' (b + (q - a)) (b + (stop - a))) e' block' =
            .ok ⟨m.label, .between (b + (q - a)) e', relocateList a b parts ++ block'.toList⟩ := by
  obtain ⟨hle, hsize, hchar⟩ := starts.scan_bounds head
  have hlt := starts.lt_size
  obtain ⟨s, rfl⟩ := Nat.exists_eq_add_of_le hq
  obtain ⟨l, rfl⟩ := Nat.exists_eq_add_of_le (Nat.le_trans hq hle)
  rw [Nat.add_sub_cancel_left, Nat.add_sub_cancel_left]
  obtain ⟨u, hsu, hul, htrim, htrim'⟩ := trimEnd_agree h (show s ≤ l by omega) (show l ≤ n by omega)
  rw [htrim] at node
  rw [htrim', htrim, Nat.add_sub_cancel_left]
  have hlast : src[a + u]? ≠ some '#' := by
    rw [← htrim]
    exact starts.trimEnd_ne head
  have hat : src[a + s]? = some '@' → s < u := by
    intro hc
    have hsl : s ≠ l := by
      rintro rfl
      rw [hchar] at hc
      rcases scan_char head with hx | hx | hx | hx <;> rw [hx] at hc <;> cases hc
    refine Nat.lt_of_le_of_ne hsu fun hsu => ?_
    obtain ⟨x, hx, hblank⟩ := trimEnd_blank (show trimEnd src (a + s) (a + l) ≤ a + s by omega)
      (show a + s < a + l by omega)
    rw [hc] at hx
    cases hx
    exact absurd hblank (by decide)
  have hscan : scan d src' (b + s) = .ok (b + l, c) :=
    scanFrom_agree h (by omega) (Nat.le_of_lt hlt) (Nat.le_of_lt (h.lt_size (by omega) hlt)) head
  refine ⟨hscan, rfl, ?_⟩
  obtain ⟨parts, hm, -⟩ := headNode_agree h e hsu hat (by omega) (by omega) hlast hblock node
  refine ⟨parts, hm, fun e' hsplit => ?_⟩
  obtain ⟨parts', hm', hmove⟩ := headNode_agree h e' hsu hat (by omega) (by omega) hlast hblock node
  have hparts : parts' = parts := by
    have := congrArg Node.children (hm'.symm.trans hm)
    exact List.append_cancel_right this
  subst hparts
  exact hmove hsplit

theorem relocate_nodeOf {form : Form} {start stop : Nat} {children : List Node} (hstart : a ≤ start)
    (hstop : a ≤ stop) : (nodeOf form start stop children).relocate a b =
      nodeOf form (b + (start - a)) (b + (stop - a)) (relocateList a b children) := by
  rw [nodeOf, Node.relocate, Span.between_relocate hstart hstop]
  rfl

/-- A statement that is read alike where it is repeated has its tree there. -/
theorem head_move_node (h : Agree src src' a b n) {q stop e : Nat} {c : Option Char} (hq : a ≤ q)
    (he : a ≤ e) (hstop : stop < a + n) (starts : Starts src q) (head : scan d src q = .ok (stop, c))
    {block : Option Node} {m : Node} (node : headNode src q (trimEnd src q stop) e block = .ok m)
    (hsplit : HeadsSplit src' [m.relocate a b]) :
    headNode src' (b + (q - a)) (trimEnd src' (b + (q - a)) (b + (stop - a))) (b + (e - a))
      (block.map (Node.relocate a b)) = .ok (m.relocate a b) := by
  obtain ⟨-, -, parts, hshape, hnode⟩ := head_move h hq hstop starts head
    (block.map (Node.relocate a b)) Option.isSome_map node
  have hmoved : m.relocate a b = ⟨m.label, .between (b + (q - a)) (b + (e - a)),
      relocateList a b parts ++ (block.map (Node.relocate a b)).toList⟩ := by
    rw [hshape, Node.relocate, Span.between_relocate hq he, Node.relocateList_append]
    cases block <;> rfl
  have hchildren := hsplit.children
  rw [hmoved] at hchildren ⊢
  exact hnode _ (HeadsSplit.append.1 hchildren).1

/-- A statement ends with its block or with the text, and not at a semicolon. -/
def Unclosed (d : Dialect) (src : Array Char) (m : Node) : Prop :=
  ∃ stop c, scan d src m.span.start = .ok (stop, c) ∧ (c = some '}' ∨ c = none)

theorem headNode_start {start headStop stop : Nat} {block : Option Node} {m : Node}
    (hle : start ≤ headStop) (h : headNode src start headStop stop block = .ok m) : m.span.start = start := by
  obtain ⟨parts, hshape, -⟩ := headNode_shape hle h
  rw [hshape]; rfl

theorem headNode_stop {start headStop stop : Nat} {block : Option Node} {m : Node}
    (hle : start ≤ headStop) (hstop : start ≤ stop) (h : headNode src start headStop stop block = .ok m) :
    m.span.stop = stop := by
  obtain ⟨parts, hshape, -⟩ := headNode_shape hle h
  rw [hshape]
  exact Nat.max_eq_right hstop

theorem not_unclosed {m : Node} {stop : Nat} {c : Option Char} (h : scan d src m.span.start = .ok (stop, c))
    (hc : c = some ';' ∨ c = some '\x7b') : ¬ Unclosed d src m := by
  rintro ⟨stop', c', hscan, hc'⟩
  rw [h] at hscan
  cases hscan
  rcases hc with rfl | rfl <;> rcases hc' with hc' | hc' <;> cases hc'

/-- **Statements that stand in a stretch of one text are read alike where another text
repeats it**, by induction on the reading. The stretch holds the character after the
last statement if that is unclosed. -/
theorem Reads.move {depth p r : Nat} {ns : List Node} (hr : Reads d src depth p ns r)
    (h : Agree src src' a b n) (hp : a ≤ p) (hps : p ≤ src.size) (hstop : r ≤ a + n)
    (hend : r < a + n ∨ ∀ m ∈ ns, ¬ Unclosed d src m) (hsplit : HeadsSplit src' (relocateList a b ns)) :
    Reads d src' depth (b + (p - a)) (relocateList a b ns) (b + (r - a)) := by
  induction hr with
  | done => exact .done
  | @semicolon depth p q r ns skip char rest ih =>
    have hpq := (skipTrivia_bounds skip).1
    have hlt := (Array.getElem?_eq_some_iff.1 char).1
    have hqr := (rest.bounds hlt).1
    have hskip := skipTrivia_move h hp (by omega) (fun hc => by rw [char] at hc; cases hc) skip
    have hrest := ih (by omega) hlt hstop hend hsplit
    rw [Nat.sub_add_comm (show a ≤ q by omega)] at hrest
    exact .semicolon hskip (h.at (by omega) (by omega) char) hrest
  | @closed depth p q stop r m ns skip starts head node rest ih =>
    have hpq := (skipTrivia_bounds skip).1
    have hqs := (starts.scan_bounds head).1
    have hlt := starts.stop_lt_size head
    have hlt' := starts.lt_stop head (by decide)
    have hqr := (rest.bounds hlt).1
    obtain ⟨hm, hns⟩ := HeadsSplit.cons.1 hsplit
    have hskip := skipTrivia_move h hp (by omega) (fun _ => by omega) skip
    have hscan := (head_move h (by omega) (by omega) starts head none rfl node).1
    have hnode := head_move_node h (by omega) (by omega) (by omega) starts head node hm
    have hrest := ih (by omega) hlt hstop (hend.imp_right fun hx x hm => hx x (List.mem_cons_of_mem _ hm)) hns
    rw [Nat.sub_add_comm (show a ≤ stop by omega)] at hnode hrest
    exact .closed hskip (starts.move h (by omega) (by omega)) hscan hnode hrest
  | @unclosed depth p q stop m c skip starts head char node =>
    have hpq := (skipTrivia_bounds skip).1
    have hqs := (starts.scan_bounds head).1
    have hlt' := starts.lt_stop head (by rcases char with rfl | rfl <;> decide)
    have hqt : q ≤ trimEnd src q stop := le_trimEnd hqs
    -- the only case that looks at the character after the statements
    have hin : stop < a + n := by
      rcases hend with hlt | hclosed
      · exact hlt
      · have hq := headNode_start hqt node
        exact absurd ⟨stop, c, by rw [hq]; exact head, char⟩ (hclosed m (List.mem_singleton_self m))
    have hskip := skipTrivia_move h hp (by omega) (fun _ => by omega) skip
    obtain ⟨hscan, htrim, -⟩ := head_move h (by omega) hin starts head none rfl node
    have hnode := head_move_node h (by omega) (by omega) hin starts head node (HeadsSplit.cons.1 hsplit).1
    rw [← htrim] at hnode
    exact .unclosed hskip (starts.move h (by omega) (by omega)) hscan char hnode
  | @nested depth p q brace last close r children ns m skip starts head inner trivia char node rest ihi ih =>
    have hpq := (skipTrivia_bounds skip).1
    have hqb := (starts.scan_bounds head).1
    have hlt := starts.stop_lt_size head
    have hlast := (inner.bounds hlt).1
    have hclose := (skipTrivia_bounds trivia).1
    have hlt' := (Array.getElem?_eq_some_iff.1 char).1
    have hqr := (rest.bounds hlt').1
    obtain ⟨hm, hns⟩ := HeadsSplit.cons.1 hsplit
    have hskip := skipTrivia_move h hp (by omega) (fun _ => by omega) skip
    have htrivia := skipTrivia_move h (by omega) (show close < a + n by omega)
      (fun hc => by rw [char] at hc; cases hc) trivia
    obtain ⟨hscan, -, parts, hshape, -⟩ := head_move h (by omega) (by omega) starts head
      (some (nodeOf .block brace (close + 1) children)) (by rfl) node
    have hnode := head_move_node h (by omega) (by omega) (by omega) starts head node hm
    have hblock : HeadsSplit src' (relocateList a b children) := by
      have hchildren := hm.children
      rw [hshape, Node.relocate, Node.relocateList_append] at hchildren
      exact (HeadsSplit.append.1 hchildren).2.children
    have hinner := ihi (by omega) hlt (by omega) (.inl (by omega)) hblock
    have hrest := ih (by omega) hlt' hstop (hend.imp_right fun hx x hm => hx x (List.mem_cons_of_mem _ hm)) hns
    rw [Option.map_some, relocate_nodeOf (by omega) (by omega)] at hnode
    rw [Nat.sub_add_comm (show a ≤ close by omega)] at hnode hrest
    rw [Nat.sub_add_comm (show a ≤ brace by omega)] at hinner
    exact .nested hskip (starts.move h (by omega) (by omega)) hscan hinner htrivia
      (h.at (by omega) (by omega) char) hnode hrest

/-! ### Statements one by one -/

theorem Reads.append {depth p r q : Nat} {ns ms : List Node} (h : Reads d src depth p ns r)
    (hclosed : ∀ m ∈ ns, ¬ Unclosed d src m) (h' : Reads d src depth r ms q) :
    Reads d src depth p (ns ++ ms) q := by
  induction h with
  | done => exact h'
  | semicolon skip char rest ih => exact .semicolon skip char (ih hclosed h')
  | closed skip starts head node rest ih =>
    exact .closed skip starts head node (ih (fun m hm => hclosed m (List.mem_cons_of_mem _ hm)) h')
  | @unclosed depth p q stop m c skip starts head char node =>
    have hq := headNode_start (le_trimEnd (starts.scan_bounds head).1) node
    exact absurd ⟨stop, c, by rw [hq]; exact head, char⟩ (hclosed m (List.mem_singleton_self m))
  | nested skip starts head inner trivia char node rest ihi ih =>
    exact .nested skip starts head inner trivia char node
      (ih (fun m hm => hclosed m (List.mem_cons_of_mem _ hm)) h')

/-- Trivia before a statement does not matter. -/
theorem Reads.after_trivia {depth p q r : Nat} {m : Node} {ns : List Node}
    (h : Reads d src depth q (m :: ns) r) (hskip : skipTrivia d src p = .ok q) :
    Reads d src depth p (m :: ns) r := by
  have hq := skipTrivia_idem hskip
  cases h with
  | semicolon skip char rest =>
    cases hq.symm.trans skip
    exact .semicolon hskip char rest
  | closed skip starts head node rest =>
    cases hq.symm.trans skip
    exact .closed hskip starts head node rest
  | unclosed skip starts head char node =>
    cases hq.symm.trans skip
    exact .unclosed hskip starts head char node
  | nested skip starts head inner trivia char node rest =>
    cases hq.symm.trans skip
    exact .nested hskip starts head inner trivia char node rest

theorem skipTrivia_of_blanks {stop : Nat} (hrest : skipTrivia d src stop = .ok stop) (k : Nat) :
    ∀ pos, pos + k = stop →
      (∀ i, pos ≤ i → i < stop → ∃ c, src[i]? = some c ∧ isStyleBlank c = true) →
      skipTrivia d src pos = .ok stop := by
  induction k with
  | zero =>
    rintro pos rfl -
    exact hrest
  | succ k ih =>
    intro pos hk hblank
    obtain ⟨c, hc, hb⟩ := hblank pos (Nat.le_refl _) (by omega)
    rw [skipTrivia_of_char hc, if_pos hb]
    exact ih (pos + 1) (by omega) fun i hi => hblank i (by omega)

/-- The blanks after an unclosed statement lead to the end of its block. -/
theorem skipTrivia_trimEnd {start stop : Nat} (hrest : skipTrivia d src stop = .ok stop) :
    skipTrivia d src (trimEnd src start stop) = .ok stop :=
  skipTrivia_of_blanks hrest (stop - trimEnd src start stop) _
    (by have := @trimEnd_le src start stop; omega) fun _ hi hlt => trimEnd_blank hi hlt

/-- **The first of some statements**, which semicolons may precede. Either it ends by
itself and the others follow, or it is unclosed and the last one. -/
theorem Reads.uncons {depth p r : Nat} {m : Node} {ns : List Node} (h : Reads d src depth p (m :: ns) r)
    (hp : p ≤ src.size) :
    ∃ before, Reads d src depth p [] before ∧ skipTrivia d src before = .ok m.span.start ∧
      Starts src m.span.start ∧
      ((¬ Unclosed d src m ∧ Reads d src depth m.span.start [m] m.span.stop ∧
          Reads d src depth m.span.stop ns r) ∨
        (Unclosed d src m ∧ ns = [] ∧ Reads d src depth m.span.start [m] r ∧
          skipTrivia d src m.span.stop = .ok r ∧ skipTrivia d src r = .ok r)) := by
  generalize hms : m :: ns = ms at h
  induction h generalizing m ns with
  | done => cases hms
  | semicolon skip char rest ih =>
    -- the semicolon joins what stands before the statement
    have hlt := (Array.getElem?_eq_some_iff.1 char).1
    obtain ⟨before, hgap, htail⟩ := ih hlt hms
    exact ⟨before, .semicolon skip char hgap, htail⟩
  | @closed depth p q stop r m' ns' skip starts head node rest ih =>
    cases hms
    have hqs := (starts.scan_bounds head).1
    have hq : m'.span.start = q := headNode_start (le_trimEnd hqs) node
    have hstop : m'.span.stop = stop + 1 := headNode_stop (le_trimEnd hqs) (by omega) node
    have hclosed : ¬ Unclosed d src m' := not_unclosed (by rw [hq]; exact head) (.inl rfl)
    refine ⟨p, .done, ?_⟩
    rw [hq, hstop]
    exact ⟨skip, starts, .inl ⟨hclosed, .closed (skipTrivia_idem skip) starts head node .done, rest⟩⟩
  | @unclosed depth p q stop m' c skip starts head char node =>
    cases hms
    have hqt : q ≤ trimEnd src q stop := le_trimEnd (starts.scan_bounds head).1
    have hq : m'.span.start = q := headNode_start hqt node
    have hstop : m'.span.stop = trimEnd src q stop := headNode_stop hqt hqt node
    have hrest : skipTrivia d src stop = .ok stop := by
      have hchar := (starts.scan_bounds head).2.2
      rcases char with rfl | rfl
      · exact skipTrivia_of_plain hchar (by decide) (by decide)
      · exact skipTrivia_of_end (Array.getElem?_eq_none_iff.1 hchar)
    refine ⟨p, .done, ?_⟩
    rw [hq, hstop]
    exact ⟨skip, starts, .inr ⟨⟨stop, c, by rw [hq]; exact head, char⟩, rfl,
      .unclosed (skipTrivia_idem skip) starts head char node, skipTrivia_trimEnd hrest, hrest⟩⟩
  | @nested depth p q brace last close r children ns' m' skip starts head inner trivia char node rest ihi ih =>
    cases hms
    have hqs := (starts.scan_bounds head).1
    have hlt := starts.stop_lt_size head
    have hlast := (inner.bounds hlt).1
    have hclose := (skipTrivia_bounds trivia).1
    have hq : m'.span.start = q := headNode_start (le_trimEnd hqs) node
    have hstop : m'.span.stop = close + 1 := headNode_stop (le_trimEnd hqs) (by omega) node
    have hclosed : ¬ Unclosed d src m' := not_unclosed (by rw [hq]; exact head) (.inr rfl)
    refine ⟨p, .done, ?_⟩
    rw [hq, hstop]
    exact ⟨skip, starts, .inl ⟨hclosed,
      .nested (skipTrivia_idem skip) starts head inner trivia char node .done, rest⟩⟩

/-- **A statement by itself**, in one of the three forms in which it can end. -/
inductive Item (d : Dialect) (src : Array Char) : Nat → Node → Prop
  | closed {depth stop : Nat} {m : Node} (rest : skipTrivia d src m.span.start = .ok m.span.start)
      (starts : Starts src m.span.start) (head : scan d src m.span.start = .ok (stop, some ';'))
      (node : headNode src m.span.start (trimEnd src m.span.start stop) (stop + 1) none = .ok m) :
      Item d src depth m
  | unclosed {depth stop : Nat} {m : Node} {c : Option Char}
      (rest : skipTrivia d src m.span.start = .ok m.span.start) (starts : Starts src m.span.start)
      (head : scan d src m.span.start = .ok (stop, c)) (char : c = some '}' ∨ c = none)
      (node : headNode src m.span.start (trimEnd src m.span.start stop) (trimEnd src m.span.start stop)
        none = .ok m) : Item d src depth m
  | nested {depth brace last close : Nat} {children : List Node} {m : Node}
      (rest : skipTrivia d src m.span.start = .ok m.span.start) (starts : Starts src m.span.start)
      (head : scan d src m.span.start = .ok (brace, some '\x7b'))
      (inner : Reads d src depth (brace + 1) children last) (trivia : skipTrivia d src last = .ok close)
      (char : src[close]? = some '}')
      (node : headNode src m.span.start (trimEnd src m.span.start brace) (close + 1)
        (some (nodeOf .block brace (close + 1) children)) = .ok m) : Item d src (depth + 1) m

theorem Reads.items {depth p r : Nat} {ns : List Node} (h : Reads d src depth p ns r) (hp : p ≤ src.size) :
    ∀ m ∈ ns, Item d src depth m ∧ p ≤ m.span.start := by
  induction h with
  | done => exact fun m hm => nomatch hm
  | semicolon skip char rest ih =>
    have hpq := (skipTrivia_bounds skip).1
    intro m hm
    obtain ⟨hitem, hle⟩ := ih (Array.getElem?_eq_some_iff.1 char).1 m hm
    exact ⟨hitem, by omega⟩
  | closed skip starts head node rest ih =>
    have hpq := (skipTrivia_bounds skip).1
    have hqs := (starts.scan_bounds head).1
    intro m hm
    rcases List.mem_cons.1 hm with rfl | hm
    · obtain rfl := headNode_start (le_trimEnd hqs) node
      exact ⟨.closed (skipTrivia_idem skip) starts head node, hpq⟩
    · obtain ⟨hitem, hle⟩ := ih (starts.stop_lt_size head) m hm
      exact ⟨hitem, by omega⟩
  | unclosed skip starts head char node =>
    intro m hm
    obtain rfl := List.mem_singleton.1 hm
    obtain rfl := headNode_start (le_trimEnd (starts.scan_bounds head).1) node
    exact ⟨.unclosed (skipTrivia_idem skip) starts head char node, (skipTrivia_bounds skip).1⟩
  | nested skip starts head inner trivia char node rest ihi ih =>
    have hpq := (skipTrivia_bounds skip).1
    have hqs := (starts.scan_bounds head).1
    have hlast := (inner.bounds (starts.stop_lt_size head)).1
    have hclose := (skipTrivia_bounds trivia).1
    intro m hm
    rcases List.mem_cons.1 hm with rfl | hm
    · obtain rfl := headNode_start (le_trimEnd hqs) node
      exact ⟨.nested (skipTrivia_idem skip) starts head inner trivia char node, hpq⟩
    · obtain ⟨hitem, hle⟩ := ih (Array.getElem?_eq_some_iff.1 char).1 m hm
      exact ⟨hitem, by omega⟩

/-- The statement before others ends before them; only the last one can be unclosed. -/
theorem Reads.getLast_of_unclosed {depth p r : Nat} {ns : List Node} (h : Reads d src depth p ns r)
    (hp : p ≤ src.size) : ∀ m ∈ ns, Unclosed d src m → ns.getLast? = some m := by
  induction ns generalizing p with
  | nil => exact fun m hm => nomatch hm
  | cons x rest ih =>
    intro m hm hun
    obtain ⟨before, hgap, hskip, hstarts, ⟨hclosed, hone, hrest⟩ | ⟨-, rfl, -⟩⟩ := h.uncons hp
    · rcases List.mem_cons.1 hm with rfl | hm
      · exact absurd hun hclosed
      · have hlast := ih hrest (hone.bounds (Nat.le_of_lt hstarts.lt_size)).2 m hm hun
        rw [List.getLast?_cons, hlast]
        rfl
    · rw [List.mem_singleton.1 hm]
      rfl

theorem not_blank_of_rest {pos : Nat} {c : Char} (h : skipTrivia d src pos = .ok pos)
    (hc : src[pos]? = some c) : isStyleBlank c = false := by
  rw [skipTrivia_of_char hc] at h
  by_cases hb : isStyleBlank c = true
  · rw [if_pos hb] at h
    have := (skipTrivia_bounds h).1
    omega
  · simpa using hb

/-- A statement covers its first character, and a second one if that is a slash. -/
theorem Item.bounds {depth : Nat} {m : Node} (h : Item d src depth m) :
    m.span.start < m.span.stop ∧ m.span.stop ≤ src.size ∧
      (src[m.span.start]? = some '/' → m.span.start + 1 < m.span.stop) := by
  cases h with
  | @closed _ stop _ rest starts head node =>
    obtain ⟨hle, -, hchar⟩ := starts.scan_bounds head
    have hlt := (Array.getElem?_eq_some_iff.1 hchar).1
    have hstop := headNode_stop (le_trimEnd hle) (by omega) node
    have := starts.lt_stop head (by decide)
    omega
  | @unclosed _ stop _ c rest starts head char node =>
    have hle := (starts.scan_bounds head).1
    have hsize := (starts.scan_bounds head).2.1
    have hlt := starts.lt_stop head (by rcases char with rfl | rfl <;> decide)
    have htrim := @trimEnd_le src m.span.start stop
    have htrim' := @le_trimEnd src _ _ hle
    have hstop := headNode_stop htrim' htrim' node
    have hne : m.span.start ≠ trimEnd src m.span.start stop := by
      intro heq
      obtain ⟨c, hc, hb⟩ := trimEnd_blank (Nat.le_of_eq heq.symm) hlt
      rw [not_blank_of_rest rest hc] at hb
      cases hb
    refine ⟨by omega, by omega, fun hc => ?_⟩
    rw [headNode, if_neg (by rw [hc]; decide)] at node
    -- the colon of a declaration is no slash
    simp only [declaration] at node
    split at node
    · cases node
    · cases node
    · rename_i colon hcolon
      have hb := findColon?_bounds hcolon
      have : colon ≠ m.span.start := by
        rintro rfl
        rw [hb.2.2] at hc
        cases hc
      omega
  | @nested _ brace last close _ _ rest starts head inner trivia char node =>
    obtain ⟨hle, -, hbrace⟩ := starts.scan_bounds head
    have hlt := (Array.getElem?_eq_some_iff.1 hbrace).1
    have hlast := (inner.bounds hlt).1
    have hclose := (skipTrivia_bounds trivia).1
    have hlt' := (Array.getElem?_eq_some_iff.1 char).1
    have hstop := headNode_stop (le_trimEnd hle) (by omega) node
    omega

theorem Item.rest {depth : Nat} {m : Node} (h : Item d src depth m) :
    skipTrivia d src m.span.start = .ok m.span.start ∧ Starts src m.span.start := by
  cases h with
  | closed rest starts => exact ⟨rest, starts⟩
  | unclosed rest starts => exact ⟨rest, starts⟩
  | nested rest starts => exact ⟨rest, starts⟩

/-- A statement that is not unclosed ends by itself. -/
theorem Item.of_closed {depth : Nat} {m : Node} (h : Item d src depth m) (hc : ¬ Unclosed d src m) :
    Reads d src depth m.span.start [m] m.span.stop ∧ ∃ stop c, scan d src m.span.start = .ok (stop, c) ∧
      (c = some ';' ∨ c = some '\x7b') ∧ stop < m.span.stop := by
  cases h with
  | @closed _ stop _ rest starts head node =>
    have hle := (starts.scan_bounds head).1
    have hstop := headNode_stop (le_trimEnd hle) (by omega) node
    refine ⟨?_, stop, _, head, .inl rfl, by omega⟩
    rw [hstop]
    exact .closed rest starts head node .done
  | @unclosed _ stop _ c rest starts head char node => exact absurd ⟨stop, c, head, char⟩ hc
  | @nested _ brace last close _ _ rest starts head inner trivia char node =>
    obtain ⟨hle, -, hbrace⟩ := starts.scan_bounds head
    have hlast := (inner.bounds (Array.getElem?_eq_some_iff.1 hbrace).1).1
    have hclose := (skipTrivia_bounds trivia).1
    have hstop := headNode_stop (le_trimEnd hle) (by omega) node
    refine ⟨?_, brace, _, head, .inr rfl, by omega⟩
    rw [hstop]
    exact .nested rest starts head inner trivia char node .done

theorem trimEnd_idem {start stop : Nat} :
    trimEnd src start (trimEnd src start stop) = trimEnd src start stop := by
  induction stop with
  | zero => rfl
  | succ k ih =>
    by_cases hc : start ≤ k ∧ (src[k]?).any isStyleBlank
    · rw [trimEnd, if_pos hc, ih]
    · rw [trimEnd, if_neg hc, trimEnd, if_neg hc]

/-- Where a statement is repeated, no trivia stands before it. -/
theorem Item.rest_agree {depth : Nat} {m : Node} (hi : Item d src depth m) {s : Nat}
    (h : Agree src src' m.span.start s (m.span.stop - m.span.start)) :
    skipTrivia d src' s = .ok s ∧ Starts src' s := by
  obtain ⟨hrest, hstarts⟩ := hi.rest
  obtain ⟨hlt, -, hslash⟩ := hi.bounds
  constructor
  · exact skipTrivia_agree_rest (j := 0) h (by omega) (fun hc => by have := hslash hc; omega) hrest
  · simpa using hstarts.move h (Nat.le_refl _) (by omega)

/-- **A closed statement is read where it is repeated.** -/
theorem Item.move {depth : Nat} {m : Node} (hi : Item d src depth m) (hc : ¬ Unclosed d src m)
    (h : Agree src src' a b n) (ha : a ≤ m.span.start) (hn : m.span.stop ≤ a + n)
    (hsplit : HeadsSplit src' [m.relocate a b]) :
    Reads d src' depth (b + (m.span.start - a)) [m.relocate a b] (b + (m.span.stop - a)) ∧
      ¬ Unclosed d src' (m.relocate a b) := by
  obtain ⟨hreads, stop, c, head, hchar, hstop⟩ := hi.of_closed hc
  obtain ⟨hrest, starts⟩ := hi.rest
  have hlt := starts.lt_size
  have hle := (starts.scan_bounds head).1
  refine ⟨hreads.move h ha (Nat.le_of_lt hlt) hn (.inr (List.forall_mem_singleton.2 hc)) hsplit, ?_⟩
  have hscan : scan d src' (b + (m.span.start - a)) = .ok (b + (stop - a), c) := by
    refine scanFrom_agree h (by omega) (by omega) ?_ ?_
    · exact Nat.le_of_lt (h.lt_size (i := m.span.start - a) (by omega) (by omega))
    · rw [Nat.add_sub_cancel' ha, Nat.add_sub_cancel' (Nat.le_trans ha hle)]
      exact head
  rw [← Span.relocate_start, ← Node.relocate_span] at hscan
  exact not_unclosed hscan hchar

end HouseStyle.Stylesheet
