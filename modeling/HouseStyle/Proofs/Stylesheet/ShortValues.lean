import HouseStyle.Proofs.Stylesheet.Selectors
import HouseStyle.Proofs.Stylesheet.Shortening
import HouseStyle.Proofs.Stylesheet.Values
import Mathlib.Order.MinMax

/-!
# Stylesheets whose values have become shorter

Where stretches of inert characters inside of the values of a stylesheet have become single ones, the
text is read as before: its tree has the same nodes but for what its values tell, each at the place
where it stood.

* `KeptBut`: a place that was kept, or that belongs to a value.
* `headNode_shorten`, `Reads.shorten`: a statement, and the statements between two places.
* `parse_shorten`: a whole text, its tree and the text around its values.
-/

namespace HouseStyle.Stylesheet

open Cursor (skipWhile le_skipWhile)
open Node (walk walkList sketchList)

variable {d : Dialect} {src src' : Array Char} {origin : Nat → Nat}

theorem between_max {place : Nat → Nat} (hplace : Monotone place) (start stop : Nat) :
    Span.between (place start) (place (max start stop)) = .between (place start) (place stop) := by
  ext
  · rfl
  · rw [Span.between_stop, Span.between_stop, Monotone.map_max hplace, ← Nat.max_assoc, Nat.max_self]

theorem sketch_nodeOf {place : Nat → Nat} (hplace : Monotone place) (form : Form) (start stop : Nat)
    (children : List Node) : (nodeOf form start stop children).sketch place =
      ⟨.style form.sketch, .between (place start) (place stop), sketchList place children⟩ := by
  rw [nodeOf, Node.sketch, Span.between_start, Span.between_stop, between_max hplace]
  rfl

/-! ### Stretches without values -/

/-- All characters between two places were kept. -/
def Untouched (src src' : Array Char) (origin : Nat → Nat) (start stop : Nat) : Prop :=
  ∀ z, start ≤ z → z < stop → Kept src src' origin z

section

variable {start stop : Nat} (h : Untouched src src' origin start stop)

include h

theorem Untouched.origin_add {i : Nat} (hi : start + i ≤ stop) : origin (start + i) = origin start + i := by
  induction i with
  | zero => rfl
  | succ i ih => rw [← Nat.add_assoc, (h (start + i) (Nat.le_add_right _ _) hi).succ, ih (by omega), Nat.add_assoc]

theorem Untouched.agree : Agree src src' (origin start) start (stop - start) := fun i hi => by
  rw [← h.origin_add (show start + i ≤ stop by omega), (h (start + i) (by omega) (by omega)).char]

theorem Untouched.text (hle : start ≤ stop) :
    Cursor.text src' start stop = Cursor.text src (origin start) (origin stop) := by
  obtain ⟨n, rfl⟩ := Nat.exists_eq_add_of_le hle
  have htext := text_agree h.agree (i := 0) (Nat.le_refl _)
  rw [Nat.add_sub_cancel_left, Nat.add_zero, Nat.add_zero] at htext
  rw [htext, h.origin_add (Nat.le_refl _)]

/-- The stretch with the character after it. -/
theorem Untouched.agree_succ (hle : start ≤ stop) (hchar : src[origin stop]? = src'[stop]?) :
    Agree src src' (origin start) start (stop + 1 - start) := fun i hi => by
  rcases Nat.lt_or_eq_of_le (show start + i ≤ stop by omega) with hlt | heq
  · exact h.agree i (by omega)
  · rw [← h.origin_add (Nat.le_of_eq heq), heq, hchar]

end

/-- A place whose character was kept, or that belongs to a value among some trees. -/
def KeptBut (src src' : Array Char) (origin : Nat → Nat) (ns : List Node) (z : Nat) : Prop :=
  Kept src src' origin z ∨ ∃ v ∈ walkList ns, v.label.isValue = true ∧ v.span.start ≤ origin z ∧
    origin (z + 1) ≤ v.span.stop

section

variable {m : Node} {ns : List Node} {z : Nat}

theorem KeptBut.kept (h : KeptBut src src' origin ns z)
    (hns : ∀ v ∈ walkList ns, v.label.isValue = true →
      ¬ (v.span.start ≤ origin z ∧ origin (z + 1) ≤ v.span.stop)) : Kept src src' origin z := by
  rcases h with hkept | ⟨v, hv, hvalue, hin⟩
  · exact hkept
  · exact absurd hin (hns v hv hvalue)

theorem keptBut_cons : KeptBut src src' origin (m :: ns) z ↔
    KeptBut src src' origin [m] z ∨ KeptBut src src' origin ns z := by
  unfold KeptBut
  rw [Node.walkList_cons, Node.walkList_cons, walkList, List.append_nil]
  constructor
  · rintro (hkept | ⟨v, hv, hin⟩)
    · exact .inl (.inl hkept)
    · rcases List.mem_append.1 hv with hv | hv
      · exact .inl (.inr ⟨v, hv, hin⟩)
      · exact .inr (.inr ⟨v, hv, hin⟩)
  · rintro ((hkept | ⟨v, hv, hin⟩) | (hkept | ⟨v, hv, hin⟩))
    · exact .inl hkept
    · exact .inr ⟨v, List.mem_append_left _ hv, hin⟩
    · exact .inl hkept
    · exact .inr ⟨v, List.mem_append_right _ hv, hin⟩

/-- A place that stands before what was read, or after it, belongs to no value of it. -/
theorem Reads.kept {depth p r : Nat} (hr : Reads d src depth p ns r) (hp : p ≤ src.size)
    (h : KeptBut src src' origin ns z) (hz : origin z < p ∨ r < origin (z + 1)) : Kept src src' origin z :=
  h.kept fun v hv hl hin => by
    obtain ⟨hstart, hstop⟩ := hr.value_inside hp hv hl
    omega

/-- The values of a node that is none stand below it. -/
theorem KeptBut.children (hm : m.label.isValue = false) (h : KeptBut src src' origin [m] z) :
    KeptBut src src' origin m.children z := by
  rcases h with hkept | ⟨v, hv, hl, hin⟩
  · exact .inl hkept
  · rw [Node.walkList_cons, walkList, List.append_nil, Node.walk_eq, List.mem_cons] at hv
    rcases hv with rfl | hv
    · rw [hl] at hm
      cases hm
    · exact .inr ⟨v, hv, hl, hin⟩

/-- The values of a statement with a block stand in the block. -/
theorem KeptBut.below {start headStop stop : Nat} {b : Node} (hb : b.label.isValue = false)
    (node : headNode src start headStop stop (some b) = .ok m) (h : KeptBut src src' origin [m] z) :
    KeptBut src src' origin b.children z := by
  rcases h with hkept | ⟨v, hv, hl, hin⟩
  · exact .inl hkept
  · rw [Node.walkList_cons, walkList, List.append_nil] at hv
    rcases headNode_value (by rintro _ ⟨⟩; exact hb) node hv hl with ⟨b', hb', hv⟩ | ⟨hnone, -⟩
    · cases hb'
      exact .inr ⟨v, hv, hl, hin⟩
    · cases hnone

end

/-! ### Heads -/

/-- The parts of the head of a rule or of an at-rule: none, or its selectors. -/
theorem headNode_selectors {start headStop stop : Nat} {block : Option Node} {m : Node}
    (h : headNode src start headStop stop block = .ok m) (hhead : src[start]? = some '@' ∨ block.isSome = true)
    {parts : List Node} (hparts : m.children = parts ++ block.toList) :
    parts = [] ∨ ∃ list, parts = [list] ∧ selectorList src start headStop = .ok list := by
  unfold headNode at h
  split at h
  · obtain ⟨name, prelude, mixin, rfl⟩ := atRule_shape h
    exact .inl (List.self_eq_append_left.1 hparts)
  · rename_i hat
    split at h
    · obtain ⟨list, hlist, rfl⟩ := rule_shape h
      exact .inr ⟨list, List.append_cancel_right hparts.symm, hlist⟩
    · exact absurd (hhead.resolve_left hat) (by decide)

section

variable (h : Shortens src src' origin)

include h

/-- The selectors of a head that was kept. -/
theorem selectorList_untouched {start stop headStop : Nat} (huntouched : Untouched src src' origin start stop)
    (hle : start ≤ headStop) (hstop : headStop ≤ stop) (hsize : origin headStop ≤ src.size)
    (hchar : src[origin stop]? = src'[stop]?) (hlast : src[origin headStop]? ≠ some '#') {list : Node}
    (hlist : selectorList src (origin start) (origin headStop) = .ok list) :
    selectorList src' start headStop = .ok (list.relocate (origin start) start) ∧
      (list.relocate (origin start) start).sketch origin = list.sketch id := by
  have hagree := huntouched.agree_succ (Nat.le_trans hle hstop) hchar
  have hinside := inside_of_nested list fun y hy => (selectorList_wellFormed (h.le_iff.2 hle) hsize hlist y hy).nested
  have hspan : list.span = .between (origin start) (origin headStop) := by rw [(selectorList_shape hlist).1]; rfl
  obtain ⟨l, rfl⟩ := Nat.exists_eq_add_of_le hle
  have hplace {i : Nat} (hi : i ≤ l) : origin (start + i) = origin start + i := huntouched.origin_add (by omega)
  constructor
  · rw [hplace (Nat.le_refl l)] at hlist hsize hlast
    obtain ⟨list', hlist'⟩ := selectorList_repeated hagree (l := l) (by omega) (fun i hi r hr => by
      rw [← hplace (Nat.le_of_lt hi), quotedEnd?_origin h] at hr
      obtain ⟨r', hr', -⟩ := of_traced_ok hr
      exact ⟨r', hr'⟩) (Nat.zero_le _) hsize hlist
    rw [← selectorList_agree hagree (Nat.zero_le l) (by omega) hsize hlast hlist hlist']
    exact hlist'
  · rw [hspan, Span.between_start, Span.between_stop, Nat.max_eq_right (h.le_iff.2 hle)] at hinside
    -- a place of the head stands where it stood
    have hback {k : Nat} (hk : origin start ≤ k) (hkl : k ≤ origin (start + l)) :
        origin (start + (k - origin start)) = k := by
      rw [hplace (Nat.le_refl l)] at hkl
      rw [hplace (by omega)]
      omega
    refine Node.sketch_relocate list fun x hx => ?_
    obtain ⟨hstart, hstop⟩ := hinside x hx
    have hx := x.span.start_le_stop
    exact ⟨hback hstart (Nat.le_trans hx hstop), hback (Nat.le_trans hstart hx) hstop⟩

/-- **A rule or an at-rule whose head was kept** is read as it was. -/
theorem headNode_untouched {start stop e : Nat} {c : Option Char} {block block' : Option Node} {m : Node}
    (huntouched : Untouched src src' origin start stop) (starts : Starts src (origin start))
    (head : scan d src (origin start) = .ok (origin stop, c)) (hchar : src[origin stop]? = src'[stop]?)
    (node : headNode src (origin start) (trimEnd src (origin start) (origin stop)) (origin e) block = .ok m)
    (hhead : src[origin start]? = some '@' ∨ block.isSome = true) (hblock : block'.isSome = block.isSome)
    (hsketch : sketchList origin block'.toList = sketchList id block.toList) :
    ∃ m', headNode src' start (trimEnd src' start stop) e block' = .ok m' ∧ m'.sketch origin = m.sketch id := by
  have hle : start ≤ stop := h.le_iff.1 (starts.scan_bounds head).1
  have hstop : start + (origin stop - origin start) = stop := by
    obtain ⟨i, rfl⟩ := Nat.exists_eq_add_of_le hle
    rw [huntouched.origin_add (Nat.le_refl _), Nat.add_sub_cancel_left]
  obtain ⟨-, -, parts, hshape, hmove⟩ := head_move (huntouched.agree_succ hle hchar) (Nat.le_refl _) (by omega)
    starts head block' hblock node
  rw [Nat.sub_self, Nat.add_zero, hstop] at hmove
  -- the parts of the head split, and stand where they stood
  have hparts : HeadsSplit src' (Node.relocateList (origin start) start parts) ∧
      sketchList origin (Node.relocateList (origin start) start parts) = sketchList id parts := by
    rcases headNode_selectors node hhead (congrArg Node.children hshape) with rfl | ⟨list, rfl, hlist⟩
    · exact ⟨headsSplit_nil, rfl⟩
    · have hlast := starts.trimEnd_ne head
      have hsize : trimEnd src (origin start) (origin stop) ≤ src.size :=
        Nat.le_trans trimEnd_le (starts.scan_bounds head).2.1
      rw [trimEnd_origin h] at hlast hlist hsize
      obtain ⟨hlist', hsame⟩ := selectorList_untouched h huntouched (le_trimEnd hle) trimEnd_le hsize hchar hlast hlist
      exact ⟨headsSplit_selectorList (le_trimEnd hle) hlist', congrArg ([·]) hsame⟩
  refine ⟨_, hmove e hparts.1, ?_⟩
  have hid (a b : Nat) : Span.between a (max a b) = .between a b := between_max monotone_id a b
  rw [hshape]
  simp only [Node.sketch, Node.sketchList_append, hparts.2, hsketch, Span.between_start, Span.between_stop,
    between_max h.strictMono.monotone, hid, id_eq]

/-- **A declaration whose property was kept** is read as it was, but for its value. -/
theorem declaration_shorten {start bodyStop stop : Nat} (hsize : bodyStop ≤ src'.size) {m : Node}
    (node : declaration src (origin start) (origin bodyStop) (origin stop) = .ok m)
    (hkept : ∀ z, start ≤ z → z < bodyStop → KeptBut src src' origin [m] z) :
    ∃ m', declaration src' start bodyStop stop = .ok m' ∧ m'.sketch origin = m.sketch id := by
  have hmono := h.strictMono.monotone
  obtain ⟨colon, hcolon⟩ := findColon?_of_declaration node
  have hfound := hcolon
  rw [findColon?_origin h hsize] at hfound
  obtain ⟨colon?, hc, hsome⟩ := of_traced_ok hfound
  obtain ⟨colon', rfl, rfl⟩ := Option.map_eq_some_iff.1 hsome
  obtain ⟨h1, h2, h3⟩ := findColon?_bounds hc
  have htrimle := @trimEnd_le src' start colon'
  -- what stands before the colon does not belong to the value
  have hproperty : Untouched src src' origin start (trimEnd src' start colon') := fun z hz hlt =>
    (hkept z hz (by omega)).kept fun v hv hl hin => by
      rw [Node.walkList_cons, walkList, List.append_nil] at hv
      obtain ⟨k, hk, hstart, -⟩ := declaration_value node hv hl
      obtain rfl : k = origin colon' := (Option.some.inj (Except.ok.inj (hcolon.symm.trans hk))).symm
      have hle := @le_skipWhile isStyleBlank src (origin bodyStop) (origin colon' + 1)
      have hlt := h.lt_iff.2 (show z < colon' by omega)
      omega
  have htext := hproperty.text (le_trimEnd h1)
  rw [← trimEnd_origin h] at htext
  have hvalue := skipWhile_origin h bodyStop (colon' + 1)
  rw [h.succ_of_char h3 (by decide)] at hvalue
  obtain ⟨important, hm⟩ := declaration_of_colon hcolon (origin stop)
  obtain ⟨important', hm'⟩ := declaration_of_colon hc stop
  cases hm.symm.trans node
  refine ⟨_, hm', ?_⟩
  simp only [sketch_nodeOf hmono, sketch_nodeOf monotone_id, sketchList, Form.sketch, htext, hvalue,
    trimEnd_origin h, id_eq]

theorem Starts.shorten {start : Nat} (starts : Starts src (origin start)) : Starts src' start := by
  obtain ⟨c, hc, hbrace, hsemi⟩ := starts
  have hlt := h.lt_size_iff.1 (Array.getElem?_eq_some_iff.1 hc).1
  have hne {x : Char} (hx : isInert x = false) (hcx : c ≠ x) : src'[start] ≠ x := by
    rintro rfl
    rw [(h.char_iff hx).2 (Array.getElem?_eq_getElem hlt)] at hc
    exact hcx (Option.some.inj hc).symm
  exact ⟨_, Array.getElem?_eq_getElem hlt, hne (by decide) hbrace, hne (by decide) hsemi⟩

/-- **A statement without a block** is read as it was, if all of it but its value was kept. -/
theorem headNode_shorten {start stop e : Nat} {c : Option Char} {m : Node} (starts : Starts src (origin start))
    (head' : scan d src' start = .ok (stop, c))
    (node : headNode src (origin start) (trimEnd src (origin start) (origin stop)) (origin e) none = .ok m)
    (hkept : ∀ z, start ≤ z → z < stop → KeptBut src src' origin [m] z) :
    ∃ m', headNode src' start (trimEnd src' start stop) e none = .ok m' ∧ m'.sketch origin = m.sketch id := by
  have head : scan d src (origin start) = .ok (origin stop, c) := by rw [scan_origin h, head']; rfl
  have hchar := (starts.scan_bounds head).2.2
  obtain ⟨-, hsize, hchar'⟩ := (starts.shorten h).scan_bounds head'
  by_cases hat : src[origin start]? = some '@'
  · -- an at-rule has no value
    have huntouched : Untouched src src' origin start stop := fun z hz hlt =>
      (hkept z hz hlt).kept fun v hv hl => by
        rw [Node.walkList_cons, walkList, List.append_nil] at hv
        rcases headNode_value (by rintro _ ⟨⟩) node hv hl with ⟨b, hb, -⟩ | ⟨-, hat'⟩
        · cases hb
        · exact absurd hat hat'
    exact headNode_untouched h huntouched starts head (hchar.trans hchar'.symm) node (.inl hat) rfl rfl
  · have hat' : src'[start]? ≠ some '@' := mt (h.char_iff (by decide)).2 hat
    have htrimle := @trimEnd_le src' start stop
    rw [headNode, if_neg hat, trimEnd_origin h] at node
    rw [headNode, if_neg hat']
    exact declaration_shorten h (Nat.le_trans htrimle hsize) node fun z hz hlt =>
      hkept z hz (Nat.lt_of_lt_of_le hlt htrimle)

/-! ### Statements -/

/-- **Statements of which all but the values was kept** are read as they were, by induction on the
reading. -/
theorem Reads.shorten {depth p r : Nat} {ns : List Node} (hr : Reads d src depth p ns r) {start : Nat}
    (hp : origin start = p) (hkept : ∀ z, start ≤ z → origin z < r → KeptBut src src' origin ns z) :
    ∃ ns' stop, origin stop = r ∧ Reads d src' depth start ns' stop ∧
      sketchList origin ns' = sketchList id ns := by
  -- what a step finds in the text it finds in the shortened one
  have hskip {p q start : Nat} (hp : origin start = p) (skip : skipTrivia d src p = .ok q) :
      ∃ q', origin q' = q ∧ skipTrivia d src' start = .ok q' ∧ start ≤ q' := by
    rw [← hp, skipTrivia_origin h] at skip
    obtain ⟨q', hq', heq⟩ := of_traced_ok skip
    exact ⟨q', heq, hq', (skipTrivia_bounds hq').1⟩
  have hscan {q start stop : Nat} {c : Option Char} (hq : origin start = q) (starts : Starts src q)
      (head : scan d src q = .ok (stop, c)) :
      ∃ stop', origin stop' = stop ∧ scan d src' start = .ok (stop', c) ∧ start ≤ stop' := by
    have hle := (starts.scan_bounds head).1
    rw [← hq, scan_origin h] at head
    obtain ⟨⟨stop', c'⟩, hs, heq⟩ := of_traced_ok head
    cases heq
    exact ⟨stop', rfl, hs, h.le_iff.1 (hq ▸ hle)⟩
  have hchar {q : Nat} {c : Char} (hc : isInert c = false) (char : src[origin q]? = some c) :
      src'[q]? = some c ∧ origin (q + 1) = origin q + 1 :=
    ⟨(h.char_iff hc).1 char, h.succ_of_char ((h.char_iff hc).1 char) hc⟩
  induction hr generalizing start with
  | done => exact ⟨[], start, hp, .done, rfl⟩
  | semicolon skip char rest ih =>
    obtain ⟨q', rfl, skip', hle⟩ := hskip hp skip
    obtain ⟨char', hsucc⟩ := hchar (by decide) char
    obtain ⟨ns', stop, hstop, hreads, hsketch⟩ :=
      ih hsucc fun z hz hlt => hkept z (Nat.le_trans hle (Nat.le_of_succ_le hz)) hlt
    exact ⟨ns', stop, hstop, .semicolon skip' char' hreads, hsketch⟩
  | @closed depth p q stop r m ns skip starts head node rest ih =>
    obtain ⟨q', rfl, skip', hle⟩ := hskip hp skip
    obtain ⟨stop', rfl, head', hqs⟩ := hscan rfl starts head
    have hsize := starts.stop_lt_size head
    obtain ⟨-, hsucc⟩ := hchar (by decide) (starts.scan_bounds head).2.2
    have hr := (rest.bounds hsize).1
    have hone : Reads d src depth (origin q') [m] (origin stop' + 1) :=
      .closed (skipTrivia_idem skip) starts head node .done
    rw [← hsucc] at node hone rest hr
    obtain ⟨m', node', hm'⟩ := headNode_shorten h starts head' node fun z hz hlt => by
      have hlt := h.lt_iff.2 (Nat.lt_succ_of_lt hlt)
      exact (keptBut_cons.1 (hkept z (Nat.le_trans hle hz) (Nat.lt_of_lt_of_le hlt hr))).elim id
        fun hns => .inl (rest.kept (hsucc ▸ hsize) hns (.inl hlt))
    obtain ⟨ns', r', hr', hreads, hsketch⟩ := ih hsucc fun z hz hlt =>
      (keptBut_cons.1 (hkept z (by omega) hlt)).elim
        (fun hm => .inl (hone.kept (Nat.le_of_lt starts.lt_size) hm (.inr (h.lt_iff.2 (Nat.lt_succ_of_le hz))))) id
    exact ⟨m' :: ns', r', hr', .closed skip' (starts.shorten h) head' node' hreads, by
      rw [sketchList, sketchList, hm', hsketch]⟩
  | @unclosed depth p q stop m c skip starts head char node =>
    obtain ⟨q', rfl, skip', hle⟩ := hskip hp skip
    obtain ⟨stop', rfl, head', -⟩ := hscan rfl starts head
    have htrim := trimEnd_origin h q' stop'
    obtain ⟨m', node', hm'⟩ := headNode_shorten (e := trimEnd src' q' stop') h starts head' (by rwa [htrim] at node ⊢)
      fun z hz hlt => hkept z (Nat.le_trans hle hz) (h.lt_iff.2 hlt)
    exact ⟨[m'], stop', rfl, .unclosed skip' (starts.shorten h) head' char node', by
      rw [sketchList, sketchList, hm']; rfl⟩
  | @nested depth p q brace last close r children ns m skip starts head inner trivia char node rest ihi ih =>
    obtain ⟨q', rfl, skip', hle⟩ := hskip hp skip
    obtain ⟨brace', rfl, head', hqb⟩ := hscan rfl starts head
    have hsize := starts.stop_lt_size head
    have hclose := (Array.getElem?_eq_some_iff.1 char).1
    have hlast := (skipTrivia_bounds trivia).1
    have hr := (rest.bounds hclose).1
    have hin := (inner.bounds hsize).1
    obtain ⟨hbrace, hbsucc⟩ := hchar (by decide) (starts.scan_bounds head).2.2
    have hone : Reads d src (depth + 1) (origin q') [m] (close + 1) :=
      .nested (skipTrivia_idem skip) starts head inner trivia char node .done
    -- a place before the brace that closes the block
    have hbelow {z : Nat} (hz : q' ≤ z) (hlt : origin z < close + 1) : KeptBut src src' origin children z :=
      (keptBut_cons.1 (hkept z (Nat.le_trans hle hz) (Nat.lt_of_lt_of_le hlt hr))).elim
        (KeptBut.below rfl node) fun hns => .inl (rest.kept hclose hns (.inl hlt))
    obtain ⟨children', last', hlast', inner', hchildren⟩ := ihi hbsucc fun z hz hlt =>
      hbelow (Nat.le_trans hqb (Nat.le_of_succ_le hz)) (by omega)
    obtain ⟨close', rfl, trivia', hlc⟩ := hskip hlast' trivia
    obtain ⟨char', hsucc⟩ := hchar (by decide) char
    have hbc : brace' < close' := h.lt_iff.1 (by omega)
    have huntouched : Untouched src src' origin q' brace' := fun z hz hlt => by
      have hlt := h.lt_iff.2 hlt
      exact inner.kept hsize (hbelow hz (by omega)) (.inl (by omega))
    obtain ⟨m', node', hm'⟩ : ∃ m', headNode src' q' (trimEnd src' q' brace') (close' + 1)
        (some (nodeOf .block brace' (close' + 1) children')) = .ok m' ∧ m'.sketch origin = m.sketch id := by
      rw [← hsucc] at node
      refine headNode_untouched h huntouched starts head ((starts.scan_bounds head).2.2.trans hbrace.symm) node
        (.inr rfl) rfl ?_
      simp only [Option.toList_some, sketchList, sketch_nodeOf h.strictMono.monotone, sketch_nodeOf monotone_id,
        hchildren, id_eq]
    obtain ⟨ns', r', hr', hreads, hsketch⟩ := ih hsucc fun z hz hlt => by
      have hafter := h.lt_iff.2 (Nat.lt_succ_of_le hz)
      rw [hsucc] at hafter
      exact (keptBut_cons.1 (hkept z (by omega) hlt)).elim
        (fun hm => .inl (hone.kept (Nat.le_of_lt starts.lt_size) hm (.inr hafter))) id
    exact ⟨m' :: ns', r', hr', .nested skip' (starts.shorten h) head' inner' trivia' char' node' hreads, by
      rw [sketchList, sketchList, hm', hsketch]⟩

/-! ### Texts -/

/-- The text around some stretches is that around the stretches where they stood. -/
theorem textAround_shorten {spans : List Span} (hordered : spans.Pairwise fun s t => s.stop ≤ t.start) {start : Nat}
    (hstart : ∀ s ∈ spans, start ≤ s.start) (hsize : start ≤ src'.size) (hstop : ∀ s ∈ spans, s.stop ≤ src'.size)
    (hkept : ∀ z, start ≤ z → z < src'.size → Kept src src' origin z ∨ ∃ s ∈ spans, s.start ≤ z ∧ z < s.stop) :
    textAround src' start spans =
      textAround src (origin start) (spans.map fun s => .between (origin s.start) (origin s.stop)) := by
  induction spans generalizing start with
  | nil =>
    have huntouched : Untouched src src' origin start src'.size := fun z hz hlt =>
      (hkept z hz hlt).resolve_right fun ⟨s, hs, _⟩ => nomatch hs
    rw [List.map_nil, textAround, textAround, huntouched.text hsize, h.size]
  | cons s rest ih =>
    rw [List.pairwise_cons] at hordered
    rw [List.forall_mem_cons] at hstart hstop
    have hs := s.start_le_stop
    have huntouched : Untouched src src' origin start s.start := fun z hz hlt => by
      rcases hkept z hz (by omega) with hkept | ⟨t, ht, hin⟩
      · exact hkept
      · rcases List.mem_cons.1 ht with rfl | ht
        · omega
        · have := hordered.1 t ht
          omega
    have hrest := ih hordered.2 hordered.1 hstop.1 hstop.2 fun z hz hlt => by
      rcases hkept z (by omega) hlt with hkept | ⟨t, ht, hin⟩
      · exact .inl hkept
      · rcases List.mem_cons.1 ht with rfl | ht
        · omega
        · exact .inr ⟨t, ht, hin⟩
    rw [List.map_cons, textAround, textAround, huntouched.text hstart.1, hrest, Span.between_start,
      Span.between_stop, Nat.max_eq_right (h.le_iff.2 hs)]

/-- **A stylesheet of which all but the values was kept** is read as it was. -/
theorem parse_shorten {tree : Node} (hparse : parse d src = .ok tree)
    (hkept : ∀ z < src'.size, KeptBut src src' origin [tree] z) :
    ∃ tree', parse d src' = .ok tree' ∧ AlikeButValues src tree src' tree' := by
  obtain ⟨ns, r, hr, htail, rfl⟩ := parse_iff.1 hparse
  have hsize := (hr.bounds (Nat.zero_le _)).2
  obtain ⟨ns', r', rfl, hr', hns⟩ := hr.shorten h h.zero fun z _ hlt =>
    (hkept z (h.lt_size_iff.1 (Nat.lt_of_lt_of_le hlt hsize))).children rfl
  have htail' : skipTrivia d src' r' = .ok src'.size := by
    rw [skipTrivia_origin h] at htail
    obtain ⟨q, hq, heq⟩ := of_traced_ok htail
    obtain rfl : q = src'.size := h.strictMono.injective (heq.trans h.size.symm)
    exact hq
  have hparse' := parse_iff.2 ⟨ns', r', hr', htail', rfl⟩
  have hsketch : (nodeOf .stylesheet 0 src'.size ns').sketch origin = (nodeOf .stylesheet 0 src.size ns).sketch id := by
    rw [sketch_nodeOf h.strictMono.monotone, sketch_nodeOf monotone_id, hns, h.zero, h.size, id_eq, id_eq]
  refine ⟨_, hparse', Node.skeleton_of_sketch hsketch, ?_⟩
  generalize nodeOf .stylesheet 0 src'.size ns' = tree' at hparse' hsketch
  generalize nodeOf .stylesheet 0 src.size ns = tree at hparse hsketch hkept
  -- the values stand where they stood
  have hvalues : tree.values = tree'.values.map fun s => .between (origin s.start) (origin s.stop) := by
    have hsame := congrArg Node.values hsketch
    have hid : (fun s : Span => Span.between (id s.start) (id s.stop)) = id :=
      funext fun s => Span.ext rfl (Nat.max_eq_right s.start_le_stop)
    rw [Node.values_sketch, Node.values_sketch, hid, List.map_id] at hsame
    exact hsame.symm
  rw [textAround_shorten h (values_ordered tree' fun y hy => wellFormed_of_parse hparse' hy) (fun s _ => Nat.zero_le _) (Nat.zero_le _), h.zero, hvalues]
  · intro s hs
    obtain ⟨v, hv, rfl⟩ := List.mem_map.1 hs
    exact stop_le_size hparse' (List.mem_filter.1 hv).1
  · intro z _ hlt
    rcases hkept z hlt with hkept | ⟨v, hv, hl, hstart, hstop⟩
    · exact .inl hkept
    · rw [Node.walkList_cons, walkList, List.append_nil] at hv
      have hmem : v.span ∈ tree.values := List.mem_map_of_mem (List.mem_filter.2 ⟨hv, hl⟩)
      rw [hvalues] at hmem
      obtain ⟨s, hs, heq⟩ := List.mem_map.1 hmem
      rw [← heq, Span.between_start, h.le_iff] at hstart
      rw [← heq, Span.between_stop, Nat.max_eq_right (h.le_iff.2 s.start_le_stop), h.le_iff] at hstop
      exact .inr ⟨s, hs, hstart, hstop⟩

end

end HouseStyle.Stylesheet
