import HouseStyle.Rule.PropertyOrder
import HouseStyle.Proofs.Stylesheet.Blocks
import HouseStyle.Proofs.Text.Lines

/-!
# Statements in other slots

The children of a block that take part in its order each stand in a slot. Putting
them in order fills the slots anew and leaves what stands between them where it is.

* `refill`, `place`: the text and the children of a block with its slots filled anew.
* `place_item`: a statement is read in another slot.
* `reads_place`: so is a whole block, if each statement that must close there does.
* `seals_of_reads`: and not otherwise.
-/

namespace HouseStyle.PropertyOrder

open Stylesheet
open Node (relocateList walkList)

variable {d : Dialect} {t : Source} {src' : Array Char}

/-- Whether a child of a block takes part in the order. -/
def isMovable (n : Node) : Bool :=
  (bucket? n).isSome

/-- The text from `old` on when the slots of some children hold other statements. -/
def refill (t : Source) (old : Nat) : List Node → List Node → List Char
  | m :: ms, q :: qs =>
    t.sliceChars old m.span.start ++ (statementText t q ++ refill t m.span.stop ms qs)
  | _, _ => t.chars.toList.drop old

theorem refill_nil (old : Nat) (queue : List Node) : refill t old [] queue = t.chars.toList.drop old :=
  rfl

/-- A child of a block in a slot that begins at `start`. -/
def inSlot (t : Source) (start : Nat) (q : Node) : Node :=
  (q.relocate q.span.start start).cover start (start + (statementText t q).length)

/-- The children of a block when their slots hold other statements; the text that
stood from `old` on stands from `new` on. -/
def place (t : Source) (old new : Nat) : List Node → List Node → List Node
  | _, [] => []
  | [], c :: rest => c.relocate old new :: place t old new [] rest
  | q :: queue, c :: rest =>
    if isMovable c then
      let start := new + (c.span.start - old)
      inSlot t start q :: place t c.span.stop (start + (statementText t q).length) queue rest
    else c.relocate old new :: place t old new (q :: queue) rest

/-- A text closes as a statement at its last character. -/
def ClosesAlone (d : Dialect) (text : List Char) : Prop :=
  Stylesheet.scan d text.toArray 0 = .ok (text.length - 1, some ';')

/-- **Each statement that must close in its new slot does**: those that others follow, and
those to which a semicolon was added. -/
def Seals (d : Dialect) (t : Source) (queue : List Node) : Prop :=
  ∀ before q after, queue = before ++ q :: after → isBlockless q = true →
    after ≠ [] ∨ statementText t q ≠ t.sliceChars q.span.start q.span.stop →
      ClosesAlone d (statementText t q)

theorem Seals.tail {q : Node} {queue : List Node} (h : Seals d t (q :: queue)) : Seals d t queue :=
  fun before x after heq => h (q :: before) x after (by rw [heq]; rfl)

/-! ### Texts -/

theorem agree_of_drop {a b s : Nat} {rest : List Char} (hb : b ≤ t.size)
    (h : src'.toList.drop s = t.sliceChars a b ++ rest) : Agree t.chars src' a s (b - a) := by
  intro i hi
  have hs : t.size = t.chars.size := rfl
  have hget : (src'.toList.drop s)[i]? = (t.sliceChars a b)[i]? := by
    rw [h, List.getElem?_append_left (by rw [Source.length_sliceChars hb]; exact hi)]
  rw [List.getElem?_drop, Array.getElem?_toList, Source.sliceChars, Array.getElem?_toList,
    Array.getElem?_extract, if_pos (by omega)] at hget
  exact hget.symm

theorem drop_of_drop {s : Nat} {w rest : List Char} (h : src'.toList.drop s = w ++ rest) :
    src'.toList.drop (s + w.length) = rest := by
  rw [← List.drop_drop, h, List.drop_left]

theorem le_size_of_drop {s : Nat} {w rest : List Char} (hw : 0 < w.length)
    (h : src'.toList.drop s = w ++ rest) : s + w.length ≤ src'.size := by
  have := congrArg List.length h
  rw [List.length_drop, List.length_append, Array.length_toList] at this
  omega

theorem agree_of_drop_all {old new : Nat} (h : src'.toList.drop new = t.chars.toList.drop old) :
    Agree t.chars src' old new (t.size - old + 1) ∧ src'.size - new = t.size - old := by
  have hlen := congrArg List.length h
  rw [List.length_drop, List.length_drop, Array.length_toList, Array.length_toList] at hlen
  refine ⟨fun i _ => ?_, hlen⟩
  rw [← Array.getElem?_toList, ← Array.getElem?_toList, ← List.getElem?_drop, ← List.getElem?_drop, h]

/-! ### One statement -/

theorem isBlockless_of_headNode {src : Array Char} {start headStop stop : Nat} {block : Option Node} {m : Node}
    (h : headNode src start headStop stop block = .ok m) : isBlockless m = block.isNone := by
  unfold headNode at h
  split at h
  · obtain ⟨name, prelude, mixin, rfl⟩ := atRule_shape h
    cases block <;> rfl
  · split at h
    · obtain ⟨list, -, rfl⟩ := rule_shape h
      rfl
    · obtain ⟨property, value, important, name, propertyStop, valueStart, rfl⟩ := declaration_shape h
      rfl

/-- The text of a statement in a slot is its own, or a semicolon was added. -/
theorem statementText_cases (t : Source) (q : Node) :
    statementText t q = t.sliceChars q.span.start q.span.stop ∨
      statementText t q = t.sliceChars q.span.start q.span.stop ++ [';'] := by
  unfold statementText
  by_cases hc : (isBlockless q && (t.sliceChars q.span.start q.span.stop).getLast? != some ';') = true
  · exact .inr (by simp only [hc, if_true])
  · exact .inl (by simp only [if_neg hc])

theorem statementText_prefix (t : Source) (q : Node) :
    ∃ extra, statementText t q = t.sliceChars q.span.start q.span.stop ++ extra := by
  rcases statementText_cases t q with h | h
  · exact ⟨[], by rw [h, List.append_nil]⟩
  · exact ⟨[';'], h⟩

theorem statementText_pos {depth : Nat} {q : Node} (h : Item d t.chars depth q) :
    0 < (statementText t q).length := by
  have hb := h.bounds
  obtain ⟨extra, hextra⟩ := statementText_prefix t q
  rw [hextra, List.length_append, Source.length_sliceChars hb.2.1]
  omega

/-- No trivia stands before a statement in a slot. -/
theorem rest_inSlot {depth s : Nat} {q : Node} (hq : Item d t.chars depth q) {tail : List Char}
    (htext : src'.toList.drop s = statementText t q ++ tail) : skipTrivia d src' s = .ok s := by
  obtain ⟨extra, hextra⟩ := statementText_prefix t q
  rw [hextra, List.append_assoc] at htext
  exact (hq.rest_agree (agree_of_drop hq.bounds.2.1 htext)).1

/-- Only a statement that is unclosed is given a semicolon. -/
theorem statementText_of_closed {depth : Nat} {q : Node} (h : Item d t.chars depth q)
    (hc : ¬ Unclosed d t.chars q) : statementText t q = t.sliceChars q.span.start q.span.stop := by
  have hb := h.bounds
  unfold statementText
  cases h with
  | @closed _ stop _ rest starts head node =>
    obtain ⟨hle, -, hchar⟩ := starts.scan_bounds head
    have hstop := headNode_stop (le_trimEnd hle) (by omega) node
    have hlast : (t.sliceChars q.span.start q.span.stop).getLast? = some ';' := by
      rw [Source.getLast?_sliceChars hb.1 hb.2.1, hstop]
      exact hchar
    simp only [hlast, bne_self_eq_false, Bool.and_false, Bool.false_eq_true, if_false]
  | @unclosed _ stop _ c rest starts head char node => exact absurd ⟨stop, c, head, char⟩ hc
  | nested rest starts head inner trivia char node =>
    have hblock : isBlockless q = false := isBlockless_of_headNode node
    simp only [hblock, Bool.false_and, Bool.false_eq_true, if_false]

/-- A statement in a slot stands there whole, with its semicolon. -/
theorem inSlot_span {s : Nat} {q : Node} :
    (inSlot t s q).span.start = s ∧ (inSlot t s q).span.stop = s + (statementText t q).length :=
  ⟨rfl, Nat.max_eq_right (by omega)⟩

/-- A statement in a slot that was given no semicolon is the statement moved. -/
theorem inSlot_of_text {start : Nat} {q : Node} (hb : q.span.stop ≤ t.size)
    (htext : statementText t q = t.sliceChars q.span.start q.span.stop) :
    inSlot t start q = q.relocate q.span.start start := by
  have hlen : (statementText t q).length = q.span.stop - q.span.start := by
    rw [htext, Source.length_sliceChars hb]
  have hle := q.span.start_le_stop
  cases q with
  | mk label span children =>
    rw [inSlot, hlen, Node.cover, Node.relocate]
    congr 1
    ext <;> simp only [Span.between_start, Span.between_stop, Span.relocate_start, Span.relocate_stop] <;> omega

/-- The text of an unclosed statement that closes by itself has been given a semicolon. -/
theorem statementText_of_sealed {depth : Nat} {q : Node} (h : Item d t.chars depth q)
    (hc : Unclosed d t.chars q) (hseal : ClosesAlone d (statementText t q)) :
    statementText t q = t.sliceChars q.span.start q.span.stop ++ [';'] := by
  have hb := h.bounds
  rcases statementText_cases t q with heq | heq
  swap
  · exact heq
  exfalso
  -- then the statement would close in its own place too
  have hlen : (statementText t q).length = q.span.stop - q.span.start := by
    rw [heq, Source.length_sliceChars hb.2.1]
  have hagree : Agree (statementText t q).toArray t.chars 0 q.span.start (statementText t q).length := by
    intro i hi
    rw [heq, Source.sliceChars, Nat.zero_add, Array.toArray_toList, Array.getElem?_extract,
      if_pos (by have hs : t.size = t.chars.size := rfl; omega)]
  have hscan : Stylesheet.scan d t.chars q.span.start =
      .ok (q.span.start + ((statementText t q).length - 1), some ';') := by
    refine scan_agree hagree (show (statementText t q).length - 1 < _ by omega) (Nat.zero_le _) (by omega) ?_
    rw [Nat.zero_add]
    exact hseal
  exact not_unclosed hscan (.inl rfl) hc

/-- An unclosed statement that was given a semicolon is read in another slot. -/
theorem place_unclosed {depth s : Nat} {q : Node} (hq : Item d t.chars depth q) {tail : List Char}
    (htext : src'.toList.drop s = statementText t q ++ tail) (hun : Unclosed d t.chars q)
    (hseal : ClosesAlone d (statementText t q)) :
    Reads d src' depth s [inSlot t s q] (s + (statementText t q).length) ∧
      ¬ Unclosed d src' (inSlot t s q) := by
  have hb := hq.bounds
  have hadded := statementText_of_sealed hq hun hseal
  obtain ⟨l, hl⟩ := Nat.exists_eq_add_of_le (Nat.le_of_lt hb.1)
  have hlen : (statementText t q).length = l + 1 := by
    rw [hadded, List.length_append, Source.length_sliceChars hb.2.1, hl, Nat.add_sub_cancel_left]
    rfl
  have hsize := le_size_of_drop (by omega) htext
  -- the head now ends at the semicolon
  have hscan : Stylesheet.scan d src' s = .ok (s + l, some ';') := by
    have hwhole : Agree (statementText t q).toArray src' 0 s (statementText t q).length := by
      intro i hi
      rw [Nat.zero_add, List.getElem?_toArray, ← Array.getElem?_toList, ← List.getElem?_drop, htext,
        List.getElem?_append_left hi]
    refine scan_agree hwhole (show l < _ by omega) (Nat.zero_le _) (by omega) ?_
    rw [Nat.zero_add, show l = (statementText t q).length - 1 by omega]
    exact hseal
  have htext' : src'.toList.drop s = t.sliceChars q.span.start q.span.stop ++ (';' :: tail) := by
    rw [htext, hadded, List.append_assoc]
    rfl
  have hagree := agree_of_drop hb.2.1 htext'
  obtain ⟨hrest', hstarts'⟩ := hq.rest_agree hagree
  -- and it says what it said
  cases hq with
  | closed _ _ head => exact absurd hun (not_unclosed head (.inl rfl))
  | nested _ _ head => exact absurd hun (not_unclosed head (.inr rfl))
  | @unclosed _ stop _ c rest starts head char node =>
    have hqt := @le_trimEnd t.chars _ _ (starts.scan_bounds head).1
    have hstop : trimEnd t.chars q.span.start stop = q.span.start + l := by
      rw [← headNode_stop hqt hqt node, hl]
    rw [hl, Nat.add_sub_cancel_left] at hagree
    have htrim : trimEnd src' s (s + l) = s + l := by
      obtain ⟨u, -, -, h1, h2⟩ := trimEnd_agree hagree (s := 0) (l := l) (Nat.zero_le _) (Nat.le_refl _)
      rw [Nat.add_zero, ← hstop, trimEnd_idem, hstop] at h1
      rw [Nat.add_zero] at h2
      omega
    have hnode : headNode src' s (s + l) (s + l + 1) none = .ok (inSlot t s q) := by
      rw [hstop] at node
      have := headNode_agree_none (s := 0) (l := l) hagree (s + l + 1) (fun _ => by omega)
        (by omega) (Nat.le_refl l) node
      rw [inSlot, hlen]
      exact this
    rw [hlen]
    exact ⟨.closed hrest' hstarts' hscan (by rw [htrim]; exact hnode) .done,
      not_unclosed hscan (.inl rfl)⟩

/-- **A statement is read in another slot**, if it closes there. -/
theorem place_item {depth s : Nat} {q : Node} (hq : Item d t.chars depth q) {tail : List Char}
    (htext : src'.toList.drop s = statementText t q ++ tail) (hsplit : HeadsSplit src' [inSlot t s q])
    (hseal : Unclosed d t.chars q → ClosesAlone d (statementText t q)) :
    Reads d src' depth s [inSlot t s q] (s + (statementText t q).length) ∧
      ¬ Unclosed d src' (inSlot t s q) := by
  by_cases hun : Unclosed d t.chars q
  · exact place_unclosed hq htext hun (hseal hun)
  · have hb := hq.bounds
    rw [statementText_of_closed hq hun] at htext ⊢
    rw [Source.length_sliceChars hb.2.1]
    rw [inSlot_of_text hb.2.1 (statementText_of_closed hq hun)] at hsplit ⊢
    have := hq.move hun (agree_of_drop hb.2.1 htext) (Nat.le_refl _) (by omega) hsplit
    rw [Nat.sub_self, Nat.add_zero] at this
    exact this

/-! ### A whole block -/

/-- Up to the next slot the text stays as it was. -/
theorem agree_of_refill {old new stop : Nat} {ms queue : List Node}
    (htext : src'.toList.drop new = refill t old ms queue) (hstop : stop ≤ t.size)
    (hms : ∀ m ∈ ms, stop ≤ m.span.start ∧ m.span.start ≤ t.size) :
    Agree t.chars src' old new (stop - old) := by
  unfold refill at htext
  split at htext
  · rename_i m ms q qs
    have hm := hms m List.mem_cons_self
    exact (agree_of_drop hm.2 htext).mono (by omega)
  · exact (agree_of_drop_all htext).1.mono (by omega)

/-- What was trimmed of the text before a slot leads to the slot. -/
theorem reads_gap {depth p before start old new : Nat} (hgap : Reads d t.chars depth p [] before)
    (hskip : skipTrivia d t.chars before = .ok start) (hp : old ≤ p) (hpt : p ≤ t.size)
    (hstart : start < t.size)
    (h : Agree t.chars src' old new (start - old))
    (hrest : skipTrivia d src' (new + (start - old)) = .ok (new + (start - old))) {m : Node} {ns : List Node}
    {r : Nat} (hreads : Reads d src' depth (new + (start - old)) (m :: ns) r) :
    Reads d src' depth (new + (p - old)) (m :: ns) r := by
  have hb := (hgap.bounds hpt).1
  have hle := (skipTrivia_bounds hskip).1
  have hs : t.size = t.chars.size := rfl
  have hmoved := hgap.move h hp hpt (by omega) (.inr fun _ hm => nomatch hm) headsSplit_nil
  have hskip' : skipTrivia d src' (new + (before - old)) = .ok (new + (start - old)) := by
    refine skipTrivia_agree h (Nat.le_refl _) (fun _ => by omega) hrest ?_
    rw [Nat.add_sub_cancel' (show old ≤ before by omega), Nat.add_sub_cancel' (show old ≤ start by omega)]
    exact hskip
  exact hmoved.append (fun _ hm => nomatch hm) (hreads.after_trivia hskip')

theorem isBlockless_of_unclosed {depth : Nat} {q : Node} (h : Item d t.chars depth q)
    (hun : Unclosed d t.chars q) : isBlockless q = true := by
  cases h with
  | closed _ _ head => exact absurd hun (not_unclosed head (.inl rfl))
  | unclosed _ _ _ _ node => exact isBlockless_of_headNode node
  | nested _ _ head => exact absurd hun (not_unclosed head (.inr rfl))

/-- What fills the slots of a block: its own statements, as many as slots are left, of
which only the last child of the block can be unclosed. -/
structure Fills (d : Dialect) (t : Source) (depth : Nat) (queue ns : List Node) : Prop where
  length : queue.length = (ns.filter isMovable).length
  items : ∀ q ∈ queue, Item d t.chars depth q
  movable : ∀ q ∈ queue, isMovable q = true
  last : ∀ q ∈ queue, Unclosed d t.chars q → ns.getLast? = some q

theorem Fills.fixed {depth : Nat} {queue ns : List Node} {c : Node} (h : Fills d t depth queue (c :: ns))
    (hc : isMovable c = false) : Fills d t depth queue ns := by
  have hfilter : (c :: ns).filter isMovable = ns.filter isMovable := by
    rw [List.filter_cons, hc]
    rfl
  refine ⟨by rw [h.length, hfilter], h.items, h.movable, fun q hq hun => ?_⟩
  have hlast := h.last q hq hun
  cases ns with
  | nil =>
    have hlen := h.length
    rw [hfilter] at hlen
    rw [List.length_eq_zero_iff.1 hlen] at hq
    cases hq
  | cons x rest => rwa [List.getLast?_cons_cons] at hlast

theorem Fills.slot {depth : Nat} {queue ns : List Node} {q c : Node}
    (h : Fills d t depth (q :: queue) (c :: ns))
    (hc : isMovable c = true) : Fills d t depth queue ns := by
  have hfilter : (c :: ns).filter isMovable = c :: ns.filter isMovable := by
    rw [List.filter_cons, hc]
    rfl
  have hlen : queue.length = (ns.filter isMovable).length := by
    have := h.length
    rw [hfilter] at this
    simpa using this
  refine ⟨hlen, fun x hx => h.items x (List.mem_cons_of_mem _ hx),
    fun x hx => h.movable x (List.mem_cons_of_mem _ hx), fun x hx hun => ?_⟩
  have hlast := h.last x (List.mem_cons_of_mem _ hx) hun
  cases ns with
  | nil =>
    rw [List.length_eq_zero_iff.1 hlen] at hx
    cases hx
  | cons y rest => rwa [List.getLast?_cons_cons] at hlast

/-- The last slot left, if an unclosed statement fills it, is its own. -/
theorem Fills.own {depth : Nat} {ns : List Node} {q c : Node} (h : Fills d t depth [q] (c :: ns))
    (hc : isMovable c = true) (hun : Unclosed d t.chars q) : ns = [] ∧ q = c := by
  have hlast := h.last q List.mem_cons_self hun
  have hlen := (h.slot hc).length
  cases ns with
  | nil =>
    cases hlast
    exact ⟨rfl, rfl⟩
  | cons y rest =>
    rw [List.getLast?_cons_cons] at hlast
    have hmem := List.mem_filter.2 ⟨List.mem_of_getLast? hlast, h.movable q List.mem_cons_self⟩
    rw [List.length_eq_zero_iff.1 hlen.symm] at hmem
    cases hmem

theorem place_fixed {old new : Nat} {queue ns : List Node} {c : Node} (hc : isMovable c = false) :
    place t old new queue (c :: ns) = c.relocate old new :: place t old new queue ns := by
  cases queue with
  | nil => rw [place]
  | cons q queue => rw [place, hc, if_neg Bool.false_ne_true]

theorem place_slot {old new : Nat} {queue ns : List Node} {q c : Node} (hc : isMovable c = true) :
    place t old new (q :: queue) (c :: ns) =
      inSlot t (new + (c.span.start - old)) q ::
        place t c.span.stop (new + (c.span.start - old) + (statementText t q).length) queue ns := by
  rw [place, if_pos hc]

/-- The end of a block that is left as it was. -/
theorem reads_tail {depth close p r old new : Nat} {ns : List Node} (hr : Reads d t.chars depth p ns r)
    (hchar : t.chars[close]? = some '}') (htail : skipTrivia d t.chars r = .ok close) (hop : old ≤ p)
    (hpt : p ≤ t.size) (htext : src'.toList.drop new = t.chars.toList.drop old)
    (hsplit : HeadsSplit src' (relocateList old new ns)) :
    ∃ r', Reads d src' depth (new + (p - old)) (relocateList old new ns) r' ∧
      skipTrivia d src' r' = .ok (src'.size - (t.size - close)) := by
  have hs : t.size = t.chars.size := rfl
  have hclose := (Array.getElem?_eq_some_iff.1 hchar).1
  have hb := hr.bounds hpt
  have hle := (skipTrivia_bounds htail).1
  obtain ⟨hagree, hsize⟩ := agree_of_drop_all htext
  have hskip := skipTrivia_move hagree (show old ≤ r by omega) (by omega)
    (fun hc => by rw [hchar] at hc; cases hc) htail
  refine ⟨_, hr.move hagree hop hpt (by omega) (.inl (by omega)) hsplit, ?_⟩
  rw [hskip]
  congr 1
  omega

/-- **A block whose slots are filled anew is read**, if each statement that must close in
its new slot does. By induction on the children of the block: the text from `new` on
is always the refilled text from `old` on. -/
theorem reads_place {depth close : Nat} (hchar : t.chars[close]? = some '}') {ns : List Node} :
    ∀ {p r old new : Nat} {queue : List Node}, Reads d t.chars depth p ns r →
      skipTrivia d t.chars r = .ok close → old ≤ p → p ≤ t.size → new ≤ src'.size →
      src'.toList.drop new = refill t old (ns.filter isMovable) queue → Fills d t depth queue ns →
      Seals d t queue → HeadsSplit src' (place t old new queue ns) →
      ∃ r', Reads d src' depth (new + (p - old)) (place t old new queue ns) r' ∧
        skipTrivia d src' r' = .ok (src'.size - (t.size - close)) := by
  have hclose : close < t.size := (Array.getElem?_eq_some_iff.1 hchar).1
  have hs : t.size = t.chars.size := rfl
  induction ns with
  | nil =>
    intro p r old new queue hr htail hop hpt hnew htext hfills _ hsplit
    obtain rfl : queue = [] := List.length_eq_zero_iff.1 hfills.length
    rw [place] at hsplit ⊢
    exact reads_tail hr hchar htail hop hpt htext hsplit
  | cons c ns ih =>
    intro p r old new queue hr htail hop hpt hnew htext hfills hseals hsplit
    have hitem := (hr.items hpt c List.mem_cons_self).1
    have hcb := hitem.bounds
    obtain ⟨before, hgap, hskip, hstarts, hform⟩ := hr.uncons hpt
    have hb := (hgap.bounds hpt).1
    have hle := (skipTrivia_bounds hskip).1
    -- what follows the statement, which is nothing if that is unclosed
    obtain ⟨r₂, hrest, htail₂⟩ : ∃ r₂, Reads d t.chars depth c.span.stop ns r₂ ∧
        skipTrivia d t.chars r₂ = .ok close := by
      rcases hform with ⟨-, -, hrest⟩ | ⟨-, rfl, -, hstop, hend⟩
      · exact ⟨r, hrest, htail⟩
      · rw [hend] at htail
        exact ⟨c.span.stop, .done, hstop.trans htail⟩
    have hafter : ∀ m ∈ ns.filter isMovable, c.span.stop ≤ m.span.start ∧ m.span.start ≤ t.size := by
      intro m hm
      obtain ⟨hmi, hmle⟩ := hrest.items hcb.2.1 m (List.mem_filter.1 hm).1
      exact ⟨hmle, Nat.le_of_lt hmi.rest.2.lt_size⟩
    by_cases hc : isMovable c = true
    · cases queue with
      | nil =>
        have hlen := hfills.length
        rw [List.filter_cons, if_pos hc] at hlen
        cases hlen
      | cons q queue =>
        rw [List.filter_cons, if_pos hc, refill] at htext
        rw [place_slot hc] at hsplit ⊢
        obtain ⟨hslot, hplaced⟩ := HeadsSplit.cons.1 hsplit
        have hagree := agree_of_drop (show c.span.start ≤ t.size by omega) htext
        have hdrop := drop_of_drop htext
        rw [Source.length_sliceChars (show c.span.start ≤ t.size by omega)] at hdrop
        set s := new + (c.span.start - old) with hsdef
        have hq := hfills.items q List.mem_cons_self
        have hqb := hq.bounds
        have hrest' := rest_inSlot hq hdrop
        -- it is enough to read on from the slot
        suffices h : ∃ r', Reads d src' depth s (inSlot t s q ::
            place t c.span.stop (s + (statementText t q).length) queue ns) r' ∧
            skipTrivia d src' r' = .ok (src'.size - (t.size - close)) by
          obtain ⟨r', hr', hskip'⟩ := h
          exact ⟨r', reads_gap hgap hskip hop hpt (by omega) hagree hrest' hr', hskip'⟩
        by_cases hown : Unclosed d t.chars q ∧ queue = [] ∧
            statementText t q = t.sliceChars q.span.start q.span.stop
        · -- an unclosed statement that got no semicolon is back in its own slot
          obtain ⟨hun, rfl, htextq⟩ := hown
          obtain ⟨rfl, rfl⟩ := hfills.own hc hun
          rcases hform with ⟨hclosed, -⟩ | ⟨-, -, hone, -, hend⟩
          · exact absurd hun hclosed
          rw [place] at hsplit ⊢
          rw [inSlot_of_text hqb.2.1 htextq] at hslot ⊢
          rw [htextq, List.filter_nil, refill_nil, Source.sliceChars_append_drop (Nat.le_of_lt hqb.1)] at hdrop
          have := reads_tail hone hchar htail (Nat.le_refl _) (by omega) hdrop hslot
          rw [Nat.sub_self, Nat.add_zero] at this
          exact this
        · have hseal : Unclosed d t.chars q → ClosesAlone d (statementText t q) := by
            intro hun
            refine hseals [] q queue rfl (isBlockless_of_unclosed hq hun) ?_
            by_contra hnot
            push Not at hnot
            exact hown ⟨hun, hnot.1, hnot.2⟩
          obtain ⟨hone, hclosed⟩ := place_item hq hdrop hslot hseal
          obtain ⟨r', hr', hskip'⟩ := ih hrest htail₂ (Nat.le_refl _) hcb.2.1
            (le_size_of_drop (statementText_pos hq) hdrop) (drop_of_drop hdrop) (hfills.slot hc) hseals.tail hplaced
          rw [Nat.sub_self, Nat.add_zero] at hr'
          exact ⟨r', hone.append (List.forall_mem_singleton.2 hclosed) hr', hskip'⟩
    · have hcf : isMovable c = false := by simpa using hc
      rw [List.filter_cons, if_neg hc] at htext
      rw [place_fixed hcf] at hsplit ⊢
      obtain ⟨hmoved, hplaced⟩ := HeadsSplit.cons.1 hsplit
      rcases hform with ⟨hun, -, -⟩ | ⟨-, rfl, -, -, hend⟩
      · have hagree := agree_of_refill htext hcb.2.1 hafter
        obtain ⟨hone, hclosed⟩ := hitem.move hun hagree (by omega) (by omega) hmoved
        obtain ⟨r', hr', hskip'⟩ := ih hrest htail₂ (by omega) hcb.2.1 hnew htext (hfills.fixed hcf) hseals
          hplaced
        have hrest' : skipTrivia d src' (new + (c.span.start - old)) = .ok (new + (c.span.start - old)) := by
          have := hagree.drop (c.span.start - old)
          rw [Nat.add_sub_cancel' (show old ≤ c.span.start by omega)] at this
          exact (hitem.rest_agree (this.mono (by omega))).1
        exact ⟨r', reads_gap hgap hskip hop hpt (by omega) (hagree.mono (by omega)) hrest'
          (hone.append (List.forall_mem_singleton.2 hclosed) hr'), hskip'⟩
      · obtain rfl : queue = [] := List.length_eq_zero_iff.1 (hfills.fixed hcf).length
        rw [place] at hsplit ⊢
        exact reads_tail hr hchar htail hop hpt htext hsplit

/-! ### The condition is exact -/

theorem length_place {ns : List Node} : ∀ {old new : Nat} {queue : List Node},
    (place t old new queue ns).length = ns.length := by
  induction ns with
  | nil => intro old new queue; rw [place]
  | cons c ns ih =>
    intro old new queue
    cases queue with
    | nil => rw [place, List.length_cons, List.length_cons, ih]
    | cons q queue =>
      by_cases hc : isMovable c = true
      · rw [place_slot hc, List.length_cons, List.length_cons, ih]
      · rw [place_fixed (by simpa using hc), List.length_cons, List.length_cons, ih]

/-- Where no child is left, nothing is left to fill slots with. -/
theorem Fills.queue_nil {depth old new : Nat} {queue ns : List Node} (h : Fills d t depth queue ns)
    (hnil : place t old new queue ns = []) : queue = [] := by
  have hzero := congrArg List.length hnil
  rw [length_place] at hzero
  have hlen := h.length
  rw [List.length_eq_zero_iff.1 hzero] at hlen
  exact List.length_eq_zero_iff.1 hlen

/-- A statement that is read in a slot, and is closed there, closes by itself. -/
theorem closesAlone_of_closed {k s : Nat} {q : Node} {tail : List Char} (hw : 0 < (statementText t q).length)
    (htext : src'.toList.drop s = statementText t q ++ tail) (hq : Item d src' k (inSlot t s q))
    (hc : ¬ Unclosed d src' (inSlot t s q)) (hb : isBlockless q = true) :
    ClosesAlone d (statementText t q) := by
  have hstart : (inSlot t s q).span.start = s := inSlot_span.1
  have hstop : (inSlot t s q).span.stop = s + (statementText t q).length := inSlot_span.2
  have hblockless : isBlockless (inSlot t s q) = true := by
    have hlabel : (inSlot t s q).label = q.label := Node.relocate_label q
    unfold isBlockless at hb ⊢
    rw [hlabel]
    exact hb
  cases hq with
  | @closed _ stop _ rest starts head node =>
    -- its head ends at its last character, which its text alone tells
    have hle := (starts.scan_bounds head).1
    have hstop' := headNode_stop (le_trimEnd hle) (by omega) node
    rw [hstart] at head hle
    have hagree : Agree src' (statementText t q).toArray s 0 (statementText t q).length := by
      intro i hi
      rw [Nat.zero_add, List.getElem?_toArray, ← Array.getElem?_toList, ← List.getElem?_drop, htext,
        List.getElem?_append_left hi]
    have hscan : Stylesheet.scan d src' s = .ok (s + ((statementText t q).length - 1), some ';') := by
      rw [head]
      congr 2
      omega
    have := scan_agree hagree (show (statementText t q).length - 1 < _ by omega)
      (by rw [← hstart]; exact Nat.le_of_lt starts.lt_size) (Nat.zero_le _) hscan
    rw [Nat.zero_add] at this
    exact this
  | unclosed _ _ head char => exact absurd ⟨_, _, head, char⟩ hc
  | nested _ _ _ _ _ _ node =>
    rw [isBlockless_of_headNode node] at hblockless
    cases hblockless

/-- A statement that was given a semicolon is not unclosed in its slot: it would say
something else there. -/
theorem closed_of_added {depth k s : Nat} {q : Node} {tail : List Char} (hq : Item d t.chars depth q)
    (hadded : statementText t q ≠ t.sliceChars q.span.start q.span.stop)
    (htext : src'.toList.drop s = statementText t q ++ tail) (hi : Item d src' k (inSlot t s q)) :
    ¬ Unclosed d src' (inSlot t s q) := by
  intro hun
  have hb := hq.bounds
  have hun' : Unclosed d t.chars q := by
    by_contra hc
    exact hadded (statementText_of_closed hq hc)
  have hsemi := (statementText_cases t q).resolve_left hadded
  obtain ⟨l, hl⟩ := Nat.exists_eq_add_of_le (Nat.le_of_lt hb.1)
  have hslice : (t.sliceChars q.span.start q.span.stop).length = l := by
    rw [Source.length_sliceChars hb.2.1, hl, Nat.add_sub_cancel_left]
  have hlen : (statementText t q).length = l + 1 := by
    rw [hsemi, List.length_append, hslice]
    rfl
  rw [hsemi, List.append_assoc] at htext
  have hagree := agree_of_drop hb.2.1 htext
  rw [hl, Nat.add_sub_cancel_left] at hagree
  have hchar : src'[s + l]? = some ';' := by
    rw [← Array.getElem?_toList, ← List.getElem?_drop, htext,
      List.getElem?_append_right (Nat.le_of_eq hslice), hslice, Nat.sub_self]
    rfl
  -- what it says without the semicolon, and what it would say with it
  have hwithout : headNode src' s (s + l) (s + l + 1) none = .ok (inSlot t s q) := by
    cases hq with
    | closed _ _ head => exact absurd hun' (not_unclosed head (.inl rfl))
    | nested _ _ head => exact absurd hun' (not_unclosed head (.inr rfl))
    | unclosed _ starts head _ node =>
      have hqt := @le_trimEnd t.chars _ _ (starts.scan_bounds head).1
      rw [← headNode_stop hqt hqt node, hl] at node
      rw [inSlot, hlen]
      exact headNode_agree_none (s := 0) (l := l) hagree (s + l + 1) (fun _ => by omega)
        (by omega) (Nat.le_refl l) node
  have hstart : (inSlot t s q).span.start = s := inSlot_span.1
  have hstop : (inSlot t s q).span.stop = s + l + 1 := by rw [inSlot_span.2, hlen]; rfl
  cases hi with
  | closed _ _ head => exact not_unclosed head (.inl rfl) hun
  | nested _ _ head => exact not_unclosed head (.inr rfl) hun
  | unclosed _ starts head _ node =>
    have hqt := @le_trimEnd src' _ _ (starts.scan_bounds head).1
    rw [← headNode_stop hqt hqt node, hstart, hstop] at node
    exact headNode_headStop (by omega) hchar hwithout node

/-- **A block whose slots are filled anew is read only if each statement that must close
in its new slot does.** -/
theorem seals_of_reads {depth k : Nat} {ns : List Node} :
    ∀ {p r old new : Nat} {queue : List Node}, Reads d src' k p (place t old new queue ns) r →
      p ≤ src'.size → src'.toList.drop new = refill t old (ns.filter isMovable) queue →
      (∀ m ∈ ns, m.span.start ≤ t.size) → Fills d t depth queue ns → Seals d t queue := by
  induction ns with
  | nil =>
    intro p r old new queue _ _ _ _ hfills
    obtain rfl : queue = [] := List.length_eq_zero_iff.1 hfills.length
    intro before q after heq
    cases before <;> cases heq
  | cons c ns ih =>
    intro p r old new queue hr hp htext hns hfills
    by_cases hc : isMovable c = true
    · cases queue with
      | nil =>
        have hlen := hfills.length
        rw [List.filter_cons, if_pos hc] at hlen
        cases hlen
      | cons q queue =>
        rw [List.filter_cons, if_pos hc, refill] at htext
        rw [place_slot hc] at hr
        have hcb := hns c List.mem_cons_self
        have hdrop := drop_of_drop htext
        rw [Source.length_sliceChars hcb] at hdrop
        have hq := hfills.items q List.mem_cons_self
        have hqb := hq.bounds
        have hitem := (hr.items hp _ List.mem_cons_self).1
        obtain ⟨before, hgap, hskip, hstarts, hform⟩ := hr.uncons hp
        intro before' x after heq hbx hmust
        cases before' with
        | nil =>
          -- the statement in this slot
          cases heq
          refine closesAlone_of_closed (statementText_pos hq) hdrop hitem ?_ hbx
          rcases hform with ⟨hclosed, -⟩ | ⟨-, hnil, -⟩
          · exact hclosed
          · -- nothing follows an unclosed statement, so it was given a semicolon
            rcases hmust with hne | hadded
            · exact absurd ((hfills.slot hc).queue_nil hnil) hne
            · exact closed_of_added hq hadded hdrop hitem
        | cons y before' =>
          -- one in a later slot
          cases heq
          rcases hform with ⟨-, hone, hrest⟩ | ⟨-, hnil, -⟩
          · have hseals := ih hrest (hone.bounds (Nat.le_of_lt hstarts.lt_size)).2 (drop_of_drop hdrop)
              (fun m hm => hns m (List.mem_cons_of_mem _ hm)) (hfills.slot hc)
            exact hseals before' x after rfl hbx hmust
          · have hempty := (hfills.slot hc).queue_nil hnil
            cases before' <;> cases hempty
    · have hcf : isMovable c = false := by simpa using hc
      rw [List.filter_cons, if_neg hc] at htext
      rw [place_fixed hcf] at hr
      obtain ⟨before, hgap, hskip, hstarts, ⟨-, hone, hrest⟩ | ⟨-, hnil, -⟩⟩ := hr.uncons hp
      · exact ih hrest (hone.bounds (Nat.le_of_lt hstarts.lt_size)).2 htext
          (fun m hm => hns m (List.mem_cons_of_mem _ hm)) (hfills.fixed hcf)
      · obtain rfl := (hfills.fixed hcf).queue_nil hnil
        intro before' x after heq
        cases before' <;> cases heq

end HouseStyle.PropertyOrder
