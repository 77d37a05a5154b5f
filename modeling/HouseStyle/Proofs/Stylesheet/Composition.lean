import HouseStyle.Proofs.Parse.Parsed
import HouseStyle.Proofs.Stylesheet.Ahead
import HouseStyle.Proofs.Stylesheet.Lossless
import HouseStyle.Proofs.Stylesheet.Selectors

/-!
# Stylesheets compose

A stylesheet that ends with its last statement and with a line can be followed by another one. What
is read of the first does not reach into the second, and what is read of the second does not look
back (`statements_shift`).

* `selectorList_before`: a head splits in a text that goes on.
* `Reads.before`: statements are read in a text that goes on.
* `parse_append`: the statements of two texts, or the fault of the second one.
-/

namespace HouseStyle.Stylesheet

open Cursor (find skipWhile)
open Node (relocateList walkList)

variable {d : Dialect} {src post : Array Char}

/-! ### Heads in a text that goes on -/

theorem agree_append : Agree src (src ++ post) 0 0 src.size := fun i hi => by
  rw [Nat.zero_add, Array.getElem?_append_left hi]

theorem getElem?_before {pos : Nat} (h : pos < src.size) : (src ++ post)[pos]? = src[pos]? :=
  Array.getElem?_append_left h

theorem quotedEnd?_before {pos : Nat} (hpos : pos + 1 < src.size) {stop? : Option Nat}
    (h : quotedEnd? src pos = .ok stop?) : quotedEnd? (src ++ post) pos = .ok stop? := by
  rw [← Nat.zero_add pos] at h ⊢
  cases stop? with
  | none => exact quotedEnd?_agree_none agree_append (by omega) (fun _ => hpos) h
  | some stop =>
    have hstop := (quotedEnd?_bounds h).2
    rw [← Nat.zero_add stop] at h ⊢
    exact quotedEnd?_agree agree_append hstop h

/-- **A head that splits into selectors does so in a text that goes on.** -/
theorem selectorList_before {start stop : Nat} (hle : start ≤ stop) (hstop : stop < src.size) {list : Node}
    (h : selectorList src start stop = .ok list) :
    ∃ list', selectorList (src ++ post) start stop = .ok list' := by
  have hsplit := @selectorList_repeated _ _ _ _ _ (@agree_append src post) stop hstop
  simp only [Nat.zero_add] at hsplit
  exact hsplit (fun i hi r hr => ⟨r, quotedEnd?_before (by omega) hr⟩) hle (Nat.le_of_lt hstop) h

/-! ### Statements in a text that goes on -/

/-- The heads of what was read split in a text that goes on: a brace follows each of them. -/
theorem Reads.splits_before {depth p r : Nat} {ns : List Node} (h : Reads d src depth p ns r) :
    HeadsSplit (src ++ post) ns := by
  intro x hx hl
  obtain ⟨k, m, stop, -, starts, -, -, head, hlist⟩ := h.rule_of_selectorList hx hl
  have hstop := starts.stop_lt_size head
  have htrim := @trimEnd_le src m.span.start stop
  obtain ⟨list', hlist'⟩ := @selectorList_before src post _ _ (starts.le_trimEnd head) (by omega) _ hlist
  rw [(selectorList_shape hlist).1]
  refine ⟨list', ?_⟩
  simpa [nodeOf, Nat.max_eq_right (starts.le_trimEnd head)] using hlist'

/-- No statement is unclosed where none runs to the end of the text. -/
theorem Reads.closed_of_end {depth p r : Nat} {ns : List Node} (h : Reads d src depth p ns r)
    (htail : skipTrivia d src r = .ok src.size)
    (hends : ∀ m ∈ ns, scan d src m.span.start ≠ .ok (src.size, none)) :
    ∀ m ∈ ns, ¬ Unclosed d src m := by
  induction h with
  | done => exact List.forall_mem_nil _
  | semicolon skip char rest ih => exact ih htail hends
  | closed skip starts head node rest ih =>
    obtain rfl := headNode_start (starts.le_trimEnd head) node
    obtain ⟨-, hns⟩ := List.forall_mem_cons.1 hends
    exact List.forall_mem_cons.2 ⟨not_unclosed head (.inl rfl), ih htail hns⟩
  | @unclosed depth p q stop m c skip starts head char node =>
    obtain rfl := headNode_start (starts.le_trimEnd head) node
    obtain ⟨-, hle, hchar⟩ := starts.scan_bounds head
    rcases char with rfl | rfl
    · -- a brace is no trivia
      rw [skipTrivia_of_plain hchar (by decide) (by decide)] at htail
      cases htail
      rw [Array.getElem?_eq_none (Nat.le_refl _)] at hchar
      cases hchar
    · obtain rfl : stop = src.size := Nat.le_antisymm hle (Array.getElem?_eq_none_iff.1 hchar)
      exact absurd head (hends m (List.mem_singleton_self m))
  | nested skip starts head inner trivia char node rest ihi ih =>
    obtain rfl := headNode_start (starts.le_trimEnd head) node
    obtain ⟨-, hns⟩ := List.forall_mem_cons.1 hends
    exact List.forall_mem_cons.2 ⟨not_unclosed head (.inr rfl), ih htail hns⟩

/-- **Statements that end by themselves are read in a text that goes on.** -/
theorem Reads.before {depth p r : Nat} {ns : List Node} (h : Reads d src depth p ns r) (hp : p ≤ src.size)
    (hclosed : ∀ m ∈ ns, ¬ Unclosed d src m) :
    Reads d (src ++ post) depth p ns r ∧ ∀ m ∈ ns, ¬ Unclosed d (src ++ post) m := by
  have hself : relocateList 0 0 ns = ns := Node.relocateList_self _ fun _ _ => Nat.zero_le _
  have hsplit : HeadsSplit (src ++ post) (relocateList 0 0 ns) := by
    rw [hself]
    exact h.splits_before
  have hr := (h.bounds hp).2
  constructor
  · have := h.move agree_append (Nat.zero_le p) hp (by omega) (.inr hclosed) hsplit
    rwa [hself, Nat.sub_zero, Nat.sub_zero, Nat.zero_add, Nat.zero_add] at this
  · intro m hm
    have hitem := (h.items hp m hm).1
    obtain ⟨-, stop, c, head, hc, hstop⟩ := hitem.of_closed (hclosed m hm)
    obtain ⟨hlt, hsize, -⟩ := hitem.bounds
    have := @scanFrom_agree d _ _ _ _ _ (@agree_append src post) 0 m.span.start stop c (by omega) (by omega)
      (by rw [Array.size_append]; omega)
    rw [Nat.zero_add, Nat.zero_add] at this
    exact not_unclosed (this head) hc

/-- What is read after statements that end by themselves is read after them. -/
theorem Reads.statements_append {depth p r : Nat} {ns : List Node} (h : Reads d src depth p ns r)
    (hclosed : ∀ m ∈ ns, ¬ Unclosed d src m) (opening : Option Nat) :
    Stylesheet.statements d src (blockAt d src depth) opening p =
      (Stylesheet.statements d src (blockAt d src depth) opening r).map fun (ms, stop) => (ns ++ ms, stop) := by
  induction h with
  | @done depth p =>
    cases Stylesheet.statements d src (blockAt d src depth) opening p <;> rfl
  | semicolon skip char rest ih =>
    rw [statements_of_char skip char, if_neg (by decide), if_pos rfl]
    exact ih hclosed
  | @closed depth p q stop r m ns skip starts head node rest ih =>
    have hle := (starts.scan_bounds head).1
    obtain ⟨-, hns⟩ := List.forall_mem_cons.1 hclosed
    obtain ⟨c, hc, hb, hsemi⟩ := starts
    rw [statements_of_char skip hc, if_neg hb, if_neg hsemi, statement_unfold head, if_neg (by decide),
      if_pos rfl, node]
    simp only [Except.map, Except.bind, if_pos (Nat.lt_succ_of_le hle), ih hns]
    cases Stylesheet.statements d src (blockAt d src depth) opening r <;> rfl
  | @unclosed depth p q stop m c skip starts head char node =>
    have hq := headNode_start (starts.le_trimEnd head) node
    exact absurd ⟨stop, c, by rw [hq]; exact head, char⟩ (hclosed m (List.mem_singleton_self m))
  | @nested depth p q brace last close r children ns m skip starts head inner trivia char node rest ihi ih =>
    have hlt := starts.stop_lt_size head
    have hle := (starts.scan_bounds head).1
    have hlast := (inner.bounds hlt).1
    have hclose := (skipTrivia_bounds trivia).1
    obtain ⟨-, hns⟩ := List.forall_mem_cons.1 hclosed
    have hblock : blockAt d src (depth + 1) brace = .ok (nodeOf .block brace (close + 1) children) := by
      rw [blockAt, inner.statements hlt trivia (show Ends src (some brace) close from char)]
    have hstop : (nodeOf .block brace (close + 1) children).span.stop = close + 1 :=
      Nat.max_eq_right (by omega)
    obtain ⟨c, hc, hb, hsemi⟩ := starts
    rw [statements_of_char skip hc, if_neg hb, if_neg hsemi, statement_unfold head, if_pos rfl, hblock]
    simp only [Except.bind, hstop, node, Except.map]
    rw [if_pos (by omega), ih hns]
    cases Stylesheet.statements d src (blockAt d src (depth + 1)) opening r <;> rfl

/-! ### The trivia at the end of a text -/

/-- No comment takes the end of a line with it. -/
theorem Comment.last {start stop : Nat} (h : Comment d src start stop) : src[stop - 1]? ≠ some '\n' := by
  cases h with
  | block slash star le close first =>
    rw [close.2]
    decide
  | line scss slash slash' le inner close => exact inner _ (by omega) (by omega)

/-- Trivia that leads to the end of a text leads, in a text that goes on after the line, to what
follows. -/
theorem skipTrivia_lastLine (hfeed : src.back? = some '\n') {pos : Nat} (h : skipTrivia d src pos = .ok src.size) :
    skipTrivia d (src ++ post) pos = skipTrivia d (src ++ post) src.size := by
  fun_induction skipTrivia d src pos with
  | case1 pos hlt hc ih =>
    rw [skipTrivia_of_char ((getElem?_before hlt).trans (Array.getElem?_eq_getElem hlt)), if_pos hc]
    exact ih h
  | case2 => cases h
  | case3 pos hlt hc next hn hb ih =>
    -- the comment ends before the last line does
    have hnext : next ≠ src.size := by
      rintro rfl
      exact (comment_of_commentEnd? hn).last (Array.back?_eq_getElem? ▸ hfeed)
    have hn' : commentEnd? (d == .scss) (src ++ post) pos = .ok (some next) := by
      have := @commentEnd?_agree _ _ _ _ _ (d == .scss) (@agree_append src post) pos next hb.2 fun _ => by omega
      rw [Nat.zero_add, Nat.zero_add] at this
      exact this hn
    rw [skipTrivia_of_char ((getElem?_before hlt).trans (Array.getElem?_eq_getElem hlt)), if_neg hc, hn']
    exact ih h
  | case4 pos hlt => cases h; omega
  | case5 pos hlt => cases h; rfl

/-- What is read from a place is told by where the trivia there ends. -/
theorem statements_congr {blockAt : Nat → Except ParseError Node} {opening : Option Nat} {p q : Nat}
    (h : skipTrivia d src p = skipTrivia d src q) :
    statements d src blockAt opening p = statements d src blockAt opening q := by
  cases hs : skipTrivia d src q with
  | error e =>
    rw [statements_of_error (h.trans hs), statements_of_error hs]
  | ok start =>
    by_cases hlt : start < src.size
    · have hc := Array.getElem?_eq_getElem hlt
      rw [statements_of_char (h.trans hs) hc, statements_of_char hs hc]
    · rw [statements_past_end (h.trans hs) (Nat.le_of_not_lt hlt), statements_past_end hs (Nat.le_of_not_lt hlt)]

/-! ### Two texts -/

/-- **Stylesheets compose.** A text that is accepted, of which no statement runs to its end, and
that ends with a line feed, can be followed by another text: together they have the statements of
the one and those of the other, moved; and the fault of the other text if that is rejected. -/
theorem parse_append {s t : Array Char} {tree : Node} (hs : parse d s = .ok tree)
    (hfeed : s.back? = some '\n') (hends : ∀ m ∈ tree.children, scan d s m.span.start ≠ .ok (s.size, none)) :
    (∀ tree', parse d t = .ok tree' → parse d (s ++ t) =
      .ok (nodeOf .stylesheet 0 (s ++ t).size (tree.children ++ relocateList 0 s.size tree'.children))) ∧
    ∀ e, parse d t = .error e → e.fault ≠ .nestedTooDeeply →
      parse d (s ++ t) = .error ⟨s.size + e.offset, e.fault⟩ := by
  obtain ⟨ns, r, hr, htail, rfl⟩ := parse_iff.1 hs
  obtain ⟨hreads, hclosed⟩ := @Reads.before d s t _ _ _ _ hr (Nat.zero_le _) (hr.closed_of_end htail hends)
  have hstatements : statements d (s ++ t) (blockAt d (s ++ t) nestingLimit) none 0 =
      (shifted s.size (fun (ms, stop) => (relocateList 0 s.size ms, s.size + stop))
        (statements d t (blockAt d t nestingLimit) none 0)).map fun (ms, stop) => (ns ++ ms, stop) := by
    rw [hreads.statements_append hclosed, statements_congr (skipTrivia_lastLine hfeed htail)]
    exact congrArg _ (statements_shift nestingLimit none 0)
  constructor
  · intro tree' ht
    unfold parse at ht ⊢
    rw [hstatements]
    split at ht
    · cases ht
    · rename_i ms stop hms
      cases ht
      rw [hms]
      rfl
  · intro e ht hdeep
    unfold parse at ht ⊢
    rw [hstatements]
    split at ht
    · rename_i hms
      cases ht
      rw [hms, shifted_error, shiftFault, if_neg hdeep]
      rfl
    · cases ht

theorem parse_append_commented : ∃ tree tree',
    parse .scss "a\x7b\x7d @import 'b'; // c\n".toList.toArray = .ok tree ∧
      parse .scss "/* d */ .e \x7b f: g \x7d".toList.toArray = .ok tree' ∧
      parse .scss ("a\x7b\x7d @import 'b'; // c\n".toList.toArray ++
          "/* d */ .e \x7b f: g \x7d".toList.toArray) =
        .ok (nodeOf .stylesheet 0 41 (tree.children ++ relocateList 0 22 tree'.children)) ∧
      parse .scss ("a\x7b\x7d @import 'b'; // c\n".toList.toArray ++ "h \x7b i \x7d".toList.toArray) =
        .error ⟨26, .missingColon⟩ := by
  have hs : ((parse .scss "a\x7b\x7d @import 'b'; // c\n".toList.toArray).toOption.any fun tree =>
      decide (∀ m ∈ tree.children,
        scan .scss "a\x7b\x7d @import 'b'; // c\n".toList.toArray m.span.start ≠ .ok (22, none))) = true := by
    decide +kernel
  have ht : (parse .scss "/* d */ .e \x7b f: g \x7d".toList.toArray).toOption.isSome = true := by
    decide +kernel
  have hu : parse .scss "h \x7b i \x7d".toList.toArray = .error ⟨4, .missingColon⟩ :=
    map_error (f := fun _ => ()) (by decide +kernel)
  obtain ⟨tree, htree, hends⟩ := (Option.any_eq_true _ _).1 hs
  obtain ⟨tree', htree'⟩ := Option.isSome_iff_exists.1 ht
  have hs := toOption_eq_some.1 htree
  have ht := toOption_eq_some.1 htree'
  have hfeed : "a\x7b\x7d @import 'b'; // c\n".toList.toArray.back? = some '\n' := by decide
  have happend {t : Array Char} := parse_append (t := t) hs hfeed (of_decide_eq_true hends)
  exact ⟨tree, tree', hs, ht, happend.1 tree' ht, happend.2 _ hu (by decide)⟩

end HouseStyle.Stylesheet
