import HouseStyle.Proofs.Rule.OrderEdit
import HouseStyle.Proofs.Rule.SelectorEdit
import HouseStyle.Proofs.Rule.ValueEdit
import HouseStyle.Proofs.Text.Breaks

/-!
# Rules for stylesheets keep line breaks whole

Statements, selectors and values begin and end with characters that are no white space, so no edit of
theirs goes through a line break, and what is moved brings whole breaks along.

* `PropertyOrder.keepsFeeds_of_fix`, `SelectorPerLine.keepsFeeds_of_fix`, `keepsFeeds_of_valueEdit`: the
  edits of the rules.
* `PropertyOrder.not_mem_of_fix`, `SelectorPerLine.not_mem_of_fix`: no carriage return is brought in.
-/

namespace HouseStyle

open Stylesheet

variable {d : Dialect} {t : Source} {src : Array Char} {tree : Node}

/-! ### Where statements end -/

namespace Stylesheet

/-- What was trimmed does not end with white space. -/
theorem trimEnd_last {start stop : Nat} (h : start < trimEnd src start stop) :
    (src[trimEnd src start stop - 1]?).any isStyleBlank = false := by
  induction stop with
  | zero => cases h
  | succ m ih =>
    by_cases hc : start ≤ m ∧ (src[m]?).any isStyleBlank = true
    · rw [trimEnd, if_pos hc] at h ⊢
      exact ih h
    · rw [trimEnd, if_neg hc] at h ⊢
      exact Bool.eq_false_iff.2 fun hb => hc ⟨Nat.le_of_lt_succ h, hb⟩

/-- **A statement does not end with white space.** -/
theorem Item.last {depth : Nat} {m : Node} (h : Item d src depth m) :
    (src[m.span.stop - 1]?).any isStyleBlank = false := by
  have hbounds := h.bounds.1
  cases h with
  | @closed _ stop _ rest starts head node =>
    obtain ⟨hle, -, hchar⟩ := starts.scan_bounds head
    rw [headNode_stop (le_trimEnd hle) (by have := @trimEnd_le src m.span.start stop; omega) node,
      Nat.add_sub_cancel, hchar]
    rfl
  | @unclosed _ stop _ c rest starts head char node =>
    have htrim := @le_trimEnd src _ _ (starts.scan_bounds head).1
    have hstop := headNode_stop htrim htrim node
    rw [hstop] at hbounds ⊢
    exact trimEnd_last hbounds
  | @nested _ brace last close _ _ rest starts head inner trivia char node =>
    obtain ⟨hle, -, hbrace⟩ := starts.scan_bounds head
    have hlast := (inner.bounds (Array.getElem?_eq_some_iff.1 hbrace).1).1
    have hclose := (skipTrivia_bounds trivia).1
    rw [headNode_stop (le_trimEnd hle) (by omega) node, Nat.add_sub_cancel, char]
    rfl

/-- Statements begin and end outside of line breaks. -/
theorem Item.not_cutsBreak {depth : Nat} {m : Node} (h : Item d t.chars depth m) :
    ¬ t.CutsBreak m.span.start ∧ ¬ t.CutsBreak m.span.stop := by
  constructor
  · refine Source.not_cutsBreak_of_next fun hfeed => ?_
    have := not_blank_of_rest h.rest.1 hfeed
    cases this
  · refine Source.not_cutsBreak_of_last fun hreturn => ?_
    have := h.last
    rw [hreturn] at this
    cases this

end Stylesheet

/-! ### The order of a block -/

namespace PropertyOrder

theorem feedsPaired_interleave {rest : List (List Char)} : ∀ {a : List Char} {gs : List (List Char)},
    gs.length = rest.length → (∀ x ∈ a :: rest, feedsPaired x = true) → (∀ g ∈ gs, feedsPaired g = true) →
      feedsPaired (interleave (a :: rest) gs) = true := by
  induction rest with
  | nil => exact fun _ h _ => h _ List.mem_cons_self
  | cons b rest ih =>
    intro a gs hlen htexts hgaps
    cases gs with
    | nil => cases hlen
    | cons g gs =>
      rw [List.forall_mem_cons] at htexts hgaps
      rw [interleave_cons]
      exact feedsPaired_append (feedsPaired_append htexts.1 hgaps.1) (ih (Nat.succ.inj hlen) htexts.2 hgaps.2)

theorem mem_interleave {rest : List (List Char)} {c : Char} : ∀ {a : List Char} {gs : List (List Char)},
    gs.length = rest.length →
      (c ∈ interleave (a :: rest) gs ↔ (∃ x ∈ a :: rest, c ∈ x) ∨ ∃ g ∈ gs, c ∈ g) := by
  induction rest with
  | nil =>
    intro a gs hlen
    obtain rfl := List.length_eq_zero_iff.1 hlen
    simp [interleave]
  | cons b rest ih =>
    intro a gs hlen
    cases gs with
    | nil => cases hlen
    | cons g gs =>
      rw [interleave_cons, List.mem_append, List.mem_append, ih (Nat.succ.inj hlen)]
      simp only [List.mem_cons, exists_eq_or_imp, or_assoc, or_left_comm]

/-- The texts between statements are stretches between their ends. -/
theorem exists_of_mem_gaps {g : List Char} : ∀ {ms : List Node}, g ∈ gaps t ms →
    ∃ a ∈ ms, ∃ b ∈ ms, g = t.sliceChars a.span.stop b.span.start
  | [], h => nomatch h
  | [_], h => nomatch h
  | a :: b :: ms, h => by
    rcases List.mem_cons.1 h with rfl | h
    · exact ⟨a, List.mem_cons_self, b, List.mem_cons_of_mem _ List.mem_cons_self, rfl⟩
    · obtain ⟨x, hx, y, hy, rfl⟩ := exists_of_mem_gaps h
      exact ⟨x, List.mem_cons_of_mem _ hx, y, List.mem_cons_of_mem _ hy, rfl⟩

/-- The statements in their new order, the first one apart. -/
theorem byRank_shape (m : Node) (ms : List Node) :
    ∃ q qs, byRank (m :: ms) = q :: qs ∧ (gaps t (m :: ms)).length = (qs.map (statementText t)).length := by
  obtain ⟨q, qs, hqs, -, -⟩ := byRank_first m ms
  have hlen := length_byRank (m :: ms)
  rw [hqs] at hlen
  exact ⟨q, qs, hqs, by rw [length_gaps, List.length_map, Nat.succ.inj hlen]⟩

/-- **Putting a block in order keeps line breaks whole.** -/
theorem keepsFeeds_of_fix {c : Context} {e : Edit} (hparse : Stylesheet.parse d c.text.chars = .ok tree)
    (h : Misplaced c.text tree c) (hfeeds : feedsPaired c.text.chars.toList = true) (hfix : fix c = some e) :
    e.KeepsFeeds c.text := by
  obtain ⟨hlt, k, last, hin⟩ := block_of_parse hparse h.mem h.block
  obtain ⟨m, ms, hms, hspan, hreplacement⟩ := fix_shape hfix
  have hitems : ∀ x ∈ m :: ms, Item d c.text.chars k x := fun x hx => by
    rw [← hms] at hx
    exact (hin.items hlt x (List.mem_filter.1 hx).1).1
  have hstands := (stands_of_reads hin hlt).filter isMovable
  rw [show c.scope.parent.children.filter isMovable = m :: ms from hms] at hstands
  have hstop : e.span.stop = (ms.getLastD m).span.stop := by
    rw [hspan, Span.between_stop, Nat.max_eq_right (Nat.le_of_lt hstands.last.1)]
  have hstart : e.span.start = m.span.start := by rw [hspan, Span.between_start]
  have hlast : ms.getLastD m ∈ m :: ms := List.getLastD_mem_cons
  have hbyRank : ∀ q ∈ byRank (m :: ms), q ∈ m :: ms := fun q hq => (byRank_perm _).mem_iff.1 hq
  obtain ⟨q, qs, hqs, hlen⟩ := @byRank_shape c.text m ms
  refine ⟨?_, hstop ▸ (hitems _ hlast).not_cutsBreak.2, ?_⟩
  · rw [hreplacement, hqs]
    refine feedsPaired_interleave hlen (fun x hx => ?_) fun g hg => ?_
    · -- a statement, perhaps with a semicolon
      obtain ⟨y, hy, rfl⟩ := List.mem_map.1 (show x ∈ (q :: qs).map (statementText c.text) from hx)
      have htext := Source.feedsPaired_slice hfeeds (hitems y (hbyRank y (hqs ▸ hy))).not_cutsBreak.1 y.span.stop
      rcases statementText_cases c.text y with heq | heq
      · rwa [heq]
      · rw [heq]
        exact feedsPaired_append htext rfl
    · obtain ⟨a, ha, b, -, rfl⟩ := exists_of_mem_gaps hg
      exact Source.feedsPaired_slice hfeeds (hitems a ha).not_cutsBreak.2 _
  · rw [hstart, hstop, hreplacement, slice_eq_interleave hstands, hqs, List.map_cons, List.map_cons,
      mem_interleave (by rw [length_gaps, List.length_map]), mem_interleave hlen]
    refine Or.imp_left ?_
    rw [← @List.map_cons _ _ fun x : Node => c.text.sliceChars x.span.start x.span.stop,
      ← @List.map_cons _ _ (statementText c.text)]
    rintro ⟨_, hx, hfeed⟩
    obtain ⟨y, hy, rfl⟩ := List.mem_map.1 hx
    refine ⟨_, List.mem_map.2 ⟨y, hqs ▸ (byRank_perm _).mem_iff.2 hy, rfl⟩, ?_⟩
    obtain ⟨extra, hextra⟩ := statementText_prefix c.text y
    rw [hextra]
    exact List.mem_append_left _ hfeed

/-- What is put in order is made of the text and of semicolons. -/
theorem mem_of_fix {c : Context} {e : Edit} (hfix : fix c = some e) {x : Char} (hx : x ∈ e.replacement.toList) :
    x ∈ c.text.chars.toList ∨ x = ';' := by
  obtain ⟨m, ms, -, -, hreplacement⟩ := fix_shape hfix
  obtain ⟨q, qs, hqs, hlen⟩ := @byRank_shape c.text m ms
  rw [hreplacement, hqs, List.map_cons, mem_interleave hlen, ← @List.map_cons _ _ (statementText c.text)] at hx
  rcases hx with ⟨_, hq, hx⟩ | ⟨g, hg, hx⟩
  · obtain ⟨q, -, rfl⟩ := List.mem_map.1 hq
    rcases statementText_cases c.text q with heq | heq
    · rw [heq] at hx
      exact .inl (Source.mem_of_mem_sliceChars hx)
    · rw [heq, List.mem_append, List.mem_singleton] at hx
      exact hx.imp_left Source.mem_of_mem_sliceChars
  · obtain ⟨a, -, b, -, rfl⟩ := exists_of_mem_gaps hg
    exact .inl (Source.mem_of_mem_sliceChars hx)

end PropertyOrder

/-! ### One selector per line -/

namespace SelectorPerLine

theorem mem_indentation {offset : Nat} {x : Char} (h : x ∈ (t.indentation offset).toList) : x = ' ' ∨ x = '\t' := by
  rw [Source.indentation, String.toList_ofList] at h
  simpa using List.mem_takeWhile_imp h

/-- **Breaking the line after a comma keeps line breaks whole.** -/
theorem keepsFeeds_of_fix {c : Context} {n : Node} {v : Violation} {e : Edit}
    (hparse : Stylesheet.parse d c.text.chars = .ok tree) (hn : n ∈ Node.walk tree)
    (hlabel : n.label = .style .selectorList) (hends : endsWithReturns c.text = true)
    (hfix : fix v n c = some e) : e.KeepsFeeds c.text := by
  obtain ⟨ns, r, hr, -, rfl⟩ := parse_iff.1 hparse
  obtain ⟨k, m, stop, -, -, -, -, hspans, hpair⟩ :=
    head_of_selectorList hr (mem_walkList_of_root hn (by rw [hlabel]; nofun)) hlabel
  obtain ⟨a, b, before, after, hfind, hgap, -, -, hspan, hreplacement⟩ := fix_shape hfix
  have hab : (a, b) ∈ neighbours n := List.mem_of_find?_eq_some hfind
  obtain ⟨x, hx, hblank⟩ := (hspans b (List.mem_of_mem_tail (List.of_mem_zip hab).2)).first
  obtain ⟨-, -, hlen⟩ := comma_in_gap hgap (rel_of_zip hpair hab) hx
  have hstop : e.span.stop = b.span.start := by
    rw [hspan, Span.between_stop]
    omega
  have htext : e.replacement.toList = ['\r', '\n'] ++ (c.text.indentation n.span.start).toList := by
    rw [hreplacement, String.toList_append, Source.newline_of_endsWithReturns hends]
    rfl
  refine ⟨?_, ?_, fun _ => ?_⟩
  · rw [htext]
    refine feedsPaired_append rfl (feedsPaired_of_not_mem fun hfeed => ?_)
    rcases mem_indentation hfeed with h | h <;> cases h
  · refine hstop ▸ Source.not_cutsBreak_of_next ?_
    rw [hx]
    rintro ⟨⟩
    cases hblank
  · rw [htext]
    exact List.mem_append_left _ (List.mem_cons_of_mem _ List.mem_cons_self)

/-- Where no carriage return stands, none is brought in. -/
theorem not_mem_of_fix {c : Context} {n : Node} {v : Violation} {e : Edit} (h : '\r' ∉ c.text.chars.toList)
    (hfix : fix v n c = some e) : '\r' ∉ e.replacement.toList := by
  obtain ⟨_, _, _, _, -, -, -, -, -, hreplacement⟩ := fix_shape hfix
  rw [hreplacement, String.toList_append, Source.newline_of_not_mem h, List.mem_append, not_or]
  refine ⟨by decide, fun hreturn => ?_⟩
  rcases mem_indentation hreturn with h | h <;> cases h

end SelectorPerLine

/-! ### Values -/

/-- **A zero in the place of characters that end no line keeps line breaks whole.** -/
theorem keepsFeeds_of_valueEdit {n v : Node} {text : List Char} {a k : Nat} {e : Edit}
    (hparse : Stylesheet.parse d t.chars = .ok tree) (hn : n ∈ Node.walk tree) (hd : isDeclaration n = true)
    (h : ValueEdit ['\r', '\n'] n v text a k e) : e.KeepsFeeds t := by
  obtain ⟨-, hchars⟩ := chars_of_value hparse hn hd h.value h.pos h.le h.avoids
  obtain ⟨hestart, hestop⟩ := h.bounds
  have hpos := h.pos
  rw [← hestart, ← hestop] at hchars
  refine ⟨by rw [h.replacement]; rfl, ?_, fun hfeed => ?_⟩
  · refine Source.not_cutsBreak_of_last fun hreturn => ?_
    obtain ⟨c, hc, hsigns⟩ := hchars (e.span.stop - 1) (by omega) (by omega)
    rw [hreturn] at hc
    cases hc
    exact hsigns List.mem_cons_self
  · obtain ⟨i, hi⟩ := List.mem_iff_getElem?.1 hfeed
    rw [Source.sliceChars, Array.getElem?_toList, Array.getElem?_extract] at hi
    split at hi
    · obtain ⟨c, hc, hsigns⟩ := hchars (e.span.start + i) (by omega) (by omega)
      rw [hi] at hc
      cases hc
      exact absurd (List.mem_cons_of_mem _ List.mem_cons_self) hsigns
    · cases hi

end HouseStyle
