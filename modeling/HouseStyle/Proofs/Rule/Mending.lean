import HouseStyle.Proofs.Python.Trees
import HouseStyle.Proofs.Rule.ImportBlock
import HouseStyle.Proofs.Rule.OptionsClass
import HouseStyle.Proofs.Rule.Reordering
import HouseStyle.Proofs.Rule.Reports
import HouseStyle.Proofs.Rule.SelectorEdit
import HouseStyle.Proofs.Rule.ValueEdit
import HouseStyle.Proofs.Stylesheet.Lossless
import HouseStyle.Proofs.Text.Breaks
import Mathlib.Data.List.TakeWhile

/-!
# Rules mend what they report

Removed borders and blocks out of order are always mended. A zero is left when nothing but a zero stands
there, which takes options that name the empty unit. A selector is left when an empty selector stands
before it. Quotes are mended wherever literals stand at their places. A block of imports is left when two
statements share a line, or when its text is the same in order. An options class right behind the last field is
left when something else than blank lines stands between the two.

* `BorderNone.changes_of_check`, `PropertyOrder.changes_of_misplaced`: what is always mended.
* `ZeroLength.changes_of_check`: a zero length that is more than a zero.
* `SelectorPerLine.EmptyBetween`, `SelectorPerLine.changes_of_check`: a selector right behind another one.
* `Quotes.fix_of_check`, `Quotes.changes_of_check`: new quotes, and that they change the text, also where a
  byte-order mark moves a literal.
* `ImportGrouping.changes_of_check`: a block of imports that is out of order.
* `MetaPosition.Blocked`, `MetaPosition.changes_of_follows`: an options class right behind the last field.
* `MetaPosition.fix_of_inOrder`: the ends of a move are in order, as the statements of a class are.
-/

namespace HouseStyle

open Stylesheet

variable {d : Dialect} {t : Source} {tree n : Node} {c : Context}

/-! ### Values -/

/-- **A zero in the place of something else changes the text.** -/
theorem changes_of_valueEdit {signs : List Char} {v : Node} {text : List Char} {a k : Nat} {e : Edit}
    (hsigns : '0' ∈ signs) (hparse : Stylesheet.parse d t.chars = .ok tree) (hn : n ∈ Node.walk tree)
    (hd : isDeclaration n = true) (h : ValueEdit signs n v text a k e) : Changes t e := by
  obtain ⟨-, -, hsize, -⟩ := value_text hparse hn hd h.value
  obtain ⟨hstop, hchars⟩ := chars_of_value hparse hn hd h.value h.pos h.le h.avoids
  obtain ⟨hestart, hestop⟩ := h.bounds
  have hpos := h.pos
  refine .of_chars (by omega) fun heq => ?_
  -- the first character that is replaced would be the zero
  obtain ⟨x, hx, hnot⟩ := hchars (v.span.start + a) (Nat.le_refl _) (by omega)
  have hfirst : (t.sliceChars e.span.start e.span.stop)[0]? = some x := by
    rw [Source.sliceChars, Array.getElem?_toList, Array.getElem?_extract, if_pos, hestart]
    · exact hx
    · have := (Array.getElem?_eq_some_iff.1 hx).1
      omega
  rw [heq, h.replacement] at hfirst
  cases hfirst
  exact hnot hsigns

/-- **A removed border is always mended.** -/
theorem BorderNone.changes_of_check {v : Violation} (hparse : Stylesheet.parse d c.text.chars = .ok tree)
    (hn : n ∈ Node.walk tree) (hd : isDeclaration n = true) (hv : v ∈ check n c) :
    ∃ e, fix n c = some e ∧ Changes c.text e := by
  have hfix : ∃ e, fix n c = some e := by
    unfold check at hv
    split at hv
    · rename_i w text hlabel hvalue
      split at hv
      · rename_i hnone
        rw [Bool.and_eq_true] at hnone
        simp only [fix, hvalue, hnone.2, if_true]
        exact ⟨_, rfl⟩
      · cases hv
    · cases hv
  obtain ⟨e, hfix⟩ := hfix
  obtain ⟨w, text, a, k, h⟩ := @valueEdit_of_fix _ ['0'] (by decide +kernel) _ _ hfix
  exact ⟨e, hfix, changes_of_valueEdit List.mem_cons_self hparse hn hd h⟩

/-- A zero length that is more than a zero is mended. -/
theorem ZeroLength.changes_of_check {v : Violation} (hv : v ∈ check n c) (hin : v.span.stop ≤ c.text.size) :
    c.text.sliceSpan v.span = "0" ∨ ∃ e, fix v n c = some e ∧ Changes c.text e := by
  obtain ⟨s, hs, rfl⟩ := List.mem_map.1 hv
  by_cases hzero : c.text.sliceSpan s = "0"
  · exact .inl hzero
  · refine .inr ⟨_, if_pos (List.contains_iff_mem.2 hs), hin, hzero⟩

/-! ### The order of a block -/

/-- **A block out of order is always mended.** -/
theorem PropertyOrder.changes_of_misplaced (hparse : Stylesheet.parse d c.text.chars = .ok tree)
    (h : Misplaced c.text tree c) : ∃ e, fix c = some e ∧ Changes c.text e := by
  obtain ⟨e, hfix, -⟩ := fix_of_outOfOrder hparse h
  refine ⟨e, hfix, ?_⟩
  -- the children of the block end in the text
  have hinside : ∀ m ∈ movable c.scope.parent, m.span.stop ≤ c.text.size := by
    intro m hm
    have hchild := (List.mem_filter.1 hm).1
    have hmem : m ∈ Node.walk tree := Node.mem_walk_trans (Node.mem_walk_of_child hchild) tree h.mem
    exact Stylesheet.stop_le_size hparse hmem
  unfold fix at hfix
  simp only at hfix
  split at hfix
  · rename_i first second rest hms
    rw [hms] at hinside
    split at hfix
    · cases hfix
    · rename_i hne
      cases hfix
      have hfirst := hinside first List.mem_cons_self
      have hlast : ((second :: rest).getLastD second).span.stop ≤ c.text.size := by
        rw [List.getLastD_cons]
        exact hinside _ (List.mem_cons_of_mem _ List.getLastD_mem_cons)
      have := first.span.start_le_stop
      refine .of_chars (max_le (by omega) hlast) ?_
      rw [Span.between_start, Span.between_stop, Source.sliceChars_max, String.toList_ofList]
      exact Ne.symm hne
  · cases hfix

/-! ### One selector per line -/

namespace SelectorPerLine

/-- **An empty selector stands between two selectors**: white space and more than one comma. -/
structure EmptyBetween (t : Source) (a b : Node) : Prop where
  separators : ∀ x ∈ gap t a b, isStyleBlank x = true ∨ x = ','
  commas : 1 < (gap t a b).count ','

theorem isBlank_of_isStyleBlank {x : Char} (h : isStyleBlank x = true) : isBlank x = true := by
  simp only [isStyleBlank, Bool.or_eq_true, beq_iff_eq] at h
  rcases h with (((rfl | rfl) | rfl) | rfl) | rfl <;> decide

/-- What a list of nodes covers, seen from two neighbours. -/
theorem gap_of_covered {between : Nat → Nat → Prop} {stop : Nat} : ∀ {ns : List Node} {pos : Nat},
    Covered between stop pos ns → ∀ {a b : Node}, (a, b) ∈ ns.zip ns.tail → between a.span.stop b.span.start := by
  intro ns
  induction ns with
  | nil => exact fun _ _ _ h => nomatch h
  | cons m ns ih =>
    intro pos h a b hab
    cases ns with
    | nil => cases hab
    | cons m' ns =>
      rcases List.mem_cons.1 hab with heq | hab
      · cases heq
        exact h.2.1
      · exact ih h.2 hab

/-- What the fix looks up for a violation: a selector and the one before, with white space and at least one
comma between them and no line break. -/
theorem lookup_of_check {v : Violation} (hparse : Stylesheet.parse d c.text.chars = .ok tree) (hn : n ∈ Node.walk tree)
    (hlabel : n.label = .style .selectorList) (hv : v ∈ check n c) :
    ∃ a b, (neighbours n).find? (fun (_, b) => b.span == v.span) = some (a, b) ∧ '\n' ∉ gap c.text a b ∧
      ',' ∈ gap c.text a b ∧ ∀ x ∈ gap c.text a b, isStyleBlank x = true ∨ x = ',' := by
  have hlossless := lossless_of_parse hparse hn
  rw [Lossless, hlabel] at hlossless
  obtain ⟨hcovered, hparted⟩ := hlossless
  have hpair : n.children.Pairwise fun a b => a.span.stop < b.span.start := by
    refine hparted.imp ?_
    rintro a b ⟨i, hi, hlt, -⟩
    exact Nat.lt_of_le_of_lt hi hlt
  obtain ⟨a₀, b₀, hab₀, hb₀, hbroken⟩ := check_shape hv
  cases hfind : (neighbours n).find? fun (_, b) => b.span == v.span with
  | none =>
    have := List.find?_eq_none.1 hfind _ hab₀
    exact absurd (beq_iff_eq.2 hb₀.symm) this
  | some pair =>
    obtain ⟨a, b⟩ := pair
    have hab : (a, b) ∈ neighbours n := List.mem_of_find?_eq_some hfind
    have hb : b.span = b₀.span := by
      have := List.find?_some hfind
      rw [← hb₀]
      exact beq_iff_eq.1 this
    -- no two selectors have the same one after them
    obtain rfl := eq_of_zip hpair hab hab₀ hb
    refine ⟨a, b, rfl, ?_, Source.mem_sliceChars_iff.2 (rel_of_zip hparted hab), fun x hx => ?_⟩
    · rw [gap, hb]
      exact hbroken
    · obtain ⟨i, hi, hlt, hchar⟩ := Source.mem_sliceChars_iff.1 hx
      obtain ⟨y, hy, hsort⟩ := (gap_of_covered hcovered hab).separator i hi hlt
      cases hchar.symm.trans hy
      exact hsort

/-- **A selector right behind another one is mended**, unless an empty selector stands between them. -/
theorem changes_of_check {v : Violation} (hparse : Stylesheet.parse d c.text.chars = .ok tree)
    (hn : n ∈ Node.walk tree) (hlabel : n.label = .style .selectorList) (hv : v ∈ check n c)
    (hin : v.span.stop ≤ c.text.size) :
    (∃ a b, (a, b) ∈ neighbours n ∧ b.span = v.span ∧ EmptyBetween c.text a b) ∨
      ∃ e, fix v n c = some e ∧ Changes c.text e := by
  obtain ⟨a, b, hfind, hbroken, hcomma, hgap⟩ := lookup_of_check hparse hn hlabel hv
  have hb : b.span = v.span := by
    have := List.find?_some hfind
    exact beq_iff_eq.1 this
  have hne : ((gap c.text a b).takeWhile (· != ',')).length ≠ (gap c.text a b).length := by
    intro heq
    rw [← (List.takeWhile_prefix _).eq_of_length heq] at hcomma
    have := List.mem_takeWhile_imp hcomma
    simp at this
  obtain ⟨after, hsplit⟩ := split_at_comma hne
  set before := (gap c.text a b).takeWhile (· != ',') with hbefore
  have hdrop : (gap c.text a b).drop (before.length + 1) = after := by
    conv_lhs => rw [hsplit, ← List.drop_drop, List.drop_left]
    rfl
  by_cases hblank : after.all isBlank = true
  · right
    have hfix : fix v n c = some
        { span := .between (a.span.stop + before.length + 1) b.span.start
          replacement := c.text.newline ++ c.text.indentation n.span.start, rule := c.info.id } := by
      simp only [fix, hfind, ← hbefore, hdrop, hblank, hne, decide_false, Bool.not_true, Bool.or_false,
        Bool.false_eq_true, if_false]
    refine ⟨_, hfix, .of_chars ?_ fun heq => ?_⟩
    · have hsize : b.span.start ≤ c.text.size := Nat.le_trans b.span.start_le_stop (hb ▸ hin)
      have hlen : (gap c.text a b).length = b.span.start - a.span.stop := Source.length_sliceChars hsize
      rw [hsplit, List.length_append, List.length_cons] at hlen
      exact max_le (by omega) hsize
    · -- the line break that is written was not there before
      rw [Span.between_start, Span.between_stop, Source.sliceChars_max] at heq
      have hfeed : '\n' ∈ (c.text.newline ++ c.text.indentation n.span.start).toList := by
        rw [String.toList_append]
        rcases c.text.newline_cases with h | h <;> simp [h]
      rw [← heq] at hfeed
      obtain ⟨i, hi, hlt, hchar⟩ := Source.mem_sliceChars_iff.1 hfeed
      exact hbroken (Source.mem_sliceChars_iff.2 ⟨i, by omega, hlt, hchar⟩)
  · left
    refine ⟨a, b, List.mem_of_find?_eq_some hfind, hb, hgap, ?_⟩
    -- what is no white space behind the comma is a comma
    rw [List.all_eq_true] at hblank
    push Not at hblank
    obtain ⟨x, hx, hsolid⟩ := hblank
    have hmem : x ∈ gap c.text a b := by
      rw [hsplit]
      exact List.mem_append_right _ (List.mem_cons_of_mem _ hx)
    obtain rfl : x = ',' := (hgap x hmem).resolve_left fun h => hsolid (isBlank_of_isStyleBlank h)
    rw [hsplit, List.count_append, List.count_cons_self]
    have := List.count_pos_iff.2 hx
    omega

end SelectorPerLine

end HouseStyle

namespace HouseStyle

variable {t : Source} {n : Node} {c : Context} {v : Violation}

/-! ### Quotes -/

namespace Quotes

open Python

/-- A literal with other quotes is not what is shown of the literal. -/
theorem ne_of_shown {front tail marker shown : List Char} {p q : Char} (hlength : front.length = marker.length)
    (hne : q ≠ p) (hbody : p ∉ tail.dropLast) (h : Shown (front ++ q :: tail) shown) :
    shown ≠ marker ++ p :: tail.dropLast ++ [p] := by
  intro heq
  have hlengths := congrArg List.length heq
  have hlasts := congrArg List.getLast? heq
  rw [List.getLast?_concat] at hlasts
  simp only [List.length_append, List.length_cons, List.length_nil] at hlengths
  cases h with
  | whole =>
    -- the opening quote differs
    rw [List.append_assoc] at heq
    exact hne (List.cons.inj (List.append_inj_right heq hlength)).1
  | early c =>
    rcases List.eq_nil_or_concat' tail with rfl | ⟨body, z, rfl⟩
    · simp only [List.dropLast_concat, List.dropLast_nil, List.length_cons, List.length_nil] at hlengths
      omega
    · -- what comes right before the closing quote is not that quote
      rw [List.dropLast_concat] at hbody
      rw [← List.cons_append, ← List.append_assoc, List.dropLast_concat, ← List.cons_append,
        List.getLast?_append_of_ne_nil _ (List.cons_ne_nil _ _)] at hlasts
      rcases List.mem_cons.1 (List.mem_of_getLast? hlasts) with rfl | hmem
      · exact hne rfl
      · exact hbody hmem
  | longer c =>
    rcases List.eq_nil_or_concat' tail with rfl | ⟨body, z, rfl⟩
    · rw [← List.cons_append, List.getLast?_concat, Option.some.injEq] at hlasts
      exact hne hlasts
    · simp only [List.dropLast_concat, List.length_append, List.length_cons, List.length_nil] at hlengths
      omega

/-- The spelling of a literal on one line: letters, the quote, and what follows it. -/
structure Opened (value marker quote : String) (front : List Char) (q : Char) (tail : List Char) : Prop where
  value : value.toList = front ++ q :: tail
  marker : marker.toList = front.map Char.toLower
  quote : quote = q.toString
  isQuote : q = '"' ∨ q = '\''

theorem Opened.length {value marker quote : String} {front tail : List Char} {q : Char}
    (h : Opened value marker quote front q tail) : front.length = marker.toList.length := by
  rw [h.marker, List.length_map]

theorem Opened.drop_body {value marker quote : String} {front tail : List Char} {q : Char}
    (h : Opened value marker quote front q tail) : value.toList.drop (marker.length + 1) = tail := by
  rw [h.value, ← String.length_toList, ← h.length, ← List.drop_drop, List.drop_left]
  rfl

theorem spelling_of_literal {value marker quote : String} (h : IsLiteral value marker quote)
    (hquote : quote.length = 1) : ∃ front q tail, Opened value marker quote front q tail := by
  set letters := value.toList.takeWhile fun c => c != '"' && c != '\'' with hletters
  have hmarker : marker.toList = letters.map Char.toLower := by
    rw [h.marker_eq, String.toList_ofList, stringMarker]
  have hlength : marker.length = letters.length := by
    rw [← String.length_toList, hmarker, List.length_map]
  have hsplit : letters ++ value.toList.dropWhile (fun c => c != '"' && c != '\'') = value.toList :=
    List.takeWhile_append_dropWhile
  cases hrest : value.toList.dropWhile (fun c => c != '"' && c != '\'') with
  | nil =>
    -- there is a quote, for the spelling ends with one
    have hnone (x : Char) (hx : value.toList.getLast? = some x) : (x != '"' && x != '\'') = true := by
      have hmem := List.mem_of_getLast? hx
      rw [hrest, List.append_nil] at hsplit
      rw [← hsplit] at hmem
      have := List.mem_takeWhile_imp hmem
      exact this
    rcases h.quoted.last with hlast | hlast
    · exact absurd (hnone _ hlast) (by decide)
    · exact absurd (hnone _ hlast) (by decide)
  | cons q tail =>
    refine ⟨letters, q, tail, by rw [← hrest, hsplit], hmarker, ?_, ?_⟩
    · have hq := h.quote_eq
      rw [hlength, ← hsplit, List.drop_left, hrest, openingQuote] at hq
      split at hq
      · exact hq
      · -- three quotes are too many
        rw [hq, String.length_ofList, List.length_take] at hquote
        omega
    · have hstop := List.head?_dropWhile_not (fun c => c != '"' && c != '\'') value.toList
      rw [hrest] at hstop
      simpa [or_iff_not_imp_left] using hstop

theorem literal_of_swapped {o : QuoteStyleOptions} {text : String} (h : swapped? o n = some text) :
    ∃ value marker quote, n.label = .python (.simpleString value marker quote) := by
  unfold swapped? at h
  split at h
  · exact ⟨_, _, _, ‹_›⟩
  · cases h

theorem length_of_applies {value marker quote : String} (hlabel : n.label = .python (.simpleString value marker quote))
    (h : quoteStyle.applies n = .ok true) : quote.length = 1 := by
  simpa [quoteStyle, hlabel] using h

/-- **What a literal on one line becomes**: its letters in lower case, and what stands between its quotes between
the others, which do not stand there. -/
theorem swapped_shape {o : QuoteStyleOptions} {value marker quote text : String} (hliteral : IsLiteral value marker quote)
    (hlabel : n.label = .python (.simpleString value marker quote)) (hquote : quote.length = 1)
    (h : swapped? o n = some text) : ∃ front q tail, Opened value marker quote front q tail ∧
      q ≠ character o.preferred ∧ character o.preferred ∉ tail.dropLast ∧
      text.toList = marker.toList ++ character o.preferred :: tail.dropLast ++ [character o.preferred] := by
  obtain ⟨front, q, tail, hopened⟩ := spelling_of_literal hliteral hquote
  simp only [swapped?, hlabel, hopened.drop_body] at h
  split at h
  · cases h
  rename_i hkept
  rw [Bool.or_eq_true, not_or, beq_iff_eq, List.contains_iff_mem] at hkept
  cases h
  refine ⟨front, q, tail, hopened, fun heq => hkept.1 (by rw [hopened.quote, heq]), hkept.2, ?_⟩
  simp

/-- What is reported has new quotes to offer, at its place. -/
theorem fix_of_check (hv : v ∈ check n c) : ∃ text, swapped? (c.options .quoteStyle) n = some text ∧ v.span = n.span ∧
    fix n c = some { span := n.span, replacement := text, rule := c.info.id } := by
  unfold check at hv
  simp only at hv
  split at hv
  · cases hv
  rename_i hcond
  rw [Bool.or_eq_true, not_or, Bool.not_eq_true, Option.isNone_iff_eq_none] at hcond
  obtain ⟨hdoc, hswapped⟩ := hcond
  obtain ⟨text, htext⟩ := Option.ne_none_iff_exists'.1 hswapped
  refine ⟨text, htext, ?_, by rw [fix, if_neg (by rw [hdoc]; decide), htext, Option.map_some]⟩
  rw [List.mem_singleton.1 hv]
  rfl

/-- **New quotes change the text.** -/
theorem changes_of_check (hcomes : Comes c.text n) (hv : v ∈ check n c) (hsingle : quoteStyle.applies n = .ok true)
    (hin : v.span.stop ≤ c.text.size) : ∃ e, fix n c = some e ∧ Changes c.text e := by
  obtain ⟨text, htext, hspan, hfix⟩ := fix_of_check hv
  rw [hspan] at hin
  refine ⟨_, hfix, .of_chars hin ?_⟩
  obtain ⟨value, marker, quote, hlabel⟩ := literal_of_swapped htext
  obtain ⟨hliteral, hshown⟩ := hcomes.literal hlabel
  obtain ⟨front, q, tail, hopened, hne, hbody, hspelling⟩ :=
    swapped_shape hliteral hlabel (length_of_applies hlabel hsingle) htext
  rw [hopened.value] at hshown
  rw [hspelling]
  exact ne_of_shown hopened.length hne hbody hshown

end Quotes

/-! ### Imports -/

namespace ImportGrouping

/-- The lines of a block of imports read the same in order, up to the break of the last one. -/
def WrittenInOrder (t : Source) (es : List Entry) : Prop :=
  ∃ first last k, es.head? = some first ∧ es.getLast? = some last ∧ k ≤ t.newline.length ∧
    t.sliceChars (t.lineStart first.chunkStart) (t.lineEndWithBreak last.lastLine) =
      (reordered t es).toList.take ((reordered t es).toList.length - k)

/-- There is nothing to report of less than two imports. -/
theorem entries_of_check (hv : v ∈ check n c) :
    ∃ first second rest, entries c.text (c.options .importGrouping) n = first :: second :: rest := by
  unfold check at hv
  match hes : entries c.text (c.options .importGrouping) n with
  | [] =>
    rw [hes] at hv
    cases hv
  | [e] =>
    rw [hes] at hv
    cases hv
  | first :: second :: rest => exact ⟨first, second, rest, rfl⟩

/-- **A block of imports out of order is mended**, unless two statements share a line or the block reads the
same in order. -/
theorem changes_of_check (hv : v ∈ check n c) :
    sharesLine (entries c.text (c.options .importGrouping) n) = true ∨
      WrittenInOrder c.text (entries c.text (c.options .importGrouping) n) ∨
      ∃ e, fix n c = some e ∧ Changes c.text e := by
  obtain ⟨first, second, rest, hes⟩ := entries_of_check hv
  rw [fix_eq_rewrite, hes]
  obtain ⟨last, hlast⟩ : ∃ last, (first :: second :: rest).getLast? = some last := ⟨_, List.getLast?_cons_cons⟩
  by_cases hshares : sharesLine (first :: second :: rest) = true
  · exact .inl hshares
  refine .inr ?_
  -- what stands in the place of the block, and what is written there
  set before := c.text.sliceChars (c.text.lineStart first.chunkStart) (c.text.lineEndWithBreak last.lastLine)
    with hbefore
  set text := (reordered c.text (first :: second :: rest)).toList with htext
  obtain ⟨k, hk, hafter⟩ : ∃ k ≤ c.text.newline.length, (if before.getLast? == some '\n' then text
      else text.take (text.length - c.text.newline.length)) = text.take (text.length - k) := by
    split
    · exact ⟨0, Nat.zero_le _, List.take_length.symm⟩
    · exact ⟨_, Nat.le_refl _, rfl⟩
  by_cases hsame : text.take (text.length - k) = before
  · exact .inl ⟨first, last, k, rfl, hlast, hk, hsame.symm⟩
  have hfix : rewrite c (first :: second :: rest) (sorted (first :: second :: rest)) = some
      { span := .between (c.text.lineStart first.chunkStart) (c.text.lineEndWithBreak last.lastLine)
        replacement := String.ofList (text.take (text.length - k)), rule := c.info.id } := by
    unfold rewrite
    simp only [hlast, if_neg hshares, ← hbefore]
    rw [← reordered, ← htext, hafter, if_neg hsame]
  refine .inr ⟨_, hfix, .of_chars ?_ ?_⟩
  · have hstop := stop_le_of_rewrite hfix
    rwa [Array.length_toList] at hstop
  · rw [Span.between_start, Span.between_stop, Source.sliceChars_max, String.toList_ofList]
    exact Ne.symm hsame

end ImportGrouping

/-! ### Options classes -/

namespace MetaPosition

theorem commentStart_le (t : Source) (line : Nat) : commentStart t line ≤ line := by
  induction line with
  | zero => exact Nat.le_refl _
  | succ line ih =>
    cases line with
    | zero => exact Nat.le_refl _
    | succ line =>
      unfold commentStart
      split
      · exact Nat.le_succ_of_le ih
      · exact Nat.le_refl _

/-- The comments above an options class begin in the text. -/
theorem Layout.Of.chunkStart_le {o : ModelMetaOptions} {l : Layout} (h : l.Of t o n) :
    l.metaChunkStart ≤ t.lineCount := by
  rw [h.metaChunkStart]
  exact Nat.le_trans (commentStart_le _ _) Array.countP_le_size

/-- A field is no options class. -/
theorem Layout.Of.metaIndex_ne {o : ModelMetaOptions} {l : Layout} (h : l.Of t o n) : l.metaIndex ≠ l.fieldIndex := by
  intro heq
  obtain ⟨m, hm, hfield, -⟩ := h.field
  obtain rfl : m = l.optionsClass := Option.some.inj (hm.symm.trans (heq ▸ h.optionsClass))
  have hmeta := h.isMeta
  unfold MetaPosition.isMeta className? at hmeta
  unfold isField Node.hasShape at hfield
  split at hmeta
  · rename_i name bases hlabel
    rw [hlabel] at hfield
    cases hfield
  · cases hmeta

/-- **An options class right behind the last field is blocked** when something else than blank lines stands
between the two, or when the comments above it begin on the last line of the field. -/
structure Blocked (t : Source) (l : Layout) : Prop where
  follows : l.metaIndex = l.fieldIndex + 1
  obstacle : l.metaChunkStart ≤ l.fieldLastLine ∨
    (t.sliceChars (t.lineEndWithBreak l.fieldLastLine) (t.lineStart l.metaChunkStart)).all isBlank = false

/-- Only one blank line is a line break. -/
theorem hasSeparator_of_gap {l : Layout} (hchunk : l.fieldLastLine < l.metaChunkStart)
    (hcount : l.metaChunkStart ≤ t.lineCount)
    (hgap : t.sliceChars (t.lineEndWithBreak l.fieldLastLine) (t.lineStart l.metaChunkStart) = t.newline.toList) :
    hasSeparator t l = true := by
  have hend : t.lineEndWithBreak l.fieldLastLine = t.lineStart (l.fieldLastLine + 1) := rfl
  rw [hend] at hgap
  have hlength := congrArg List.length hgap
  rw [Source.length_sliceChars (t.lineStart_le_size _)] at hlength
  have hone : l.metaChunkStart = l.fieldLastLine + 2 := by
    by_contra hother
    rcases Nat.eq_or_lt_of_le (Nat.succ_le_of_lt hchunk) with heq | hlt
    · rw [← heq] at hlength
      rcases t.newline_cases with h | h <;> simp [h] at hlength
    · -- two lines are longer than one line feed, and the first of them would end with a return
      have hfirst : t.lineStart (l.fieldLastLine + 1) < t.lineStart (l.fieldLastLine + 2) :=
        t.lineStart_lt (by omega) (by omega) (by omega)
      have hsecond : t.lineStart (l.fieldLastLine + 2) < t.lineStart l.metaChunkStart :=
        t.lineStart_lt (by omega) (by omega) hcount
      have hfeed : t.chars[t.lineStart (l.fieldLastLine + 2) - 1]? = some '\n' :=
        Source.char_before_lineStart (by omega) (by omega)
      rcases t.newline_cases with h | h
      · rw [h, List.length_singleton] at hlength
        omega
      · rw [h, List.length_cons, List.length_singleton] at hlength
        rw [show t.lineStart (l.fieldLastLine + 2) - 1 = t.lineStart (l.fieldLastLine + 1) by omega] at hfeed
        have hreturn :
            (t.sliceChars (t.lineStart (l.fieldLastLine + 1)) (t.lineStart l.metaChunkStart))[0]? = some '\r' := by
          rw [hgap, h]
          rfl
        rw [Source.sliceChars, Array.getElem?_toList, Array.getElem?_extract] at hreturn
        split at hreturn
        · cases hfeed.symm.trans hreturn
        · cases hreturn
  rw [hasSeparator, Bool.and_eq_true, beq_iff_eq]
  refine ⟨hone, List.all_eq_true.2 fun x hx => ?_⟩
  -- what stands on the line is part of the break
  rw [Source.lineText, Source.slice, String.toList_ofList, Source.mem_sliceChars_iff] at hx
  obtain ⟨i, hi, hlt, hchar⟩ := hx
  have hmem : x ∈ t.newline.toList := by
    rw [← hgap, Source.mem_sliceChars_iff]
    exact ⟨i, hi, Nat.lt_of_lt_of_le hlt (hone ▸ t.lineEnd_le_lineStart _), hchar⟩
  have hblank := List.filter_eq_nil_iff.1 t.visible_newline x hmem
  simpa using hblank

/-- What is wrong with a class. -/
theorem layout_of_check (hv : v ∈ check n c) : ∃ l, layout? c.text (c.options .modelMetaPosition) n = some l ∧
    (l.metaIndex = l.fieldIndex + 1 → hasSeparator c.text l = false) := by
  unfold check at hv
  split at hv
  · cases hv
  rename_i l hl
  refine ⟨l, hl, fun hfollows => ?_⟩
  rw [problem?, if_neg (not_not.2 hfollows)] at hv
  cases hseparator : hasSeparator c.text l
  · rfl
  · rw [hseparator] at hv
    cases hv

/-- What is offered between two offsets in order. -/
theorem replace_of_le {start stop : Nat} (h : start ≤ stop) (text : String) :
    replace c start stop text = .ok (some { span := ⟨start, stop, h⟩, replacement := text, rule := c.info.id }) := by
  have hbounds : (0 : Int) ≤ start ∧ (start : Int) ≤ stop := by omega
  rw [replace, Span.ofBounds?, dif_pos hbounds]
  rfl

/-- **An options class right behind the last field is set apart**, unless it is blocked. -/
theorem changes_of_follows {l : Layout} (hl : layout? c.text (c.options .modelMetaPosition) n = some l)
    (hfollows : l.metaIndex = l.fieldIndex + 1) (hseparator : hasSeparator c.text l = false) :
    Blocked c.text l ∨ ∃ e, fix n c = .ok (some e) ∧ Changes c.text e := by
  by_cases hchunk : l.metaChunkStart ≤ l.fieldLastLine
  · exact .inl ⟨hfollows, .inl hchunk⟩
  cases hgap : (c.text.sliceChars (c.text.lineEndWithBreak l.fieldLastLine)
      (c.text.lineStart l.metaChunkStart)).all isBlank with
  | false => exact .inl ⟨hfollows, .inr hgap⟩
  | true =>
    have hle := c.text.lineEndWithBreak_le_lineStart (Nat.lt_of_not_le hchunk)
    have hfix : fix n c = replace c (c.text.lineEndWithBreak l.fieldLastLine) (c.text.lineStart l.metaChunkStart)
        c.text.newline := by
      simp only [fix, hl, hfollows, hgap, if_neg hchunk, if_true, if_neg (Nat.lt_irrefl _),
        if_neg (show ¬ l.fieldIndex + 1 < l.fieldIndex by omega)]
    rw [hfix, replace_of_le hle]
    refine .inr ⟨_, rfl, .of_chars (c.text.lineStart_le_size _) fun heq => ?_⟩
    -- a gap that is a line break already would not have been reported
    have hfalse := hasSeparator_of_gap (Nat.lt_of_not_le hchunk) (layout?_spec hl).chunkStart_le heq
    rw [hseparator] at hfalse
    cases hfalse

/-- The statements of a class body are in order. -/
theorem members_inOrder (h : ∀ m ∈ Node.walk n, Python.Comes t m) : Python.InOrder (members n) := by
  unfold members
  cases hbody : n.children.find? fun m => m.hasShape .indentedBlock with
  | none => exact .nil
  | some body =>
    have hmem : body ∈ Node.walk n := Node.mem_walk_of_child (List.mem_of_find?_eq_some hbody)
    exact (h body hmem).inOrder (Python.label_of_hasShape (List.find?_some hbody))

theorem isClass_of_isMeta {o : ModelMetaOptions} {m : Node} (h : isMeta o m = true) : Python.IsClass m := by
  unfold isMeta className? at h
  split at h
  · exact ⟨_, _, ‹_›⟩
  · cases h

/-- Decorators only take the first line of a class up. -/
theorem firstLine_le (t : Source) (m : Node) : firstLine t m ≤ t.lineOf m.span.start := by
  refine t.lineOf_mono ?_
  rw [List.foldl_min]
  exact Nat.min_le_left _ _

/-- An options class out of place is moved, or the ends of the move are crossed. -/
theorem fix_ne_none {l : Layout} (hl : layout? c.text (c.options .modelMetaPosition) n = some l)
    (hapart : l.metaIndex ≠ l.fieldIndex + 1) : fix n c ≠ .ok none := by
  have hreplace (start stop : Nat) (text : String) : replace c start stop text ≠ .ok none := by
    unfold replace
    split <;> nofun
  simp only [fix, hl]
  rcases Nat.lt_or_gt_of_ne (layout?_spec hl).metaIndex_ne with hbefore | hafter
  · rw [if_pos hbefore]
    exact hreplace _ _ _
  · rw [if_neg (Nat.lt_asymm hafter), if_pos (by omega)]
    exact hreplace _ _ _

/-- **The move of an options class has its ends in order**, since the statements of the class are. -/
theorem fix_of_inOrder {l : Layout} (hl : layout? c.text (c.options .modelMetaPosition) n = some l)
    (horder : Python.InOrder (members n)) (hapart : l.metaIndex ≠ l.fieldIndex + 1) : ∃ e, fix n c = .ok (some e) := by
  have hof := layout?_spec hl
  obtain ⟨field, hfield, -, hlast⟩ := hof.field
  obtain ⟨hmetaLt, hmeta⟩ := List.getElem?_eq_some_iff.1 hof.optionsClass
  obtain ⟨hfieldLt, hfield⟩ := List.getElem?_eq_some_iff.1 hfield
  have hclass := isClass_of_isMeta hof.isMeta
  rw [Python.InOrder, List.pairwise_iff_getElem] at horder
  rcases Nat.lt_or_gt_of_ne hof.metaIndex_ne with hbefore | hafter
  · -- the options class begins no later than the field
    have hprecedes := horder _ _ hmetaLt hfieldLt hbefore
    rw [hmeta, hfield] at hprecedes
    have hlines : l.metaChunkStart ≤ l.fieldLastLine := calc
      l.metaChunkStart ≤ firstLine c.text l.optionsClass := hof.metaChunkStart ▸ commentStart_le _ _
      _ ≤ c.text.lineOf l.optionsClass.span.start := firstLine_le _ _
      _ ≤ lastLine c.text field := c.text.lineOf_mono (Nat.le_trans (hprecedes.start_le hclass) (Nat.le_max_left _ _))
      _ = l.fieldLastLine := hlast.symm
    simp only [fix, hl, if_pos hbefore, replace_of_le (c.text.lineStart_le_lineEndWithBreak hlines)]
    exact ⟨_, rfl⟩
  · -- the field ends no later than the options class begins
    have hprecedes := horder _ _ hfieldLt hmetaLt hafter
    rw [hmeta, hfield] at hprecedes
    have hends : max field.span.start (field.span.stop - 1) ≤ l.optionsClass.span.start :=
      Nat.max_le.2 ⟨Nat.le_trans field.span.start_le_stop (hprecedes.stop_le hclass),
        Nat.le_trans (Nat.sub_le _ _) (hprecedes.stop_le hclass)⟩
    have hlines : l.fieldLastLine ≤ l.metaLastLine := by
      rw [hlast, hof.metaLastLine]
      exact c.text.lineOf_mono (Nat.le_trans hends (Nat.le_max_left _ _))
    simp only [fix, hl, if_neg (Nat.lt_asymm hafter), if_pos (show l.fieldIndex + 1 < l.metaIndex by omega),
      replace_of_le (c.text.lineEndWithBreak_mono hlines)]
    exact ⟨_, rfl⟩

end MetaPosition

end HouseStyle
