import HouseStyle.Proofs.Rule.Mending
import HouseStyle.Proofs.Text.Breaks

/-!
# New quotes keep line breaks whole

A literal on one line holds breaks only behind backslashes. It is given its new quotes with all that stands
between the old ones, and neither it nor what comes behind it begins inside of a break.

* `Quotes.Requotes`: what a literal becomes; its line feeds and carriage returns stay together.
* `Quotes.Replaces`: where the literal stands, also behind a byte-order mark.
* `Quotes.requotes_of_fix`: the edit of the rule is such.
* `Quotes.keeps_of_fix`, `Quotes.not_mem_of_fix`: what follows for line breaks.
-/

namespace HouseStyle

/-! ### Lower case -/

/-- Lower case leads to small letters only. -/
theorem toLower_eq_iff {c x : Char} (hx : x.toNat < 65) : c.toLower = x ↔ c = x := by
  have hupper (h : 'A'.val ≤ c.val) (h' : c.val ≤ 'Z'.val) : 65 ≤ c.val.toNat ∧ c.val.toNat ≤ 90 :=
    ⟨UInt32.le_iff_toNat_le.1 h, UInt32.le_iff_toNat_le.1 h'⟩
  unfold Char.toLower
  split
  · rename_i h
    obtain ⟨hle, hge⟩ := hupper h.1 h.2
    constructor
    · rintro rfl
      simp only [Char.toNat, UInt32.toNat_add] at hx
      change (c.val.toNat + 32) % 2 ^ 32 < 65 at hx
      omega
    · rintro rfl
      simp only [Char.toNat] at hx
      omega
  · exact Iff.rfl

theorem mem_toLower_iff {cs : List Char} {x : Char} (hx : x.toNat < 65) : x ∈ cs.map Char.toLower ↔ x ∈ cs := by
  rw [List.mem_map]
  constructor
  · rintro ⟨c, hc, hlower⟩
    rwa [(toLower_eq_iff hx).1 hlower] at hc
  · exact fun h => ⟨x, h, (toLower_eq_iff hx).2 rfl⟩

theorem feedsPaired_toLower {cs : List Char} (h : feedsPaired cs = true) :
    feedsPaired (cs.map Char.toLower) = true := by
  rw [feedsPaired_iff] at h ⊢
  intro front rest hcs
  obtain ⟨before, after, rfl, rfl, hafter⟩ := List.map_eq_append_iff.1 hcs
  obtain ⟨c, after, rfl, hc, -⟩ := List.map_eq_cons_iff.1 hafter
  rw [toLower_eq_iff (by decide)] at hc
  rw [List.getLast?_map, h before after (by rw [hc]), Option.map_some]
  rfl

theorem returnsPaired_toLower {cs : List Char} (h : returnsPaired cs = true) :
    returnsPaired (cs.map Char.toLower) = true := by
  rw [returnsPaired_iff] at h ⊢
  intro front rest hcs
  obtain ⟨before, after, rfl, rfl, hafter⟩ := List.map_eq_append_iff.1 hcs
  obtain ⟨c, after, rfl, hc, rfl⟩ := List.map_eq_cons_iff.1 hafter
  rw [toLower_eq_iff (by decide)] at hc
  rw [List.head?_map, h before after (by rw [hc]), Option.map_some]
  rfl

/-! ### Quotes -/

namespace Quotes

theorem isQuote_character (p : QuoteStyle) : character p = '"' ∨ character p = '\'' := by
  cases p
  · exact .inr rfl
  · exact .inl rfl

/-- **A literal with other quotes**: its letters in lower case, and what stands between its quotes between others. -/
structure Requotes (before after : List Char) (front body close : List Char) (q p : Char) : Prop where
  before : before = front ++ q :: (body ++ close)
  after : after = front.map Char.toLower ++ p :: body ++ [p]
  opening : q = '"' ∨ q = '\''
  closing : ∀ z ∈ close, z = '"' ∨ z = '\''
  preferred : p = '"' ∨ p = '\''

section

variable {before after front body close : List Char} {q p : Char}

theorem paired_of_quote (hq : q = '"' ∨ q = '\'') : feedsPaired [q] = true ∧ returnsPaired [q] = true := by
  rcases hq with rfl | rfl <;> exact ⟨rfl, rfl⟩

theorem not_break_of_quote (hq : q = '"' ∨ q = '\'') : q ≠ '\n' ∧ q ≠ '\r' := by
  rcases hq with rfl | rfl <;> decide

/-- Line feeds of a literal stand where they stood. -/
theorem Requotes.feedsPaired (h : Requotes before after front body close q p) (hbefore : feedsPaired before = true) :
    feedsPaired after = true := by
  rw [h.before] at hbefore
  have hopening := feedsPaired_append (feedsPaired_toLower (feedsPaired_left hbefore)) (paired_of_quote h.preferred).1
  have hbody : HouseStyle.feedsPaired body = true := by
    rw [← List.singleton_append, ← List.append_assoc] at hbefore
    refine feedsPaired_left (feedsPaired_right hbefore fun hcut => ?_)
    rw [List.getLast?_concat] at hcut
    exact (not_break_of_quote h.opening).2 (Option.some.inj hcut.1)
  rw [h.after, ← List.singleton_append (l := body), ← List.append_assoc]
  exact feedsPaired_append (feedsPaired_append hopening hbody) (paired_of_quote h.preferred).1

/-- Carriage returns of a literal stand where they stood. -/
theorem Requotes.returnsPaired (h : Requotes before after front body close q p)
    (hbefore : returnsPaired before = true) : returnsPaired after = true := by
  rw [h.before] at hbefore
  have hfront : HouseStyle.returnsPaired front = true :=
    returnsPaired_left hbefore fun hcut => (not_break_of_quote h.opening).1 (Option.some.inj hcut.2)
  have hopening := returnsPaired_append (returnsPaired_toLower hfront) (paired_of_quote h.preferred).2
  have hbody : HouseStyle.returnsPaired body = true := by
    rw [← List.singleton_append, ← List.append_assoc] at hbefore
    refine returnsPaired_left (returnsPaired_right hbefore) fun hcut => ?_
    exact (not_break_of_quote (h.closing _ (List.mem_of_head? hcut.2))).1 rfl
  rw [h.after, ← List.singleton_append (l := body), ← List.append_assoc]
  exact returnsPaired_append (returnsPaired_append hopening hbody) (paired_of_quote h.preferred).2

/-- A line feed or a carriage return stands in a literal if it stood there. -/
theorem Requotes.mem_iff (h : Requotes before after front body close q p) {x : Char} (hx : x = '\n' ∨ x = '\r') :
    x ∈ after ↔ x ∈ before := by
  have hsmall : x.toNat < 65 := by
    rcases hx with rfl | rfl <;> decide
  have hnot {z : Char} (hz : z = '"' ∨ z = '\'') : x ≠ z := by
    rcases hx with rfl | rfl
    · exact (not_break_of_quote hz).1.symm
    · exact (not_break_of_quote hz).2.symm
  have hclose : x ∉ close := fun hmem => hnot (h.closing x hmem) rfl
  rw [h.before, h.after]
  simp only [List.mem_append, List.mem_cons, List.not_mem_nil, or_false, mem_toLower_iff hsmall, hnot h.preferred,
    hnot h.opening, false_or, hclose]

end

/-! The edit of the rule -/

variable {n : Node} {c : Context} {e : Edit}

/-- **Where a literal stands that is given other quotes**, among the characters that are counted. -/
structure Replaces (t : Source) (e : Edit) (value : List Char) (a b : Nat) : Prop where
  lt : a < b
  inside : b ≤ (Python.counted t).length
  text : ((Python.counted t).drop a).take (b - a) = value
  start : e.span.start = Python.placed t a
  stop : e.span.stop = Python.placed t b
  quoted : Python.IsQuoted value

namespace Replaces

variable {t : Source} {value : List Char} {a b : Nat}

theorem getElem? (h : Replaces t e value a b) {j : Nat} (ha : a ≤ j) (hb : j < b) :
    (Python.counted t)[j]? = value[j - a]? := by
  rw [← h.text, List.getElem?_take_of_lt (by omega), List.getElem?_drop, Nat.add_sub_cancel' ha]

theorem length (h : Replaces t e value a b) : value.length = b - a := by
  have := h.inside
  rw [← h.text, List.length_take, List.length_drop]
  omega

/-- A literal is a part of the text. -/
theorem exists_around (h : Replaces t e value a b) : ∃ front rest, t.chars.toList = front ++ (value ++ rest) := by
  obtain ⟨mark, -, hchars⟩ := Python.counted_shape t
  refine ⟨mark ++ (Python.counted t).take a, ((Python.counted t).drop a).drop (b - a), ?_⟩
  rw [← h.text, List.take_append_drop, List.append_assoc, List.take_append_drop, hchars]

/-- What comes behind a literal begins outside of line breaks, and so does the literal. -/
theorem not_cutsBreak (h : Replaces t e value a b) : ¬ t.CutsBreak e.span.start ∧ ¬ t.CutsBreak e.span.stop := by
  have hlt := h.lt
  constructor
  · rw [h.start]
    refine Python.not_cutsBreak_placed ?_
    rw [h.getElem? (Nat.le_refl a) hlt, Nat.sub_self, ← List.head?_eq_getElem?]
    exact h.quoted.first
  · obtain ⟨k, rfl⟩ : ∃ k, b = k + 1 := ⟨b - 1, by omega⟩
    rw [h.stop]
    refine Python.not_cutsBreak_placed_succ ?_
    have hlast := h.quoted.last
    rw [List.getLast?_eq_getElem?, h.length] at hlast
    rw [h.getElem? (by omega) (Nat.lt_succ_self k), show k - a = k + 1 - a - 1 by omega]
    rcases hlast with hlast | hlast <;> rw [hlast] <;> decide

/-- The line feeds that an edit of a literal takes away are those of the literal. -/
theorem feed_mem (h : Replaces t e value a b) (hfeed : '\n' ∈ t.sliceChars e.span.start e.span.stop) :
    '\n' ∈ value := by
  rw [h.start, h.stop] at hfeed
  obtain ⟨j, ha, hb, hchar⟩ := Python.feed_of_placed hfeed
  rw [h.getElem? ha hb] at hchar
  exact List.mem_of_getElem? hchar

theorem feedsPaired (h : Replaces t e value a b) (hfeeds : feedsPaired t.chars.toList = true) :
    HouseStyle.feedsPaired value = true := by
  obtain ⟨front, rest, hchars⟩ := h.exists_around
  rw [hchars] at hfeeds
  refine feedsPaired_left (feedsPaired_right hfeeds fun hcut => ?_)
  have hfirst := h.quoted.first
  have hlength := h.length
  have hlt := h.lt
  cases value with
  | nil =>
    rw [List.length_nil] at hlength
    omega
  | cons x value => exact hfirst hcut.2

theorem returnsPaired (h : Replaces t e value a b) (hreturns : returnsPaired t.chars.toList = true) :
    HouseStyle.returnsPaired value = true := by
  obtain ⟨front, rest, hchars⟩ := h.exists_around
  rw [hchars] at hreturns
  refine returnsPaired_left (returnsPaired_right hreturns) fun hcut => ?_
  rcases h.quoted.last with hlast | hlast
  · exact absurd (hcut.1.symm.trans hlast) (by decide)
  · exact absurd (hcut.1.symm.trans hlast) (by decide)

end Replaces

/-- The rule gives a literal other quotes, at its place. -/
theorem requotes_of_fix (hcomes : Python.Comes c.text n) (hsingle : quoteStyle.applies n = .ok true)
    (hfix : fix n c = some e) : ∃ value a b front body close q p, Replaces c.text e value a b ∧
      Requotes value e.replacement.toList front body close q p := by
  unfold fix at hfix
  split at hfix
  · cases hfix
  obtain ⟨text, htext, rfl⟩ := Option.map_eq_some_iff.1 hfix
  obtain ⟨value, marker, quote, hlabel⟩ := literal_of_swapped htext
  obtain ⟨hliteral, a, b, hlt, hle, hcounted, hspan⟩ := hcomes.exists_literal hlabel
  obtain ⟨front, q, tail, hopened, -, -, hspelling⟩ :=
    swapped_shape hliteral hlabel (length_of_applies hlabel hsingle) htext
  -- what stands behind the body is the closing quote
  have htail : ∃ close, tail = tail.dropLast ++ close ∧ ∀ z ∈ close, z = '"' ∨ z = '\'' := by
    rcases List.eq_nil_or_concat' tail with rfl | ⟨body, z, rfl⟩
    · exact ⟨[], rfl, fun _ hz => nomatch hz⟩
    · have hlast := hliteral.quoted.last
      rw [hopened.value, ← List.cons_append, ← List.append_assoc, List.getLast?_concat] at hlast
      refine ⟨[z], by rw [List.dropLast_concat], fun y hy => ?_⟩
      rw [List.mem_singleton.1 hy]
      exact hlast.imp Option.some.inj Option.some.inj
  obtain ⟨close, htail, hclose⟩ := htail
  refine ⟨value.toList, a, b, front, tail.dropLast, close, q, character (c.options .quoteStyle).preferred,
    ⟨hlt, hle, hcounted, ?_, ?_, hliteral.quoted⟩, ?_, ?_, hopened.isQuote, hclose, isQuote_character _⟩
  · rw [hspan, Span.between_start]
  · rw [hspan, Span.between_stop]
    exact Nat.max_eq_right (Python.placed_mono c.text (Nat.le_of_lt hlt))
  · rw [← htail, hopened.value]
  · rw [hspelling, hopened.marker]

/-- **New quotes keep line breaks whole.** -/
theorem keeps_of_fix (hcomes : Python.Comes c.text n) (hsingle : quoteStyle.applies n = .ok true)
    (hfeeds : feedsPaired c.text.chars.toList = true) (hreturns : returnsPaired c.text.chars.toList = true)
    (hfix : fix n c = some e) : e.KeepsFeeds c.text ∧ e.KeepsReturns c.text := by
  obtain ⟨value, a, b, front, body, close, q, p, hreplaces, hrequotes⟩ := requotes_of_fix hcomes hsingle hfix
  obtain ⟨hstart, hstop⟩ := hreplaces.not_cutsBreak
  refine ⟨⟨hrequotes.feedsPaired (hreplaces.feedsPaired hfeeds), hstop, fun hfeed => ?_⟩,
    ⟨hrequotes.returnsPaired (hreplaces.returnsPaired hreturns), hstart⟩⟩
  exact (hrequotes.mem_iff (.inl rfl)).2 (hreplaces.feed_mem hfeed)

/-- Where no carriage return stands, new quotes bring none in. -/
theorem not_mem_of_fix (hcomes : Python.Comes c.text n) (hsingle : quoteStyle.applies n = .ok true)
    (hnone : '\r' ∉ c.text.chars.toList) (hfix : fix n c = some e) : '\r' ∉ e.replacement.toList := by
  obtain ⟨value, a, b, front, body, close, q, p, hreplaces, hrequotes⟩ := requotes_of_fix hcomes hsingle hfix
  obtain ⟨before, after, hchars⟩ := hreplaces.exists_around
  rw [hrequotes.mem_iff (.inr rfl)]
  intro hreturn
  refine hnone ?_
  rw [hchars]
  exact List.mem_append_right _ (List.mem_append_left _ hreturn)

end Quotes

end HouseStyle
