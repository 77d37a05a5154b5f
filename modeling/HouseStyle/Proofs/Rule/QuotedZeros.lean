import HouseStyle.Check.Walk
import HouseStyle.Proofs.Rule.ValueEdit
import HouseStyle.Proofs.Stylesheet.Strings

/-!
# Zeros in quoted text

A zero length in a string is text, not a length. The rule takes a zero length for quoted where an odd
number of quotes of either kind stands before it in the value; the scanning of a stylesheet passes
over strings from left to right. The two agree on values whose quotes only begin and end strings.

* `countsBehind`: whether a zero length counts behind a text.
* `LeavesStrings`: no report and no edit of the rule touches a string.
* `leavesStrings_iff`: exactly when that is so.
-/

namespace HouseStyle.ZeroLength

open Stylesheet

variable {d : Dialect} {t : Source} {tree n v : Node} {text : List Char} {c : Context}

/-! ### Which zero lengths count -/

/-- Whether a zero length counts behind a text: outside of parentheses, and after an even number of
quotes of each kind. -/
def countsBehind (before : List Char) : Bool :=
  decide (before.count '(' ≤ before.count ')') && before.count '"' % 2 == 0 && before.count '\'' % 2 == 0

theorem step_eq (s : Surroundings) (c : Char) : s.step c =
    ⟨s.opened + [c].count '(', s.closed + [c].count ')', s.double + [c].count '"',
      s.single + [c].count '\''⟩ := by
  unfold Surroundings.step
  split
  · rename_i hc
    rw [hc]
    rfl
  · split
    · rename_i hc
      rw [hc]
      rfl
    · split
      · rename_i hc
        rw [hc]
        rfl
      · split
        · rename_i hc
          rw [hc]
          rfl
        · rename_i h1 h2 h3 h4
          simp [h1, h2, h3, h4]

/-- The surroundings behind a text are the counts of its characters. -/
theorem foldl_step (cs : List Char) : ∀ s : Surroundings, cs.foldl Surroundings.step s =
    ⟨s.opened + cs.count '(', s.closed + cs.count ')', s.double + cs.count '"',
      s.single + cs.count '\''⟩ := by
  induction cs with
  | nil => exact fun _ => rfl
  | cons c cs ih =>
    intro s
    have hcount (x : Char) : (c :: cs).count x = [c].count x + cs.count x := @List.count_append _ _ x [c] cs
    rw [List.foldl_cons, ih, step_eq]
    simp only [hcount, Nat.add_assoc]

/-- The zero lengths with a unit in a value, quoted or not. -/
def lengths (o : ZeroUnitOptions) (value : List Char) : List (Nat × Nat) :=
  if o.units.isEmpty then [] else lengthsFrom (unitsOf o) none 0 0 value

theorem mem_spans {o : ZeroUnitOptions} {a b : Nat} :
    (a, b) ∈ spans o text ↔ (a, b) ∈ lengths o text ∧ countsBehind (text.take a) = true := by
  unfold spans lengths
  split
  · exact ⟨nofun, fun h => nomatch h.1⟩
  · rw [mem_spansFrom, foldl_step, Nat.sub_zero]
    simp only [Nat.zero_add]
    rfl

/-- A zero length of a value, as a span of the text. -/
def lengthSpan (v : Node) (m : Nat × Nat) : Span :=
  .between (v.span.start + m.1) (v.span.start + m.2)

theorem mem_spansOf (hv : valueOf? n = some (v, text)) {s : Span} : s ∈ spansOf n c ↔
    ∃ m ∈ lengths (c.options .zeroUnit) text, countsBehind (text.take m.1) = true ∧ lengthSpan v m = s := by
  simp only [spansOf, hv]
  rw [List.mem_map]
  constructor
  · rintro ⟨m, hm, hs⟩
    obtain ⟨hm, hcounts⟩ := mem_spans.1 hm
    exact ⟨m, hm, hcounts, hs⟩
  · rintro ⟨m, hm, hcounts, hs⟩
    exact ⟨m, mem_spans.2 ⟨hm, hcounts⟩, hs⟩

/-! ### Reports and edits -/

/-- **No report and no edit of the rule touches one of some strings.** -/
structure LeavesStrings (n : Node) (c : Context) (ss : List Span) : Prop where
  reports : ∀ w ∈ check n c, ∀ s ∈ ss, w.span.overlaps s = false
  edits : ∀ w e, fix w n c = some e → ∀ s ∈ ss, e.span.overlaps s = false

/-- What is edited is what is reported. -/
theorem leavesStrings_iff_spansOf {ss : List Span} :
    LeavesStrings n c ss ↔ ∀ m ∈ spansOf n c, ∀ s ∈ ss, m.overlaps s = false := by
  refine ⟨fun h m hm => ?_, fun h => ⟨fun w hw => ?_, fun w e he => ?_⟩⟩
  · exact h.reports _ (List.mem_map.2 ⟨m, hm, rfl⟩)
  · obtain ⟨m, hm, rfl⟩ := List.mem_map.1 hw
    exact h m hm
  · unfold fix at he
    split at he
    · rename_i hspan
      cases he
      exact h _ (List.contains_iff_mem.1 hspan)
    · cases he

/-! ### Zero lengths inside of strings -/

/-- What holds no quote touches a string only inside of it. -/
theorem inside_of_overlaps {src : Array Char} {a b : Nat} {s : Span} (hab : a < b) (hfree : QuoteFree src a b)
    (hs : IsString src s) (h : (Span.between a b).overlaps s = true) : s.start < a ∧ b < s.stop := by
  obtain ⟨q, hq, hfirst, hlast, hlen⟩ := hs
  have hover : a < s.stop ∧ s.start < b := by
    have h1 : (Span.between a b).isEmpty = false := by
      simp only [Span.isEmpty, Span.between_start, Span.between_stop, beq_eq_false_iff_ne]
      omega
    have h2 : s.isEmpty = false := by
      simp only [Span.isEmpty, beq_eq_false_iff_ne]
      omega
    simp only [Span.overlaps, h1, h2, Bool.or_self, Bool.false_eq_true, if_false, Bool.and_eq_true,
      decide_eq_true_eq] at h
    rw [Span.between_start, Span.between_stop] at h
    omega
  -- neither end of the string lies in between
  have hends {i : Nat} (hc : src[i]? = some q) : ¬ (a ≤ i ∧ i < b) := by
    intro hi
    have := hfree i hi.2 hi.1
    rw [hc, Option.any_some, hq] at this
    cases this
  have hstart := hends hfirst
  have hstop := hends hlast
  omega

theorem not_countsBehind {q : Char} (hq : isQuote q = true) {before : List Char} (h : before.count q % 2 = 1) :
    countsBehind before = false := by
  simp only [isQuote, Bool.or_eq_true, beq_iff_eq] at hq
  rcases hq with rfl | rfl <;> simp [countsBehind, h]

/-! ### Values -/

/-- The characters that begin and end strings. -/
def quotes : List Char :=
  ['"', '\'']

theorem isQuote_of_not_mem {x : Char} (h : x ∉ quotes) : isQuote x = false := by
  rw [quotes, List.mem_cons, List.mem_singleton, not_or] at h
  rw [isQuote, Bool.or_eq_false_iff, beq_eq_false_iff_ne, beq_eq_false_iff_ne]
  exact h

/-- A zero length of a value, if its units have no quotes: it stands in the value, and holds none. -/
theorem quoteFree_of_length (hparse : Stylesheet.parse d t.chars = .ok tree) (hn : n ∈ Node.walk tree)
    (hd : isDeclaration n = true) (hv : valueOf? n = some (v, text)) {o : ZeroUnitOptions}
    (hu : (o.units.map String.toList).all (avoids quotes) = true) {m : Nat × Nat} (hm : m ∈ lengths o text) :
    m.1 < m.2 ∧ v.span.start + m.2 ≤ v.span.stop ∧
      QuoteFree t.chars (v.span.start + m.1) (v.span.start + m.2) := by
  obtain ⟨a, b⟩ := m
  unfold lengths at hm
  split at hm
  · cases hm
  -- its characters are zeros, a period, and those of a unit
  obtain ⟨i, k, hi, rfl, hlen⟩ := lengthsFrom_spec hm
  obtain rfl : a = i := hi.trans (Nat.zero_add i)
  obtain ⟨hk, hle, havoids⟩ := length?_avoids (by decide) (avoids_unitsOf hu) hlen
  obtain ⟨hstop, hchars⟩ := chars_of_value hparse hn hd hv hk hle havoids
  refine ⟨Nat.lt_add_of_pos_right hk, hstop, fun i hlt hi => ?_⟩
  obtain ⟨x, hx, hquote⟩ := hchars i hi hlt
  rw [hx, Option.any_some]
  exact isQuote_of_not_mem hquote

/-- What stands before a place in a value is a stretch of the text. -/
theorem take_sliceChars {a b i : Nat} (hb : b ≤ t.size) (hi : a + i ≤ b) :
    (t.sliceChars a b).take i = t.sliceChars a (a + i) := by
  rw [← Source.sliceChars_append (Nat.le_add_right a i) hi, List.take_left']
  rw [Source.length_sliceChars (Nat.le_trans hi hb), Nat.add_sub_cancel_left]

/-- The rule leaves strings alone exactly if no zero length that touches one counts. -/
theorem leavesStrings_iff_lengths (hv : valueOf? n = some (v, text)) {ss : List Span} :
    LeavesStrings n c ss ↔ ∀ m ∈ lengths (c.options .zeroUnit) text, ∀ s ∈ ss,
      (lengthSpan v m).overlaps s = true → countsBehind (text.take m.1) = false := by
  rw [leavesStrings_iff_spansOf]
  refine ⟨fun h m hm s hs hover => ?_, fun h w hw s hs => ?_⟩
  · rw [← Bool.not_eq_true]
    intro hcounts
    have := h _ ((mem_spansOf hv).2 ⟨m, hm, hcounts, rfl⟩) s hs
    rw [hover] at this
    cases this
  · obtain ⟨m, hm, hcounts, rfl⟩ := (mem_spansOf hv).1 hw
    rw [← Bool.not_eq_true]
    intro hover
    rw [h m hm s hs hover] at hcounts
    cases hcounts

/-- **When the rule leaves the strings of a declaration alone.** It does so exactly if each zero length
that touches a string stands behind an open parenthesis or an odd number of quotes of a kind. That is
the case for units without quotes if the value begins outside of strings and its quotes only begin
and end them. -/
theorem leavesStrings_iff (hparse : Stylesheet.parse d c.text.chars = .ok tree) (hn : n ∈ Node.walk tree)
    (hd : isDeclaration n = true) : ∃ v text, valueOf? n = some (v, text) ∧
      (LeavesStrings n c (stringsFrom d c.text.chars 0 n.span.start) ↔
        ∀ m ∈ lengths (c.options .zeroUnit) text, ∀ s ∈ stringsFrom d c.text.chars 0 n.span.start,
          (lengthSpan v m).overlaps s = true → countsBehind (text.take m.1) = false) ∧
      (((c.options .zeroUnit).units.map String.toList).all (avoids quotes) = true →
        (∀ s ∈ stringsFrom d c.text.chars 0 n.span.start, v.span.start ≤ s.start ∨ s.stop ≤ v.span.start) →
        Delimits c.text.chars (stringsFrom d c.text.chars 0 n.span.start) v.span.start v.span.stop →
        LeavesStrings n c (stringsFrom d c.text.chars 0 n.span.start)) := by
  obtain ⟨v, -, -, hstop, hv⟩ := exists_value hparse hn hd
  have hiff := @leavesStrings_iff_lengths n v _ c hv
  refine ⟨v, _, hv, hiff, fun hu hoff hdelimits => hiff.2 fun m hm s hs hover => ?_⟩
  obtain ⟨hlt, hle, hfree⟩ := quoteFree_of_length hparse hn hd hv hu hm
  have hstart : n.span.start ≤ c.text.chars.size := by
    have := Stylesheet.stop_le_size hparse hn
    have := n.span.start_le_stop
    omega
  have hstrung := @stringsFrom_strung d _ 0 _ hstart
  -- the zero length stands inside of the string, behind the quote that begins it
  obtain ⟨hafter, hbefore⟩ := inside_of_overlaps (by omega) hfree (hstrung.bounds s hs).2.2 hover
  obtain ⟨q, hq, hodd⟩ := odd_count_inside hstrung hs hoff (hdelimits.mono (Nat.le_refl _) (by omega))
    (Nat.le_add_right _ _) hafter (by omega)
  rw [take_sliceChars hstop (by omega)]
  exact not_countsBehind hq hodd

/-- A value of two strings and a zero length. -/
theorem leavesStrings_iff_two : ∃ tree n,
    Stylesheet.parse .css (Source.ofString ".a \x7b content: \"0px\" '0px' 0px; \x7d").chars = .ok tree ∧
      n ∈ Node.walk tree ∧ isDeclaration n = true ∧
      ((stringsFrom .css (Source.ofString ".a \x7b content: \"0px\" '0px' 0px; \x7d").chars 0 n.span.start).map
        fun s => (s.start, s.stop)) = [(14, 19), (20, 25)] ∧
      LeavesStrings n (contextFor (.ofString ".a \x7b content: \"0px\" '0px' 0px; \x7d") .default (.document 0) zeroUnit)
        (stringsFrom .css (Source.ofString ".a \x7b content: \"0px\" '0px' 0px; \x7d").chars 0 n.span.start) := by
  set t : Source := .ofString ".a \x7b content: \"0px\" '0px' 0px; \x7d" with ht
  have hb : ((Stylesheet.parse .css t.chars).toOption.bind fun tree => (Node.walk tree).find? fun n =>
      isDeclaration n && ((stringsFrom .css t.chars 0 n.span.start).map fun s => (s.start, s.stop)) ==
        [(14, 19), (20, 25)] && (valueOf? n).any fun (v, _) =>
          decide (∀ s ∈ stringsFrom .css t.chars 0 n.span.start,
            v.span.start ≤ s.start ∨ s.stop ≤ v.span.start) &&
          decide (Delimits t.chars (stringsFrom .css t.chars 0 n.span.start) v.span.start v.span.stop)).isSome
      = true := by
    rw [ht]
    decide +kernel
  obtain ⟨n, hb⟩ := Option.isSome_iff_exists.1 hb
  simp only [Option.bind_eq_some_iff, toOption_eq_some] at hb
  obtain ⟨tree, htree, hn⟩ := hb
  have hmem := List.mem_of_find?_eq_some hn
  have hprops := List.find?_some hn
  rw [Bool.and_eq_true, Bool.and_eq_true, beq_iff_eq] at hprops
  obtain ⟨⟨hd, hstrings⟩, hvalue⟩ := hprops
  obtain ⟨v, text, hv, -, hleaves⟩ := leavesStrings_iff (c := contextFor t .default (.document 0) zeroUnit)
    htree hmem hd
  rw [hv, Option.any_some, Bool.and_eq_true, decide_eq_true_eq, decide_eq_true_eq] at hvalue
  exact ⟨tree, n, htree, hmem, hd, hstrings, hleaves (by decide +kernel) hvalue.1 hvalue.2⟩

theorem unitsOf_default : unitsOf (schema .zeroUnit).default =
    ["vmin", "vmax", "rem", "px", "em", "ex", "ch", "vw", "vh", "cm", "mm", "in", "pt", "pc"].map String.toList := by
  simp [unitsOf, schema, List.mergeSort]

/-- **An escaped quote counts as one that ends the string**, so the rule takes the zero length behind it
for one outside of the string. -/
theorem fix_edits_string : ∃ tree n w e s,
    Stylesheet.parse .css (Source.ofString ".a \x7b content: \"\\\" 0px\"; \x7d").chars = .ok tree ∧
      n ∈ Node.walk tree ∧ isDeclaration n = true ∧
      w ∈ check n (contextFor (.ofString ".a \x7b content: \"\\\" 0px\"; \x7d") .default (.document 0) zeroUnit) ∧
      fix w n (contextFor (.ofString ".a \x7b content: \"\\\" 0px\"; \x7d") .default (.document 0) zeroUnit) =
        some e ∧
      s ∈ stringsFrom .css (Source.ofString ".a \x7b content: \"\\\" 0px\"; \x7d").chars 0 n.span.start ∧
      w.span.overlaps s = true ∧ e.span.overlaps s = true := by
  set t : Source := .ofString ".a \x7b content: \"\\\" 0px\"; \x7d" with ht
  set c := contextFor t .default (.document 0) zeroUnit
  have hb : ((Stylesheet.parse .css t.chars).toOption.bind fun tree => (Node.walk tree).find? fun n =>
      isDeclaration n && (valueOf? n).any fun (v, text) => text == "\"\\\" 0px\"".toList &&
        (stringsFrom .css t.chars 0 n.span.start).any fun s =>
          (lengthSpan v (4, 7)).overlaps s).isSome = true := by
    rw [ht]
    decide +kernel
  obtain ⟨n, hb⟩ := Option.isSome_iff_exists.1 hb
  simp only [Option.bind_eq_some_iff, toOption_eq_some] at hb
  obtain ⟨tree, htree, hn⟩ := hb
  have hmem := List.mem_of_find?_eq_some hn
  have hprops := List.find?_some hn
  rw [Bool.and_eq_true] at hprops
  obtain ⟨hd, hvalue⟩ := hprops
  obtain ⟨⟨v, text⟩, hv, hprops⟩ := (Option.any_eq_true ..).1 hvalue
  rw [Bool.and_eq_true, beq_iff_eq] at hprops
  obtain ⟨rfl, hstring⟩ := hprops
  obtain ⟨s, hs, hover⟩ := List.any_eq_true.1 hstring
  have hspans : spans (c.options .zeroUnit) "\"\\\" 0px\"".toList = [(4, 7)] := by
    show spansFrom (unitsOf (schema .zeroUnit).default) ⟨0, 0, 0, 0⟩ none 0 0 _ = _
    rw [unitsOf_default]
    decide +kernel
  have hspan : lengthSpan v (4, 7) ∈ spansOf n c := by
    simp only [spansOf, hv]
    rw [hspans]
    exact List.mem_singleton_self _
  refine ⟨tree, n, _, { span := lengthSpan v (4, 7), replacement := "0", rule := c.info.id }, s, htree, hmem, hd, List.mem_map.2 ⟨_, hspan, rfl⟩, ?_, hs, hover, hover⟩
  rw [fix]
  exact if_pos (List.contains_iff_mem.2 hspan)

end HouseStyle.ZeroLength
