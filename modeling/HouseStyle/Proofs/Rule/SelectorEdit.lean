import HouseStyle.Proofs.Rule.Lightening
import HouseStyle.Proofs.Stylesheet.Selectors
import HouseStyle.Rule.SelectorPerLine

/-!
# Breaking the line after a comma makes the text lighter

The edit puts a line break and blanks between the comma and the next selector, where only blanks
stood and no line break. The text before the comma stays as it was.

* `check_shape`, `fix_shape`: what a violation tells, and where its edit stands.
* `lightens_of_fix`: it makes the text lighter.
-/

namespace HouseStyle.SelectorPerLine

open Stylesheet
open PropertyOrder

variable {t : Source} {src : Array Char}

/-! ### Neighbours -/

/-- What holds of each selector and those after it holds of neighbours. -/
theorem rel_of_zip {R : Node → Node → Prop} {l : List Node} (h : l.Pairwise R) {a b : Node}
    (hab : (a, b) ∈ l.zip l.tail) : R a b := by
  induction l with
  | nil => cases hab
  | cons x l ih =>
    cases l with
    | nil => cases hab
    | cons y l =>
      rcases List.mem_cons.1 hab with heq | hab
      · cases heq
        exact List.rel_of_pairwise_cons h List.mem_cons_self
      · exact ih h.of_cons hab

/-- Selectors with the same one after them are the same. -/
theorem eq_of_zip {l : List Node} (h : l.Pairwise fun a b => a.span.stop < b.span.start) {a b a' b' : Node}
    (hab : (a, b) ∈ l.zip l.tail) (hab' : (a', b') ∈ l.zip l.tail) (hb : b.span = b'.span) : a = a' := by
  induction l with
  | nil => cases hab
  | cons x l ih =>
    cases l with
    | nil => cases hab
    | cons y l =>
      -- what comes after the second one starts behind it
      have hlater {c e : Node} (hce : (c, e) ∈ (y :: l).zip l) : e.span ≠ y.span := by
        intro heq
        have hlt := List.rel_of_pairwise_cons h.of_cons (List.of_mem_zip hce).2
        have := y.span.start_le_stop
        rw [heq] at hlt
        omega
      rcases List.mem_cons.1 hab with heq | hrest
      · cases heq
        rcases List.mem_cons.1 hab' with heq' | hrest'
        · cases heq'
          rfl
        · exact absurd hb.symm (hlater hrest')
      · rcases List.mem_cons.1 hab' with heq' | hrest'
        · cases heq'
          exact absurd hb (hlater hrest)
        · exact ih h.of_cons hrest hrest'

/-! ### The replacement -/

/-- The replacement is white space. -/
theorem isStyleBlank_replacement (t : Source) (offset : Nat) :
    ∀ c ∈ (t.newline ++ t.indentation offset).toList, isStyleBlank c = true := by
  rw [String.toList_append, List.forall_mem_append]
  constructor
  · rcases t.newline_cases with h | h
    · rw [h]
      exact List.forall_mem_singleton.2 rfl
    · rw [h]
      exact List.forall_mem_cons.2 ⟨rfl, List.forall_mem_singleton.2 rfl⟩
  · rw [Source.indentation, String.toList_ofList]
    intro c hc
    have := List.mem_takeWhile_imp hc
    rw [Bool.or_eq_true, beq_iff_eq, beq_iff_eq] at this
    rcases this with rfl | rfl <;> rfl

/-- The replacement holds nothing that counts. -/
theorem solidCount_replacement (t : Source) (offset : Nat) :
    solidCount (t.newline ++ t.indentation offset).toList = 0 := by
  rw [solidCount_eq_zero]
  intro c hc
  rw [isSolid, isStyleBlank_replacement t offset c hc]
  rfl

/-- The replacement breaks the line. -/
theorem newline_mem_replacement (t : Source) (offset : Nat) :
    '\n' ∈ (t.newline ++ t.indentation offset).toList := by
  rw [String.toList_append]
  refine List.mem_append_left _ ?_
  rcases t.newline_cases with h | h <;> rw [h]
  · exact List.mem_cons_self
  · exact List.mem_cons_of_mem _ List.mem_cons_self

theorem newline_mem_takeWhile (t : Source) (offset : Nat) (more : List Char) :
    '\n' ∈ ((t.newline ++ t.indentation offset).toList ++ more).takeWhile isStyleBlank := by
  rw [List.takeWhile_append_of_pos (isStyleBlank_replacement t offset)]
  exact List.mem_append_left _ (newline_mem_replacement t offset)

/-! ### The edit -/

/-- What is passed over of a text ends before a character that is not passed over. -/
theorem mem_of_mem_takeWhile {p : Char → Bool} {x c : Char} {front rest : List Char} (hc : p c = false)
    (hx : x ∈ (front ++ c :: rest).takeWhile p) : x ∈ front := by
  rw [List.takeWhile_append] at hx
  split at hx
  · rw [List.takeWhile_cons, hc, if_neg Bool.false_ne_true, List.append_nil] at hx
    exact hx
  · exact (List.takeWhile_prefix p).subset hx

/-- A text that goes on after its part without commas goes on with a comma. -/
theorem split_at_comma {cs : List Char} (h : (cs.takeWhile (· != ',')).length ≠ cs.length) :
    ∃ after, cs = cs.takeWhile (· != ',') ++ ',' :: after := by
  have hsplit : cs.takeWhile (· != ',') ++ cs.dropWhile (· != ',') = cs := List.takeWhile_append_dropWhile
  have hhead := List.head?_dropWhile_not (· != ',') cs
  cases hd : cs.dropWhile (· != ',') with
  | nil =>
    rw [hd, List.append_nil] at hsplit
    exact absurd (congrArg List.length hsplit) h
  | cons x after =>
    rw [hd] at hsplit hhead
    obtain rfl : x = ',' := by simpa using hhead
    exact ⟨after, hsplit.symm⟩

/-- Where the comma in a gap stands, and what follows it. -/
theorem comma_in_gap {a b : Node} {before after : List Char} {x : Char}
    (hgap : gap t a b = before ++ ',' :: after) (hlt : a.span.stop < b.span.start)
    (hx : t.chars[b.span.start]? = some x) :
    t.chars[a.span.stop + before.length]? = some ',' ∧
      t.chars.toList.drop (a.span.stop + before.length + 1) =
        after ++ x :: t.chars.toList.drop (b.span.start + 1) ∧
      a.span.stop + before.length + 1 + after.length = b.span.start := by
  have hsize := (Array.getElem?_eq_some_iff.1 hx).1
  have hnext : t.chars.toList.drop b.span.start = x :: t.chars.toList.drop (b.span.start + 1) := by
    rw [← List.tail_drop]
    refine List.eq_cons_of_mem_head? ?_
    rw [List.head?_drop, Array.getElem?_toList]
    exact hx
  have hslice : t.sliceChars a.span.stop b.span.start = before ++ ',' :: after := hgap
  have hcomma : t.chars.toList.drop (a.span.stop + before.length) =
      ',' :: (after ++ x :: t.chars.toList.drop (b.span.start + 1)) := by
    rw [← List.drop_drop, ← Source.sliceChars_append_drop (Nat.le_of_lt hlt), hslice, hnext, List.append_assoc,
      List.drop_left]
    rfl
  refine ⟨?_, ?_, ?_⟩
  · rw [← Array.getElem?_toList, ← List.head?_drop, hcomma]
    rfl
  · rw [← List.drop_drop, hcomma]
    rfl
  · have hlen := congrArg List.length hslice
    rw [Source.length_sliceChars (Nat.le_of_lt hsize), List.length_append, List.length_cons] at hlen
    omega

/-- What the edit of the rule is like: it stands between a comma and the selector after it. -/
theorem fix_shape {v : Violation} {n : Node} {c : Context} {e : Edit} (h : fix v n c = some e) :
    ∃ a b before after, (neighbours n).find? (fun (_, b) => b.span == v.span) = some (a, b) ∧
      gap c.text a b = before ++ ',' :: after ∧ ',' ∉ before ∧ after.all isBlank = true ∧
      e.span = .between (a.span.stop + before.length + 1) b.span.start ∧
      e.replacement = c.text.newline ++ c.text.indentation n.span.start := by
  unfold fix at h
  split at h
  · cases h
  · rename_i a b hfind
    simp only at h
    split at h
    · cases h
    · rename_i hc
      cases h
      rw [Bool.or_eq_true, not_or, decide_eq_true_eq, Bool.not_eq_true, Bool.not_eq_false'] at hc
      obtain ⟨hne, hblank⟩ := hc
      obtain ⟨after, hafter⟩ := split_at_comma hne
      refine ⟨a, b, _, after, hfind, hafter, fun hcomma => ?_, ?_, rfl, rfl⟩
      · have := List.mem_takeWhile_imp hcomma
        simp at this
      conv at hblank => rw [hafter, ← List.drop_drop, List.drop_left' (by rw [← hafter])]
      exact hblank

/-- What a violation tells: no line is broken before the selector. -/
theorem check_shape {v : Violation} {n : Node} {c : Context} (h : v ∈ check n c) :
    ∃ a b, (a, b) ∈ neighbours n ∧ v.span = b.span ∧ '\n' ∉ gap c.text a b := by
  obtain ⟨⟨a, b⟩, hab, hv⟩ := List.mem_filterMap.1 h
  simp only at hv
  split at hv
  · cases hv
  · rename_i hbroken
    cases hv
    exact ⟨a, b, hab, rfl, by simpa using hbroken⟩

/-- The violations lie in the text. -/
theorem check_inside {c : Context} {tree n : Node} (hparse : Stylesheet.parse .css c.text.chars = .ok tree)
    (hn : n ∈ Node.walk tree) (hlabel : n.label = .style .selectorList) :
    ∀ v ∈ check n c, v.span.stop ≤ c.text.size := by
  intro v hv
  obtain ⟨ns, r, hr, -, rfl⟩ := parse_iff.1 hparse
  have hn := mem_walkList_of_root hn (by rw [hlabel]; nofun)
  obtain ⟨k, m, stop, hitem, -, -, hscan, hspans, -⟩ := head_of_selectorList hr hn hlabel
  obtain ⟨a, b, hab, hv, -⟩ := check_shape hv
  rw [hv]
  exact Nat.le_trans (hspans b (List.mem_of_mem_tail (List.of_mem_zip hab).2)).stop_le
    (hitem.rest.2.scan_bounds hscan).2.1

/-- **Breaking the line after a comma makes the text lighter.** -/
theorem lightens_of_fix {c : Context} {tree n : Node} {v : Violation} {e : Edit}
    (hparse : Stylesheet.parse .css c.text.chars = .ok tree) (hn : n ∈ Node.walk tree)
    (hlabel : n.label = .style .selectorList) (hv : v ∈ check n c) (hfix : fix v n c = some e) :
    Lightens c.text e := by
  set t := c.text with ht
  obtain ⟨ns, r, hr, -, rfl⟩ := parse_iff.1 hparse
  have hn := mem_walkList_of_root hn (by rw [hlabel]; nofun)
  obtain ⟨k, m, stop, hitem, hmem, ⟨selector, hrule⟩, hscan, hspans, hpair⟩ := head_of_selectorList hr hn hlabel
  obtain ⟨a, b, before, after, hfind, hgap, -, -, hspan, hreplacement⟩ := fix_shape hfix
  have hab : (a, b) ∈ neighbours n := List.mem_of_find?_eq_some hfind
  have hb : b.span = v.span := by
    have := List.find?_some hfind
    exact beq_iff_eq.1 this
  rw [← ht] at hgap hreplacement
  -- the gap with the comma is the one that the violation is about
  have hbroken : '\n' ∉ gap t a b := by
    obtain ⟨a', b', hab', hb', hbroken⟩ := check_shape hv
    obtain rfl := eq_of_zip hpair hab hab' (hb.trans hb')
    rw [gap, hb.trans hb']
    exact hbroken
  have hsize := (hitem.rest.2.scan_bounds hscan).2.1
  have ha := hspans a (List.of_mem_zip hab).1
  have hbs := hspans b (List.mem_of_mem_tail (List.of_mem_zip hab).2)
  have hab' := rel_of_zip hpair hab
  obtain ⟨x, hx, hblank⟩ := hbs.first
  obtain ⟨hchar, hafter, hkb⟩ := comma_in_gap hgap hab' hx
  set k := a.span.stop + before.length with hk
  have hstart : e.span.start = k + 1 := by rw [hspan, Span.between_start]
  have hstop : e.span.stop = b.span.start := by
    rw [hspan, Span.between_stop]
    omega
  refine lightens_of_count ?_ fun src' more hsrc' hcount => ?_
  · rw [hreplacement, solidCount_replacement]
    exact Nat.zero_le _
  rw [hstart, hreplacement] at hsrc'
  have hks : k < t.chars.size := (Array.getElem?_eq_some_iff.1 hchar).1
  obtain ⟨hagree, hdrop⟩ := agree_of_take (Nat.succ_le_of_lt hks) hsrc'
  have hrank : headRank t.chars m.span.start = 2 := by
    rw [headRank_of_item hitem, rankOf, bucket?, hrule]
    rfl
  refine weight_lt_of_comma hagree hmem hscan hrank ?_ ?_ hchar (fun hfeed => hbroken ?_) ?_ hcount
  · have := ha.start_le
    have := ha.lt
    omega
  · have := hbs.lt
    have := hbs.stop_le
    omega
  · rw [hafter] at hfeed
    rw [hgap]
    exact List.mem_append_right _ (List.mem_cons_of_mem _ (mem_of_mem_takeWhile hblank hfeed))
  · rw [hdrop]
    exact newline_mem_takeWhile t _ _

end HouseStyle.SelectorPerLine
