import HouseStyle.Text.Blank
import HouseStyle.Text.Source
import Mathlib.Tactic.Common

/-!
# Lines and blanks

* `Source.lineStart_le_size`, `Source.lineEndWithBreak_le_size`: no line begins or ends
  behind the end of the text.
* `flatten_splitLines`: the lines of a text make it up.
* `visible` is what a text holds besides blanks, and `visible_flatten_dropEnds`: blank
  lines at either end add nothing to it.
-/

namespace HouseStyle

/-! ### The lines of a text -/

theorem le_of_mem_startsAfterBreaks {p : Nat} {cs : List Char} :
    ∀ {i : Nat}, p ∈ startsAfterBreaks i cs → p ≤ i + cs.length := by
  induction cs with
  | nil =>
    intro i h
    cases h
  | cons c cs ih =>
    intro i h
    rw [List.length_cons]
    unfold startsAfterBreaks at h
    split at h
    · rcases List.mem_cons.1 h with rfl | h
      · omega
      · have := ih h
        omega
    · have := ih h
      omega

theorem lt_of_mem_startsAfterBreaks {p : Nat} {cs : List Char} :
    ∀ {i : Nat}, p ∈ startsAfterBreaks i cs → i < p := by
  induction cs with
  | nil =>
    intro i h
    cases h
  | cons c cs ih =>
    intro i h
    unfold startsAfterBreaks at h
    split at h
    · rcases List.mem_cons.1 h with rfl | h
      · exact Nat.lt_succ_self _
      · exact Nat.lt_of_succ_lt (ih h)
    · exact Nat.lt_of_succ_lt (ih h)

theorem startsAfterBreaks_pairwise (cs : List Char) : ∀ i, (startsAfterBreaks i cs).Pairwise (· < ·) := by
  induction cs with
  | nil => exact fun _ => .nil
  | cons c cs ih =>
    intro i
    unfold startsAfterBreaks
    split
    · exact List.pairwise_cons.2 ⟨fun _ => lt_of_mem_startsAfterBreaks, ih _⟩
    · exact ih _

namespace Source

variable {t : Source}

theorem lineStarts_pairwise (t : Source) : t.lineStarts.toList.Pairwise (· < ·) := by
  rw [t.lineStarts_eq, List.pairwise_cons]
  exact ⟨fun _ h => lt_of_mem_startsAfterBreaks h, startsAfterBreaks_pairwise _ _⟩

theorem le_size_of_mem_lineStarts {p : Nat} (h : p ∈ t.lineStarts) : p ≤ t.size := by
  rw [t.lineStarts_eq, List.mem_toArray, List.mem_cons] at h
  rcases h with rfl | h
  · exact Nat.zero_le _
  · have := le_of_mem_startsAfterBreaks h
    rw [Nat.zero_add, Array.length_toList] at this
    exact this

theorem getD_lineStarts_le_size (t : Source) (i : Nat) : (t.lineStarts[i]?).getD t.size ≤ t.size := by
  cases h : t.lineStarts[i]? with
  | none => exact Nat.le_refl _
  | some p => exact le_size_of_mem_lineStarts (Array.mem_of_getElem? h)

/-- Lines begin one after the other. -/
theorem getD_lineStarts_mono (t : Source) {i j : Nat} (h : i ≤ j) :
    (t.lineStarts[i]?).getD t.size ≤ (t.lineStarts[j]?).getD t.size := by
  by_cases hj : j < t.lineStarts.size
  · have hi : i < t.lineStarts.size := Nat.lt_of_le_of_lt h hj
    rw [Array.getElem?_eq_getElem hj, Array.getElem?_eq_getElem hi]
    rcases Nat.eq_or_lt_of_le h with rfl | hlt
    · exact Nat.le_refl _
    · exact Nat.le_of_lt (List.pairwise_iff_getElem.1 t.lineStarts_pairwise i j hi hj hlt)
  · rw [Array.getElem?_eq_none (Nat.le_of_not_lt hj)]
    exact t.getD_lineStarts_le_size i

theorem lineStart_le_size (t : Source) (line : Nat) : t.lineStart line ≤ t.size :=
  t.getD_lineStarts_le_size _

theorem lineEndWithBreak_le_size (t : Source) (line : Nat) : t.lineEndWithBreak line ≤ t.size :=
  t.getD_lineStarts_le_size _

theorem lineStart_le_lineEndWithBreak (t : Source) {line line' : Nat} (h : line ≤ line') :
    t.lineStart line ≤ t.lineEndWithBreak line' :=
  t.getD_lineStarts_mono (by omega)

theorem lineEndWithBreak_mono (t : Source) {line line' : Nat} (h : line ≤ line') :
    t.lineEndWithBreak line ≤ t.lineEndWithBreak line' :=
  t.getD_lineStarts_mono h

theorem lineEndWithBreak_le_lineStart (t : Source) {line line' : Nat} (h : line < line') :
    t.lineEndWithBreak line ≤ t.lineStart line' :=
  t.getD_lineStarts_mono (by omega)

/-- A later offset is on no earlier line. -/
theorem lineOf_mono (t : Source) {offset offset' : Nat} (h : offset ≤ offset') : t.lineOf offset ≤ t.lineOf offset' :=
  Array.countP_mono_left fun _ _ hle => decide_eq_true (Nat.le_trans (of_decide_eq_true hle) h)

/-- A line ends before its break, and the next line begins after it. -/
theorem lineEnd_le_lineStart (t : Source) (line : Nat) : t.lineEnd line ≤ t.lineStart (line + 1) := by
  unfold lineEnd lineStart lineStart?
  rw [Nat.add_sub_cancel]
  split
  · rename_i next hnext
    rw [hnext, Option.getD_some]
    split <;> omega
  · rename_i hnone
    rw [hnone]
    exact Nat.le_refl _

/-- No line of a text begins where an earlier one does. -/
theorem lineStart_lt (t : Source) {line line' : Nat} (hpos : 0 < line) (h : line < line')
    (hcount : line' ≤ t.lineCount) : t.lineStart line < t.lineStart line' := by
  have hlast : line' - 1 < t.lineStarts.size := Nat.lt_of_lt_of_le (by omega) hcount
  have hfirst : line - 1 < t.lineStarts.size := by omega
  rw [lineStart, lineStart?, lineStart, lineStart?, Array.getElem?_eq_getElem hfirst, Array.getElem?_eq_getElem hlast]
  exact List.pairwise_iff_getElem.1 t.lineStarts_pairwise _ _ hfirst hlast (by omega)

/-- The break that inserted text repeats. -/
theorem newline_cases (t : Source) : t.newline.toList = ['\n'] ∨ t.newline.toList = ['\r', '\n'] := by
  unfold newline
  split
  · split
    · exact .inr rfl
    · exact .inl rfl
  · exact .inl rfl

/-! ### Parts of a text -/

theorem toList_sliceSpan (t : Source) (s : Span) : (t.sliceSpan s).toList = t.sliceChars s.start s.stop :=
  String.toList_ofList

/-- Ends that are put in order cover the same text. -/
theorem sliceChars_max (t : Source) (a b : Nat) : t.sliceChars a (max a b) = t.sliceChars a b := by
  rcases Nat.le_total a b with h | h
  · rw [Nat.max_eq_right h]
  · rw [Nat.max_eq_left h, sliceChars, sliceChars, Array.extract_eq_empty_of_le (Nat.min_le_left _ _),
      Array.extract_eq_empty_of_le (Nat.le_trans (Nat.min_le_left _ _) h)]

theorem length_sliceChars {a b : Nat} (hb : b ≤ t.size) : (t.sliceChars a b).length = b - a := by
  have hs : t.size = t.chars.size := rfl
  rw [sliceChars, Array.length_toList, Array.size_extract]
  omega

/-- The characters of a part stand between its ends. -/
theorem mem_sliceChars_iff {a b : Nat} {x : Char} :
    x ∈ t.sliceChars a b ↔ ∃ i, a ≤ i ∧ i < b ∧ t.chars[i]? = some x := by
  rw [sliceChars, List.mem_iff_getElem?]
  constructor
  · rintro ⟨i, hi⟩
    rw [Array.getElem?_toList, Array.getElem?_extract] at hi
    split at hi
    · exact ⟨a + i, Nat.le_add_right _ _, by omega, hi⟩
    · cases hi
  · rintro ⟨i, ha, hb, hi⟩
    have := (Array.getElem?_eq_some_iff.1 hi).1
    refine ⟨i - a, ?_⟩
    rw [Array.getElem?_toList, Array.getElem?_extract, if_pos (by omega), Nat.add_sub_cancel' ha, hi]

theorem getLast?_sliceChars {a b : Nat} (hab : a < b) (hb : b ≤ t.size) :
    (t.sliceChars a b).getLast? = t.chars[b - 1]? := by
  have hs : t.size = t.chars.size := rfl
  rw [List.getLast?_eq_getElem?, length_sliceChars hb, sliceChars, Array.getElem?_toList,
    Array.getElem?_extract, if_pos (by omega)]
  congr 1
  omega

theorem sliceChars_one {i : Nat} {c : Char} (h : t.chars[i]? = some c) : t.sliceChars i (i + 1) = [c] := by
  rw [sliceChars, Array.toList_extract, List.extract_eq_take_drop, Nat.add_sub_cancel_left, List.take_one,
    List.head?_drop, Array.getElem?_toList, h]
  rfl

/-- A part of a text is what comes up to a place in it and what follows. -/
theorem sliceChars_append {a b c : Nat} (hab : a ≤ b) (hbc : b ≤ c) :
    t.sliceChars a b ++ t.sliceChars b c = t.sliceChars a c := by
  unfold sliceChars
  rw [← Array.toList_append, Array.extract_append_extract, Nat.min_eq_left hab, Nat.max_eq_right hbc]

theorem sliceChars_append_drop {a b : Nat} (hab : a ≤ b) :
    t.sliceChars a b ++ t.chars.toList.drop b = t.chars.toList.drop a := by
  rw [Source.sliceChars, Array.toList_extract, List.extract_eq_take_drop]
  have := List.take_append_drop (b - a) (t.chars.toList.drop a)
  rwa [List.drop_drop, Nat.add_sub_cancel' hab] at this

end Source

theorem flatten_splitLinesFrom (line cs : List Char) :
    (splitLinesFrom line cs).flatten = line.reverse ++ cs := by
  fun_induction splitLinesFrom line cs with
  | case1 line h =>
    rw [List.isEmpty_iff.1 h]
    rfl
  | case2 line h => rfl
  | case3 line rest ih =>
    rw [List.flatten_cons, ih]
    simp
  | case4 line c rest _ h ih =>
    rw [List.flatten_cons, ih]
    simp
  | case5 line c rest _ h ih =>
    rw [ih]
    simp

theorem flatten_splitLines (cs : List Char) : (splitLines cs).flatten = cs :=
  flatten_splitLinesFrom [] cs

/-! ### What is no blank -/

/-- The characters of a text that are no blanks. -/
def visible (cs : List Char) : List Char :=
  cs.filter (!isBlank ·)

theorem visible_append (xs ys : List Char) : visible (xs ++ ys) = visible xs ++ visible ys :=
  List.filter_append ..

theorem visible_eq_nil {cs : List Char} (h : cs.all isBlank = true) : visible cs = [] := by
  refine List.filter_eq_nil_iff.2 fun c hc => ?_
  rw [List.all_eq_true.1 h c hc]
  decide

theorem visible_flatten_of_blank {lines : List (List Char)} (h : lines.all (·.all isBlank) = true) :
    visible lines.flatten = [] :=
  visible_eq_nil (by rw [List.all_flatten]; exact h)

/-- Blank lines at either end hold nothing else. -/
theorem visible_flatten_dropEnds (lines : List (List Char)) :
    visible (dropEnds (·.all isBlank) lines).flatten = visible lines.flatten := by
  set p : List Char → Bool := (·.all isBlank)
  have hfront : lines = lines.takeWhile p ++ lines.dropWhile p := List.takeWhile_append_dropWhile.symm
  have hback : lines.dropWhile p = dropEnds p lines ++ ((lines.dropWhile p).reverse.takeWhile p).reverse := by
    rw [dropEnds, ← List.reverse_append, List.takeWhile_append_dropWhile, List.reverse_reverse]
  have hblank : visible (lines.takeWhile p).flatten = [] := visible_flatten_of_blank List.all_takeWhile
  have hblank' : visible ((lines.dropWhile p).reverse.takeWhile p).reverse.flatten = [] :=
    visible_flatten_of_blank (by rw [List.all_reverse]; exact List.all_takeWhile)
  conv_rhs => rw [hfront, List.flatten_append, visible_append, hblank, hback, List.flatten_append,
    visible_append, hblank', List.nil_append, List.append_nil]

theorem Source.visible_newline (t : Source) : visible t.newline.toList = [] := by
  rcases t.newline_cases with h | h <;> rw [h] <;> decide

end HouseStyle
