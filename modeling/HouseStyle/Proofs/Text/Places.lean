import HouseStyle.Proofs.Text.Positions
import Mathlib.Data.List.DropRight

/-!
# Lines, offsets and places

Offsets and places correspond: the place of an offset leads back to it, and places come in the order
of the offsets. The lines of a text, each with its break, make it up.

* `writtenLines`: the lines of a text that are not blank, without their breaks.
* `Source.writtenLines_lines`: **what is written on successive lines** is what is written in the part
  of the text that they are.
* `EndsLine`: a text after which lines are counted anew, `writtenLines_intercalate` for such texts
  with empty lines between them.
* `Source.HasPlace`: what holds of the place of an offset.
* `Source.LineAt.lineEnd_eq`: where the text of a line ends.
* `Source.HasLine`: what holds of a line, and `Source.EndsInBreak` of what stands at its end.
* `Source.flatMap_lines`: the lines of a text make it up.
* `Source.places_correspond`: **offsets and places correspond.**
-/

namespace HouseStyle

variable {t : Source}

/-! ### Lines that are not blank -/

/-- The lines of a text that are not blank, without their breaks; carriage returns at the end of a
line belong to its break. -/
def writtenLines (cs : List Char) : List (List Char) :=
  ((cs.splitOn '\n').filter fun line => !line.all isBlank).map fun line => line.rdropWhile (· == '\r')

example : writtenLines "a\r\n \n\r\n  b \n".toList = [['a'], [' ', ' ', 'b', ' ']] := by decide

theorem writtenLines_feed (xs ys : List Char) :
    writtenLines (xs ++ '\n' :: ys) = writtenLines xs ++ writtenLines ys := by
  rw [writtenLines, List.splitOn_append_cons_self, List.filter_append, List.map_append]
  rfl

theorem writtenLines_single {xs : List Char} (h : '\n' ∉ xs) :
    writtenLines xs = if xs.all isBlank then [] else [xs.rdropWhile (· == '\r')] := by
  rw [writtenLines, List.splitOn_eq_singleton h]
  cases hblank : xs.all isBlank <;> simp [hblank]

theorem writtenLines_eq_nil_iff {xs : List Char} (h : '\n' ∉ xs) : writtenLines xs = [] ↔ xs.all isBlank = true := by
  rw [writtenLines_single h]
  cases xs.all isBlank <;> simp

/-- A carriage return at the end of a text makes no difference. -/
theorem writtenLines_return (xs : List Char) : writtenLines (xs ++ ['\r']) = writtenLines xs := by
  have hline {ys : List Char} (h : '\n' ∉ ys) : writtenLines (ys ++ ['\r']) = writtenLines ys := by
    have h' : '\n' ∉ ys ++ ['\r'] := by simpa using h
    have hblank : (ys ++ ['\r']).all isBlank = ys.all isBlank := by
      rw [List.all_append, show ['\r'].all isBlank = true by decide, Bool.and_true]
    have hdrop : (ys ++ ['\r']).rdropWhile (· == '\r') = ys.rdropWhile (· == '\r') :=
      List.rdropWhile_concat_pos (· == '\r') ys '\r' (by decide)
    rw [writtenLines_single h, writtenLines_single h', hblank, hdrop]
  -- only the last line of the text has it
  obtain ⟨before, hsplit, hbefore⟩ := exists_before xs xs.length
  rw [List.take_length] at hsplit
  have hlast := hline (not_mem_lineFront xs xs.length)
  rcases hbefore with rfl | hfeed
  · rw [List.nil_append] at hsplit
    rwa [← hsplit] at hlast
  · obtain ⟨front, rfl⟩ := List.getLast?_eq_some_iff.1 hfeed
    rw [hsplit, List.append_assoc, List.append_assoc, List.singleton_append, writtenLines_feed, hlast,
      List.append_assoc, List.singleton_append, writtenLines_feed]

theorem writtenLines_newline (xs ys : List Char) :
    writtenLines (xs ++ (t.newline.toList ++ ys)) = writtenLines xs ++ writtenLines ys := by
  rcases t.newline_cases with hbreak | hbreak <;> rw [hbreak]
  · exact writtenLines_feed xs ys
  · rw [← writtenLines_return xs, ← writtenLines_feed, List.append_assoc]
    rfl

namespace Source

/-- What is written on a line of a text. -/
def written (t : Source) (line : Nat) : List (List Char) :=
  writtenLines (t.lineText line).toList

variable {line : Nat}

theorem LineAt.written_eq {before text after : List Char} (h : t.LineAt line before text after) :
    t.written line = writtenLines text := by
  rw [written, h.lineText_eq]
  split
  · rename_i hreturn
    obtain ⟨front, rfl⟩ := List.getLast?_eq_some_iff.1 hreturn.2
    rw [List.dropLast_concat, writtenLines_return]
  · rfl

theorem not_mem_lineText (hpos : 0 < line) (hcount : line ≤ t.lineCount) : '\n' ∉ (t.lineText line).toList := by
  obtain ⟨before, text, after, h⟩ := lineAt_of_le hpos hcount
  rw [h.lineText_eq]
  split
  · exact fun hmem => h.noFeed (List.dropLast_subset _ hmem)
  · exact h.noFeed

/-- **What is written on successive lines** is what is written in the part of the text that they are. -/
theorem writtenLines_lines {first : Nat} (hpos : 0 < first) : ∀ {k : Nat}, first + k ≤ t.lineCount →
    writtenLines (t.sliceChars (t.lineStart first) (t.lineEndWithBreak (first + k))) =
      (List.range' first (k + 1)).flatMap t.written := by
  intro k
  induction k generalizing first with
  | zero =>
    intro hcount
    obtain ⟨before, text, after, h⟩ := lineAt_of_le hpos hcount
    rw [Nat.add_zero, h.slice_eq, List.range'_one, List.flatMap_singleton, h.written_eq]
    rcases h.ends with rfl | hfeed
    · rw [List.take_nil, List.append_nil]
    · obtain ⟨more, rfl⟩ := List.head?_eq_some_iff.1 hfeed
      exact (writtenLines_feed text []).trans (List.append_nil _)
  | succ k ih =>
    intro hcount
    obtain ⟨before, text, after, h⟩ := lineAt_of_le hpos (by omega : first ≤ t.lineCount)
    -- another line comes, so this one ends in a line feed
    have hsome : t.lineStarts[first]?.isSome = true := by
      rw [Array.getElem?_eq_getElem (Nat.lt_of_lt_of_le (by omega) hcount)]
      rfl
    have hfeed : after.take 1 = ['\n'] := by
      rw [h.next] at hsome
      rcases h.ends with rfl | hfeed
      · cases hsome
      · obtain ⟨more, rfl⟩ := List.head?_eq_some_iff.1 hfeed
        rfl
    have hsplit : t.sliceChars (t.lineStart first) (t.lineEndWithBreak (first + (k + 1))) =
        text ++ '\n' :: t.sliceChars (t.lineStart (first + 1)) (t.lineEndWithBreak (first + 1 + k)) := by
      rw [← sliceChars_append (t.lineStart_le_lineEndWithBreak (Nat.le_refl first))
        (t.lineEndWithBreak_mono (Nat.le_add_right _ _)), h.slice_eq, hfeed, List.append_assoc, Nat.add_right_comm]
      rfl
    rw [hsplit, writtenLines_feed, ih (Nat.succ_pos first) (by omega), ← h.written_eq, List.range'_succ (n := k + 1),
      List.flatMap_cons]

end Source

/-! ### Texts made of lines -/

/-- A text that is empty or ends in the line break of the source. -/
def EndsLine (t : Source) (xs : List Char) : Prop :=
  xs = [] ∨ ∃ ys, xs = ys ++ t.newline.toList

theorem endsLine_newline (t : Source) : EndsLine t t.newline.toList :=
  .inr ⟨[], rfl⟩

theorem EndsLine.append {xs ys : List Char} (hx : EndsLine t xs) (hy : EndsLine t ys) : EndsLine t (xs ++ ys) := by
  rcases hy with rfl | ⟨zs, rfl⟩
  · rwa [List.append_nil]
  · exact .inr ⟨xs ++ zs, (List.append_assoc ..).symm⟩

/-- After a line that ended, lines are counted anew. -/
theorem EndsLine.writtenLines_append {xs : List Char} (h : EndsLine t xs) (ys : List Char) :
    writtenLines (xs ++ ys) = writtenLines xs ++ writtenLines ys := by
  have hfeed (zs : List Char) : writtenLines ((zs ++ ['\n']) ++ ys) = writtenLines (zs ++ ['\n']) ++ writtenLines ys := by
    rw [List.append_assoc, List.singleton_append, writtenLines_feed, writtenLines_feed]
    exact congrArg (· ++ _) (List.append_nil _).symm
  rcases h with rfl | ⟨zs, rfl⟩
  · rfl
  · rcases t.newline_cases with hbreak | hbreak <;> rw [hbreak]
    · exact hfeed zs
    · rw [show zs ++ ['\r', '\n'] = (zs ++ ['\r']) ++ ['\n'] by simp]
      exact hfeed (zs ++ ['\r'])

theorem writtenLines_flatten {xss : List (List Char)} (h : ∀ xs ∈ xss, EndsLine t xs) :
    writtenLines xss.flatten = xss.flatMap writtenLines := by
  induction xss with
  | nil => rfl
  | cons xs xss ih =>
    rw [List.forall_mem_cons] at h
    rw [List.flatten_cons, h.1.writtenLines_append, ih h.2, List.flatMap_cons]

/-- Empty lines between texts add nothing. -/
theorem writtenLines_intercalate {xss : List (List Char)} (h : ∀ xs ∈ xss, EndsLine t xs) :
    writtenLines (t.newline.toList.intercalate xss) = xss.flatMap writtenLines ∧
      EndsLine t (t.newline.toList.intercalate xss) := by
  induction xss with
  | nil => exact ⟨rfl, .inl rfl⟩
  | cons xs xss ih =>
    rw [List.forall_mem_cons] at h
    obtain ⟨hwritten, hends⟩ := ih h.2
    cases xss with
    | nil =>
      rw [List.intercalate_singleton, List.flatMap_singleton]
      exact ⟨rfl, h.1⟩
    | cons ys yss =>
      have hblank : writtenLines t.newline.toList = [] := by
        rcases t.newline_cases with hbreak | hbreak <;> rw [hbreak] <;> rfl
      rw [List.intercalate_cons_cons, List.append_assoc]
      refine ⟨?_, h.1.append ((endsLine_newline t).append hends)⟩
      rw [h.1.writtenLines_append, (endsLine_newline t).writtenLines_append, hblank, List.nil_append, hwritten]
      rfl

/-- The break that ends a text may be left out, or part of it. -/
theorem EndsLine.writtenLines_take {xs : List Char} (h : EndsLine t xs) {k : Nat} (hk : k ≤ t.newline.length) :
    writtenLines (xs.take (xs.length - k)) = writtenLines xs := by
  have hfeed (ys : List Char) : writtenLines (ys ++ ['\n']) = writtenLines ys :=
    (writtenLines_feed ys []).trans (List.append_nil _)
  rcases h with rfl | ⟨ys, rfl⟩
  · rw [List.take_nil]
  rw [← String.length_toList] at hk
  have htake : (ys ++ t.newline.toList).take ((ys ++ t.newline.toList).length - k) =
      ys ++ t.newline.toList.take (t.newline.toList.length - k) := by
    rw [List.length_append, Nat.add_sub_assoc hk, List.take_length_add_append]
  rw [htake]
  rcases t.newline_cases with hbreak | hbreak <;> rw [hbreak] at hk ⊢
  · rw [hfeed]
    match k with
    | 0 => exact hfeed ys
    | 1 => exact congrArg writtenLines (List.append_nil ys)
  · have hreturn : writtenLines (ys ++ ['\r', '\n']) = writtenLines ys := by
      rw [← List.singleton_append, ← List.append_assoc, hfeed, writtenLines_return]
    rw [hreturn]
    match k with
    | 0 => exact hreturn
    | 1 => exact writtenLines_return ys
    | 2 => exact congrArg writtenLines (List.append_nil ys)

/-- The order of places: by line, and on one line by column. -/
def Position.Before (p q : Position) : Prop :=
  p.line < q.line ∨ p.line = q.line ∧ p.column < q.column

namespace Source

variable {offset line : Nat}

/-! ### The place of an offset -/

/-- **A place stands for an offset**: it is on a line of the text, its column leads from the start of
the line to the offset, and the next line begins behind it. -/
structure HasPlace (t : Source) (offset : Nat) (p : Position) : Prop where
  one_le_line : 1 ≤ p.line
  line_le : p.line ≤ t.lineCount
  one_le_column : 1 ≤ p.column
  offset_eq : t.offset? p.line (p.column - 1) = some offset
  start_le : t.lineStart p.line ≤ offset
  lt_next : p.line < t.lineCount → offset < t.lineStart (p.line + 1)

theorem lineStart?_of_le (hpos : 0 < line) (hcount : line ≤ t.lineCount) :
    t.lineStart? line = some (t.lineStart line) := by
  have hlt : line - 1 < t.lineStarts.size := Nat.lt_of_lt_of_le (Nat.sub_one_lt_of_lt hpos) hcount
  rw [lineStart, lineStart?, Array.getElem?_eq_getElem hlt, Option.getD_some]

theorem lineStart_lineOf_le (h : offset ≤ t.size) : t.lineStart (t.lineOf offset) ≤ offset := by
  rw [lineStart_lineOf h]
  exact Nat.sub_le _ _

/-- An offset stands before the line after its own. -/
theorem lt_lineStart_succ_lineOf (h : t.lineOf offset < t.lineCount) :
    offset < t.lineStart (t.lineOf offset + 1) := by
  by_contra hle
  have hmono := t.lineOf_mono (Nat.not_lt.1 hle)
  rw [lineOf_lineStart (Nat.succ_pos _) h] at hmono
  omega

theorem hasPlace_position (h : offset ≤ t.size) : t.HasPlace offset (t.position offset) := by
  have hstart := lineStart_lineOf_le h
  refine ⟨t.one_le_lineOf offset, t.lineOf_le_lineCount offset, Nat.le_add_left _ _, ?_, hstart,
    lt_lineStart_succ_lineOf⟩
  have hsome := lineStart?_of_le (t.one_le_lineOf offset) (t.lineOf_le_lineCount offset)
  rw [position, offset?, hsome, Option.map_some, Nat.add_sub_cancel, Nat.add_sub_cancel' hstart]

/-- A later offset has a later place. -/
theorem position_before {offset' : Nat} (hlt : offset < offset') (h : offset' ≤ t.size) :
    (t.position offset).Before (t.position offset') := by
  rcases Nat.lt_or_eq_of_le (t.lineOf_mono (Nat.le_of_lt hlt)) with hline | hline
  · exact .inl hline
  · have hstart := lineStart_lineOf_le (Nat.le_trans (Nat.le_of_lt hlt) h)
    refine .inr ⟨hline, ?_⟩
    rw [position, position, ← hline]
    simp only
    omega

/-! ### Lines -/

theorem lineStart_one (t : Source) : t.lineStart 1 = 0 := by
  rw [lineStart, lineStart?, t.lineStarts_eq]
  rfl

theorem lineStart_succ (t : Source) (line : Nat) : t.lineStart (line + 1) = t.lineEndWithBreak line :=
  rfl

theorem lineEndWithBreak_lineCount (t : Source) : t.lineEndWithBreak t.lineCount = t.size := by
  rw [lineEndWithBreak, lineCount, Array.getElem?_size, Option.getD_none]

/-- The first lines of a text make up its beginning. -/
theorem flatMap_range'_lines (t : Source) (k : Nat) :
    ((List.range' 1 k).flatMap fun line => t.sliceChars (t.lineStart line) (t.lineEndWithBreak line)) =
      t.sliceChars 0 (t.lineStart (k + 1)) := by
  induction k with
  | zero => rw [Nat.zero_add, lineStart_one, sliceChars, Array.extract_eq_empty_of_le (Nat.min_le_left _ _)]; rfl
  | succ k ih =>
    have hle : t.lineStart (k + 1) ≤ t.lineEndWithBreak (k + 1) := t.lineStart_le_lineEndWithBreak (Nat.le_refl _)
    rw [List.range'_1_concat, List.flatMap_append, ih, List.flatMap_singleton, Nat.add_comm 1 k,
      sliceChars_append (Nat.zero_le _) hle, lineStart_succ _ (k + 1)]

/-- **The lines of a text make it up.** -/
theorem flatMap_lines (t : Source) :
    ((List.range' 1 t.lineCount).flatMap fun line => t.sliceChars (t.lineStart line) (t.lineEndWithBreak line)) =
      t.chars.toList := by
  rw [flatMap_range'_lines, lineStart_succ, lineEndWithBreak_lineCount, sliceChars, size, Array.extract_size]

/-- **Where the text of a line ends**: before its break, and before the carriage return of the break. -/
theorem LineAt.lineEnd_eq {before text after : List Char} (h : t.LineAt line before text after) :
    t.lineEnd line = before.length + if after ≠ [] ∧ text.getLast? = some '\r' then text.length - 1 else text.length := by
  have hnext := h.next
  rw [lineEnd]
  rcases h.ends with rfl | hfeed
  · rw [if_pos rfl] at hnext
    rw [hnext, if_neg fun hne => hne.1 rfl, size, ← Array.length_toList, h.chars, List.append_nil, List.length_append]
  · obtain ⟨more, rfl⟩ := List.head?_eq_some_iff.1 hfeed
    rw [if_neg (List.cons_ne_nil _ _)] at hnext
    simp only [hnext, h.return_iff, ne_eq, reduceCtorEq, not_false_eq_true, true_and]
    split
    · rename_i hreturn
      obtain ⟨front, rfl⟩ := List.getLast?_eq_some_iff.1 hreturn
      rw [List.length_append, List.length_singleton]
      omega
    · omega

/-- Only the last line has nothing behind it. -/
theorem LineAt.after_eq_nil_iff {before text after : List Char} (h : t.LineAt line before text after)
    (hcount : line ≤ t.lineCount) : after = [] ↔ line = t.lineCount := by
  have hnone : t.lineStarts[line]? = none ↔ after = [] := by
    rw [h.next]
    split <;> simp_all
  rw [← hnone, Array.getElem?_eq_none_iff]
  exact ⟨Nat.le_antisymm hcount, fun h => Nat.le_of_eq h.symm⟩

theorem lineStart_le_lineEnd (hpos : 0 < line) (hcount : line ≤ t.lineCount) : t.lineStart line ≤ t.lineEnd line := by
  obtain ⟨before, text, after, h⟩ := lineAt_of_le hpos hcount
  rw [h.start, h.lineEnd_eq]
  exact Nat.le_add_right _ _

theorem lineEnd_le_lineEndWithBreak (t : Source) (line : Nat) : t.lineEnd line ≤ t.lineEndWithBreak line :=
  t.lineEnd_le_lineStart line

/-- The text of a line and what follows it are the line with its break. -/
theorem lineText_append_rest (hpos : 0 < line) (hcount : line ≤ t.lineCount) :
    (t.lineText line).toList ++ t.sliceChars (t.lineEnd line) (t.lineEndWithBreak line) =
      t.sliceChars (t.lineStart line) (t.lineEndWithBreak line) := by
  rw [lineText, slice, String.toList_ofList,
    sliceChars_append (lineStart_le_lineEnd hpos hcount) (t.lineEnd_le_lineEndWithBreak line)]

/-- **What stands at the end of a line**: nothing on the last line, and on any other a carriage return
and a line feed, or a line feed that no carriage return stands before. -/
def EndsInBreak (t : Source) (line : Nat) : Prop :=
  let rest := t.sliceChars (t.lineEnd line) (t.lineEndWithBreak line)
  if line = t.lineCount then rest = []
  else rest = ['\r', '\n'] ∨ rest = ['\n'] ∧ (t.lineText line).toList.getLast? ≠ some '\r'

theorem endsInBreak_of_le (hpos : 0 < line) (hcount : line ≤ t.lineCount) : t.EndsInBreak line := by
  obtain ⟨before, text, after, h⟩ := lineAt_of_le hpos hcount
  have hsplit := lineText_append_rest hpos hcount
  rw [h.slice_eq, h.lineText_eq] at hsplit
  simp only [EndsInBreak, h.lineText_eq, ← h.after_eq_nil_iff hcount]
  rcases h.ends with rfl | hfeed
  · rw [if_pos rfl]
    rw [if_neg fun hne => hne.1 rfl] at hsplit
    exact List.append_cancel_left hsplit
  · obtain ⟨more, rfl⟩ := List.head?_eq_some_iff.1 hfeed
    rw [if_neg (List.cons_ne_nil _ _)]
    by_cases hreturn : text.getLast? = some '\r'
    · -- the carriage return belongs to the break
      obtain ⟨front, rfl⟩ := List.getLast?_eq_some_iff.1 hreturn
      rw [if_pos ⟨List.cons_ne_nil _ _, hreturn⟩, List.dropLast_concat, List.append_assoc] at hsplit
      exact .inl (List.append_cancel_left hsplit)
    · rw [if_neg fun hand => hreturn hand.2] at hsplit ⊢
      exact .inr ⟨List.append_cancel_left hsplit, hreturn⟩

/-- **A line of a text** is a text without line feeds and what ends it. -/
structure HasLine (t : Source) (line : Nat) : Prop where
  start_le : t.lineStart line ≤ t.lineEnd line
  stop_le : t.lineEnd line ≤ t.lineEndWithBreak line
  noFeed : '\n' ∉ (t.lineText line).toList
  ends : t.EndsInBreak line

theorem hasLine_of_le (hpos : 0 < line) (hcount : line ≤ t.lineCount) : t.HasLine line :=
  ⟨lineStart_le_lineEnd hpos hcount, t.lineEnd_le_lineEndWithBreak line, not_mem_lineText hpos hcount,
    endsInBreak_of_le hpos hcount⟩

/-- **Offsets and places correspond.** The place of an offset leads back to it, and later offsets have
later places; the lines of a text, each with its break, make it up. -/
theorem places_correspond (t : Source) :
    (∀ offset ≤ t.size, t.HasPlace offset (t.position offset)) ∧
      (∀ offset offset', offset < offset' → offset' ≤ t.size → (t.position offset).Before (t.position offset')) ∧
      ((List.range' 1 t.lineCount).flatMap fun line => t.sliceChars (t.lineStart line) (t.lineEndWithBreak line)) =
        t.chars.toList ∧
      ∀ line, 1 ≤ line → line ≤ t.lineCount → t.HasLine line :=
  ⟨fun _ => hasPlace_position, fun _ _ => position_before, t.flatMap_lines, fun _ => hasLine_of_le⟩

/-- Empty lines, both sorts of breaks, and none at the end. -/
theorem places_correspond_mixed :
    let t := Source.ofString "\n\r\n\na\r\r\nb"
    t.HasPlace 3 ⟨3, 1⟩ ∧ (t.position 3).Before (t.position 5) ∧
      (t.lineText 4 = "a\r" ∧ t.HasLine 4) ∧ t.lineCount = 5 ∧ t.HasLine 5 := by
  obtain ⟨hplace, hbefore, -, hline⟩ := places_correspond (.ofString "\n\r\n\na\r\r\nb")
  exact ⟨hplace 3 (by decide), hbefore 3 5 (by decide) (by decide),
    ⟨by decide +kernel, hline 4 (by decide) (by decide)⟩, by decide, hline 5 (by decide) (by decide)⟩

end Source

end HouseStyle
