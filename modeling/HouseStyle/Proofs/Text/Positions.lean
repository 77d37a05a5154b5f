import HouseStyle.Proofs.Text.Lines
import Mathlib.Data.List.TakeWhile

/-!
# Places as a reader counts them

A reader knows no table of lines. The line of an offset is told by the line feeds before it, its
column by what comes after the last of them, and the text of the line goes on up to the next one.

* `positionIn`, `lineIn`: the place of an offset and the text of its line, counted in the characters.
* `Source.LineAt`: a line and what stands around it.
* `Source.position_eq`, `Source.lineText_eq`: **the table of lines gives the same.**
-/

namespace HouseStyle

variable {cs xs ys : List Char} {t : Source} {offset : Nat}

/-! ### Counting -/

/-- What stands before an offset on its line. -/
def lineFront (cs : List Char) (offset : Nat) : List Char :=
  ((cs.take offset).reverse.takeWhile (· != '\n')).reverse

/-- What stands from an offset on up to the next line feed. -/
def lineBack (cs : List Char) (offset : Nat) : List Char :=
  (cs.drop offset).takeWhile (· != '\n')

/-- The place of an offset: as many lines down as there are line feeds before it, and as many
columns to the right as there are characters before it on its line. -/
def positionIn (cs : List Char) (offset : Nat) : Position :=
  { line := (cs.take offset).count '\n' + 1, column := (lineFront cs offset).length + 1 }

/-- The text of the line of an offset; a carriage return belongs to the line feed after it. -/
def lineIn (cs : List Char) (offset : Nat) : List Char :=
  let line := lineFront cs offset ++ lineBack cs offset
  if '\n' ∈ cs.drop offset ∧ line.getLast? = some '\r' then line.dropLast else line

example : positionIn "a\r\nbc\n".toList 4 = ⟨2, 2⟩ ∧ lineIn "a\r\nbc\n".toList 1 = ['a'] := by decide

theorem not_mem_lineFront (cs : List Char) (offset : Nat) : '\n' ∉ lineFront cs offset := by
  intro h
  have := List.mem_takeWhile_imp (List.mem_reverse.1 h)
  exact absurd this (by decide)

theorem not_mem_lineBack (cs : List Char) (offset : Nat) : '\n' ∉ lineBack cs offset := by
  intro h
  exact absurd (List.mem_takeWhile_imp h) (by decide)

/-- What stands before an offset is its line so far, after lines that ended. -/
theorem exists_before (cs : List Char) (offset : Nat) :
    ∃ before, cs.take offset = before ++ lineFront cs offset ∧ (before = [] ∨ before.getLast? = some '\n') := by
  set back := (cs.take offset).reverse with hback
  refine ⟨(back.dropWhile (· != '\n')).reverse, ?_, ?_⟩
  · rw [lineFront, ← hback, ← List.reverse_append, List.takeWhile_append_dropWhile, hback, List.reverse_reverse]
  · have hhead := List.head?_dropWhile_not (· != '\n') back
    rw [List.getLast?_reverse]
    cases h : back.dropWhile (· != '\n') with
    | nil => exact .inl rfl
    | cons c rest =>
      rw [h] at hhead
      exact .inr (by simpa using hhead)

/-- The line goes on up to a line feed, or to the end of the text. -/
theorem exists_after (cs : List Char) (offset : Nat) :
    ∃ after, cs.drop offset = lineBack cs offset ++ after ∧ (after = [] ∨ after.head? = some '\n') := by
  refine ⟨(cs.drop offset).dropWhile (· != '\n'), List.takeWhile_append_dropWhile.symm, ?_⟩
  have hhead := List.head?_dropWhile_not (· != '\n') (cs.drop offset)
  cases h : (cs.drop offset).dropWhile (· != '\n') with
  | nil => exact .inl rfl
  | cons c rest =>
    rw [h] at hhead
    exact .inr (by simpa using hhead)

/-! ### The table of lines -/

theorem startsAfterBreaks_append (xs ys : List Char) : ∀ i,
    startsAfterBreaks i (xs ++ ys) = startsAfterBreaks i xs ++ startsAfterBreaks (i + xs.length) ys := by
  induction xs with
  | nil => exact fun i => rfl
  | cons c xs ih =>
    intro i
    rw [List.cons_append, startsAfterBreaks, startsAfterBreaks, ih, List.length_cons, Nat.add_right_comm i 1,
      ← Nat.add_assoc]
    split <;> rfl

theorem length_startsAfterBreaks (cs : List Char) : ∀ i, (startsAfterBreaks i cs).length = cs.count '\n' := by
  induction cs with
  | nil => exact fun _ => rfl
  | cons c cs ih =>
    intro i
    rw [startsAfterBreaks, List.count_cons, ← ih (i + 1)]
    split
    · rename_i hc
      rw [if_pos (beq_iff_eq.2 hc), List.length_cons]
    · rename_i hc
      rw [if_neg (by simpa using hc)]
      rfl

theorem startsAfterBreaks_of_not_mem (h : '\n' ∉ cs) (i : Nat) : startsAfterBreaks i cs = [] := by
  rw [← List.length_eq_zero_iff, length_startsAfterBreaks]
  exact List.count_eq_zero.2 h

/-- The last of the lines that ended is followed by the next one. -/
theorem getLast?_startsAfterBreaks (h : cs = [] ∨ cs.getLast? = some '\n') :
    (0 :: startsAfterBreaks 0 cs).getLast? = some cs.length := by
  rcases h with rfl | h
  · rfl
  · obtain ⟨xs, rfl⟩ := List.getLast?_eq_some_iff.1 h
    have hlast : startsAfterBreaks (0 + xs.length) ['\n'] = [xs.length + 1] := by
      rw [Nat.zero_add]
      rfl
    rw [startsAfterBreaks_append, hlast, ← List.cons_append, List.length_append]
    exact List.getLast?_concat

/-- The next line begins after the next line feed. -/
theorem head?_startsAfterBreaks (hxs : '\n' ∉ xs) (hys : ys = [] ∨ ys.head? = some '\n') (i : Nat) :
    (startsAfterBreaks i (xs ++ ys)).head? = if ys = [] then none else some (i + xs.length + 1) := by
  rw [startsAfterBreaks_append, startsAfterBreaks_of_not_mem hxs, List.nil_append]
  rcases hys with rfl | h
  · rfl
  · obtain ⟨more, rfl⟩ := List.head?_eq_some_iff.1 h
    rfl

namespace Source

/-- **The table of lines, cut at an offset**: the lines up to that of the offset, which begins where
those before it end, and the lines to come. -/
theorem lineStarts_cut (t : Source) (h : offset ≤ t.size) :
    ∃ upTo, t.lineStarts.toList = upTo ++ startsAfterBreaks offset (t.chars.toList.drop offset) ∧
      upTo.length = (t.chars.toList.take offset).count '\n' + 1 ∧
      upTo.getLast? = some (offset - (lineFront t.chars.toList offset).length) ∧
      (lineFront t.chars.toList offset).length ≤ offset ∧ ∀ p ∈ upTo, p ≤ offset := by
  set cs := t.chars.toList with hcs
  have hlen : (cs.take offset).length = offset := List.length_take_of_le (by rw [hcs, Array.length_toList]; exact h)
  obtain ⟨before, htake, hbefore⟩ := exists_before cs offset
  have hsum : before.length + (lineFront cs offset).length = offset := by
    rw [← List.length_append, ← htake, hlen]
  have hstarts : startsAfterBreaks 0 (cs.take offset) = startsAfterBreaks 0 before := by
    rw [htake, startsAfterBreaks_append, startsAfterBreaks_of_not_mem (not_mem_lineFront cs offset), List.append_nil]
  refine ⟨0 :: startsAfterBreaks 0 before, ?_, ?_, ?_, by omega, fun p hp => ?_⟩
  · rw [t.lineStarts_eq, ← hcs, List.cons_append, ← hstarts]
    conv_lhs => rw [← List.take_append_drop offset cs, startsAfterBreaks_append, hlen, Nat.zero_add]
  · rw [List.length_cons, ← hstarts, length_startsAfterBreaks]
  · rw [getLast?_startsAfterBreaks hbefore, Nat.eq_sub_of_add_eq hsum]
  · rcases List.mem_cons.1 hp with rfl | hp
    · exact Nat.zero_le _
    · have := le_of_mem_startsAfterBreaks hp
      omega

/-- The line of an offset. -/
theorem lineOf_eq (h : offset ≤ t.size) : t.lineOf offset = (positionIn t.chars.toList offset).line := by
  obtain ⟨upTo, hstarts, hlen, -, -, hle⟩ := t.lineStarts_cut h
  have hlater : (startsAfterBreaks offset (t.chars.toList.drop offset)).countP (· ≤ offset) = 0 := by
    rw [List.countP_eq_zero]
    intro p hp
    have := lt_of_mem_startsAfterBreaks hp
    simpa using this
  rw [lineOf, ← Array.countP_toList, hstarts, List.countP_append, hlater, Nat.add_zero, positionIn, ← hlen,
    List.countP_eq_length]
  exact fun p hp => decide_eq_true (hle p hp)

/-- Where the line of an offset begins. -/
theorem lineStart_lineOf (h : offset ≤ t.size) :
    t.lineStart (t.lineOf offset) = offset - (lineFront t.chars.toList offset).length := by
  obtain ⟨upTo, hstarts, hlen, hlast, -, -⟩ := t.lineStarts_cut h
  have hget : t.lineStarts[(t.chars.toList.take offset).count '\n']? = upTo.getLast? := by
    rw [← Array.getElem?_toList, hstarts, List.getLast?_eq_getElem?, hlen, Nat.add_sub_cancel,
      List.getElem?_append_left (by omega)]
  rw [lineOf_eq h, positionIn, lineStart, lineStart?, Nat.add_sub_cancel, hget, hlast, Option.getD_some]

/-- **The place of an offset is counted right.** -/
theorem position_eq (h : offset ≤ t.size) : t.position offset = positionIn t.chars.toList offset := by
  obtain ⟨-, -, -, -, hle, -⟩ := t.lineStarts_cut h
  rw [position, lineStart_lineOf h, lineOf_eq h, Nat.sub_sub_self hle]
  rfl

/-- The characters of a part between two others. -/
theorem sliceChars_part {before part after : List Char} (h : t.chars.toList = before ++ (part ++ after)) :
    t.sliceChars before.length (before.length + part.length) = part := by
  rw [sliceChars, Array.toList_extract, List.extract_eq_take_drop, h, List.drop_left, Nat.add_sub_cancel_left,
    List.take_left]

/-- **A line of a text**: where it begins, what stands on it up to the line feed, and what stands
around it. -/
structure LineAt (t : Source) (line : Nat) (before text after : List Char) : Prop where
  chars : t.chars.toList = before ++ (text ++ after)
  ended : before = [] ∨ before.getLast? = some '\n'
  noFeed : '\n' ∉ text
  ends : after = [] ∨ after.head? = some '\n'
  start : t.lineStart line = before.length
  next : t.lineStarts[line]? = if after = [] then none else some (before.length + text.length + 1)

/-- The line of an offset. -/
theorem exists_lineAt (h : offset ≤ t.size) :
    ∃ before after, t.LineAt (t.lineOf offset) before
      (lineFront t.chars.toList offset ++ lineBack t.chars.toList offset) after ∧
      t.chars.toList.drop offset = lineBack t.chars.toList offset ++ after := by
  set cs := t.chars.toList with hcs
  have hlen : (cs.take offset).length = offset := List.length_take_of_le (by rw [hcs, Array.length_toList]; exact h)
  obtain ⟨before, htake, hbefore⟩ := exists_before cs offset
  obtain ⟨after, hdrop, hafter⟩ := exists_after cs offset
  have hsum : before.length + (lineFront cs offset).length = offset := by
    rw [← List.length_append, ← htake, hlen]
  refine ⟨before, after, ⟨?_, hbefore, ?_, hafter, ?_, ?_⟩, hdrop⟩
  · rw [← hcs, List.append_assoc, ← hdrop, ← List.append_assoc, ← htake, List.take_append_drop]
  · rw [List.mem_append, not_or]
    exact ⟨not_mem_lineFront cs offset, not_mem_lineBack cs offset⟩
  · rw [lineStart_lineOf h, ← hcs]
    omega
  · obtain ⟨upTo, hstarts, hupTo, -, -, -⟩ := t.lineStarts_cut h
    rw [lineOf_eq h, positionIn, ← hupTo, ← Array.getElem?_toList, hstarts, List.getElem?_append_right (Nat.le_refl _),
      Nat.sub_self, ← List.head?_eq_getElem?, ← hcs, hdrop, head?_startsAfterBreaks (not_mem_lineBack _ _) hafter,
      List.length_append, ← Nat.add_assoc, hsum]

variable {line : Nat} {before text after : List Char}

/-- A carriage return before the line feed that ends a line is the last character of the line. -/
theorem LineAt.return_iff (h : t.LineAt line before text after) :
    (1 < before.length + text.length + 1 ∧ t.chars[before.length + text.length + 1 - 2]? = some '\r') ↔
      text.getLast? = some '\r' := by
  rw [← Array.getElem?_toList, h.chars]
  rcases List.eq_nil_or_concat text with rfl | ⟨front, x, rfl⟩
  · -- an empty line stands at the start of the text or after a line feed
    rcases h.ended with rfl | hlast
    · simp
    · obtain ⟨front, rfl⟩ := List.getLast?_eq_some_iff.1 hlast
      simp
  · have hchar : (before ++ (front.concat x ++ after))[before.length + front.length]? = some x := by
      rw [List.getElem?_append_right (Nat.le_add_right _ _), Nat.add_sub_cancel_left]
      simp
    rw [List.length_concat, ← Nat.add_assoc, Nat.add_sub_add_right _ 2 0, Nat.sub_zero, hchar]
    simp

/-- The text of a line leaves out the carriage return of its break. -/
theorem LineAt.lineText_eq (h : t.LineAt line before text after) :
    (t.lineText line).toList = if after ≠ [] ∧ text.getLast? = some '\r' then text.dropLast else text := by
  have hnext := h.next
  rw [lineText, slice, String.toList_ofList, h.start, lineEnd]
  rcases h.ends with rfl | hfeed
  · -- the last line goes on up to the end of the text
    have hsize : t.size = before.length + text.length := by
      rw [size, ← Array.length_toList, h.chars, List.append_nil, List.length_append]
    rw [if_pos rfl] at hnext
    rw [hnext, if_neg fun hne => hne.1 rfl, hsize, sliceChars_part h.chars]
  · obtain ⟨more, rfl⟩ := List.head?_eq_some_iff.1 hfeed
    rw [if_neg (List.cons_ne_nil _ _)] at hnext
    simp only [hnext, h.return_iff, ne_eq, reduceCtorEq, not_false_eq_true, true_and]
    split
    · -- the carriage return of the break is left out
      rename_i hreturn
      obtain ⟨front, rfl⟩ := List.getLast?_eq_some_iff.1 hreturn
      have hchars := h.chars
      rw [List.append_assoc] at hchars
      have hstop : before.length + (front ++ ['\r']).length + 1 - 2 = before.length + front.length := by
        rw [List.length_append, List.length_singleton]
        omega
      rw [List.dropLast_concat, hstop, sliceChars_part hchars]
    · rw [Nat.add_sub_cancel, sliceChars_part h.chars]

/-- A line with its break. -/
theorem LineAt.slice_eq (h : t.LineAt line before text after) :
    t.sliceChars (t.lineStart line) (t.lineEndWithBreak line) = text ++ after.take 1 := by
  have hnext := h.next
  rw [h.start, lineEndWithBreak]
  rcases h.ends with rfl | hfeed
  · have hsize : t.size = before.length + text.length := by
      rw [size, ← Array.length_toList, h.chars, List.append_nil, List.length_append]
    rw [hnext, if_pos rfl, Option.getD_none, hsize, sliceChars_part h.chars]
    exact (List.append_nil _).symm
  · obtain ⟨more, rfl⟩ := List.head?_eq_some_iff.1 hfeed
    have hchars : t.chars.toList = before ++ ((text ++ ['\n']) ++ more) := by
      rw [h.chars, List.append_assoc, List.singleton_append]
    have hpart := sliceChars_part hchars
    rw [List.length_append, List.length_singleton, ← Nat.add_assoc] at hpart
    rw [hnext, if_neg (List.cons_ne_nil _ _), Option.getD_some, hpart]
    rfl

/-- **The text of the line of an offset is read right.** -/
theorem lineText_eq (h : offset ≤ t.size) :
    t.lineText (t.lineOf offset) = String.ofList (lineIn t.chars.toList offset) := by
  obtain ⟨before, after, hline, hdrop⟩ := exists_lineAt h
  have hfeed : '\n' ∈ t.chars.toList.drop offset ↔ after ≠ [] := by
    rw [hdrop, List.mem_append, or_iff_right (not_mem_lineBack _ _)]
    rcases hline.ends with rfl | hfeed
    · simp
    · obtain ⟨more, rfl⟩ := List.head?_eq_some_iff.1 hfeed
      simp
  rw [← String.ofList_toList (s := t.lineText _), hline.lineText_eq, lineIn]
  simp only [hfeed]

/-! ### Lines by number -/

theorem one_le_lineOf (t : Source) (offset : Nat) : 1 ≤ t.lineOf offset := by
  rw [lineOf, Nat.succ_le_iff, Array.countP_pos_iff]
  refine ⟨0, ?_, decide_eq_true (Nat.zero_le _)⟩
  rw [t.lineStarts_eq, List.mem_toArray]
  exact List.mem_cons_self

theorem lineOf_le_lineCount (t : Source) (offset : Nat) : t.lineOf offset ≤ t.lineCount :=
  Array.countP_le_size

/-- A line is the one of the offset at which it begins. -/
theorem lineOf_lineStart (hpos : 0 < line) (hcount : line ≤ t.lineCount) : t.lineOf (t.lineStart line) = line := by
  obtain ⟨i, rfl⟩ := Nat.exists_eq_succ_of_ne_zero (Nat.ne_of_gt hpos)
  have hi : i < t.lineStarts.toList.length := by
    rw [Array.length_toList]
    exact hcount
  set front := t.lineStarts.toList.take i with hfront
  set later := t.lineStarts.toList.drop (i + 1)
  have hsplit : t.lineStarts.toList = front ++ t.lineStart (i + 1) :: later := by
    have hstart : t.lineStarts.toList[i] = t.lineStart (i + 1) := by
      rw [lineStart, lineStart?, Nat.add_sub_cancel, ← Array.getElem?_toList, List.getElem?_eq_getElem hi,
        Option.getD_some]
    rw [← hstart, ← List.drop_eq_getElem_cons hi, List.take_append_drop]
  have hsorted := t.lineStarts_pairwise
  rw [hsplit, List.pairwise_append, List.pairwise_cons] at hsorted
  obtain ⟨-, ⟨hlater, -⟩, hbefore⟩ := hsorted
  have hcountFront : front.countP (· ≤ t.lineStart (i + 1)) = i := by
    refine (List.countP_eq_length.2 fun p hp => decide_eq_true ?_).trans (List.length_take_of_le (Nat.le_of_lt hi))
    exact Nat.le_of_lt (hbefore p hp _ List.mem_cons_self)
  have hcountLater : later.countP (· ≤ t.lineStart (i + 1)) = 0 := by
    refine List.countP_eq_zero.2 fun p hp => ?_
    simpa using hlater p hp
  rw [lineOf, ← Array.countP_toList, hsplit, List.countP_append, List.countP_cons, hcountFront, hcountLater]
  simp

/-- Each line of a text is one. -/
theorem lineAt_of_le (hpos : 0 < line) (hcount : line ≤ t.lineCount) :
    ∃ before text after, t.LineAt line before text after := by
  obtain ⟨before, after, h, -⟩ := exists_lineAt (t.lineStart_le_size line)
  rw [lineOf_lineStart hpos hcount] at h
  exact ⟨before, _, after, h⟩

end Source

end HouseStyle
