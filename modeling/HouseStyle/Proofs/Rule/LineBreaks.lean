import HouseStyle.Proofs.Rule.ImportBlock
import HouseStyle.Proofs.Rule.OptionsClass
import HouseStyle.Proofs.Text.Breaks

/-!
# Rules that move lines keep line breaks whole

The rules about imports and about the options class write lines of the text, blank lines dropped or
added, each closed by the break of the text.

* `Splices`: a property of texts that is kept when lines of a text are put together.
* `LineEdit`: an edit that writes lines of the text.
* `ImportGrouping.lineEdit_of_fix`, `MetaPosition.lineEdit_of_fix`: the edits of the rules are such.
* `LineEdit.keepsFeeds`, `LineEdit.keepsReturns`, `LineEdit.not_mem`: what follows for line breaks.
-/

namespace HouseStyle

variable {t : Source} {P : List Char → Prop}

/-! ### Texts put together from lines -/

/-- **A property that is kept when parts of a text are put together**: parts that are cut out between
lines, their lines, and breaks added to them and taken away again. -/
structure Splices (t : Source) (P : List Char → Prop) : Prop where
  nil : P []
  append : ∀ {xs ys}, P xs → P ys → P (xs ++ ys)
  newline : P t.newline.toList
  slice : ∀ {a b}, ¬ t.CutsBreak a → ¬ t.CutsBreak b → P (t.sliceChars a b)
  lines : ∀ {cs}, P cs → ∀ line ∈ splitLines cs, P line
  unclosed : ∀ {xs}, P (xs ++ t.newline.toList) → P xs

theorem Splices.flatten (hP : Splices t P) {parts : List (List Char)} (h : ∀ cs ∈ parts, P cs) :
    P parts.flatten := by
  induction parts with
  | nil => exact hP.nil
  | cons cs parts ih =>
    rw [List.forall_mem_cons] at h
    exact hP.append h.1 (ih h.2)

theorem Splices.lineText (hP : Splices t P) (line : Nat) : P (t.lineText line).toList := by
  rw [Source.lineText, Source.slice, String.toList_ofList]
  exact hP.slice (t.not_cutsBreak_lineStart line) (t.not_cutsBreak_lineEnd line)

/-- The lines of a text have breaks that are whole. -/
theorem paired_of_mem_splitLines {line cs : List Char} (hfeeds : feedsPaired (line.reverse ++ cs) = true)
    (hreturns : returnsPaired (line.reverse ++ cs) = true) :
    ∀ l ∈ splitLinesFrom line cs, feedsPaired l = true ∧ returnsPaired l = true := by
  -- a line ends behind a whole break, or behind a character that is no carriage return
  have hcut {line rest : List Char} {c : Char} (hc : c = '\r' → rest.head? ≠ some '\n') :
      ¬ ((c :: line).reverse.getLast? = some '\r' ∧ rest.head? = some '\n') := by
    rw [List.getLast?_reverse, List.head?_cons]
    rintro ⟨hreturn, hfeed⟩
    exact hc (Option.some.inj hreturn) hfeed
  have hstep {line rest : List Char} {c : Char} (hc : c = '\r' → rest.head? ≠ some '\n')
      (hfeeds : feedsPaired ((c :: line).reverse ++ rest) = true)
      (hreturns : returnsPaired ((c :: line).reverse ++ rest) = true)
      (ih : feedsPaired ([].reverse ++ rest) = true → returnsPaired ([].reverse ++ rest) = true →
        ∀ l ∈ splitLinesFrom [] rest, feedsPaired l = true ∧ returnsPaired l = true) :
      ∀ l ∈ (c :: line).reverse :: splitLinesFrom [] rest, feedsPaired l = true ∧ returnsPaired l = true :=
    List.forall_mem_cons.2 ⟨⟨feedsPaired_left hfeeds, returnsPaired_left hreturns (hcut hc)⟩,
      ih (feedsPaired_right hfeeds (hcut hc)) (returnsPaired_right hreturns)⟩
  fun_induction splitLinesFrom line cs with
  | case1 => exact List.forall_mem_nil _
  | case2 line hne =>
    rw [List.append_nil] at hfeeds hreturns
    exact List.forall_mem_singleton.2 ⟨hfeeds, hreturns⟩
  | case3 line rest ih => exact hstep (fun hc => by cases hc) (by simpa using hfeeds) (by simpa using hreturns) ih
  | case4 line c rest hnot hbreak ih =>
    refine hstep (fun hc hfeed => ?_) (by simpa using hfeeds) (by simpa using hreturns) ih
    obtain ⟨rest, rfl⟩ := List.head?_eq_some_iff.1 hfeed
    exact hnot rest hc rfl
  | case5 line c rest hnot hbreak ih => exact ih (by simpa using hfeeds) (by simpa using hreturns)

/-- **Breaks stay whole** in a text whose lines end in a carriage return and a line feed, and in which no
carriage return stands alone. -/
theorem splices_paired (hends : endsWithReturns t = true) (hreturns : returnsPaired t.chars.toList = true) :
    Splices t fun cs => feedsPaired cs = true ∧ returnsPaired cs = true where
  nil := ⟨rfl, rfl⟩
  append hx hy := ⟨feedsPaired_append hx.1 hy.1, returnsPaired_append hx.2 hy.2⟩
  newline := by
    rw [Source.newline_of_endsWithReturns hends]
    exact ⟨rfl, rfl⟩
  slice ha hb := ⟨Source.feedsPaired_slice (endsWithReturns_iff.1 hends).2 ha _,
    Source.returnsPaired_slice hreturns hb _⟩
  lines h := paired_of_mem_splitLines h.1 h.2
  unclosed h := by
    rw [Source.newline_of_endsWithReturns hends] at h
    exact ⟨feedsPaired_left h.1, returnsPaired_left h.2 fun hcut => by cases hcut.2⟩

/-- No carriage return comes from a text without one. -/
theorem splices_not_mem (h : '\r' ∉ t.chars.toList) : Splices t fun cs => '\r' ∉ cs where
  nil := List.not_mem_nil
  append hx hy := List.mem_append.not.2 (not_or.2 ⟨hx, hy⟩)
  newline := by
    rw [Source.newline_of_not_mem h]
    decide
  slice _ _ hmem := h (Source.mem_of_mem_sliceChars hmem)
  lines {cs} h line hline hmem := h (by
    rw [← flatten_splitLines cs]
    exact List.mem_flatten.2 ⟨line, hline, hmem⟩)
  unclosed h hmem := h (List.mem_append_left _ hmem)

/-! ### Edits of lines -/

/-- **An edit that writes lines of the text** in the place of lines. -/
structure LineEdit (t : Source) (e : Edit) : Prop where
  start : ¬ t.CutsBreak e.span.start
  stop : ¬ t.CutsBreak e.span.stop
  feed : '\n' ∈ e.replacement.toList
  text : ∀ P, Splices t P → P e.replacement.toList

theorem LineEdit.keepsFeeds {e : Edit} (h : LineEdit t e) (hends : endsWithReturns t = true)
    (hreturns : returnsPaired t.chars.toList = true) : e.KeepsFeeds t :=
  ⟨(h.text _ (splices_paired hends hreturns)).1, h.stop, fun _ => h.feed⟩

theorem LineEdit.keepsReturns {e : Edit} (h : LineEdit t e) (hends : endsWithReturns t = true)
    (hreturns : returnsPaired t.chars.toList = true) : e.KeepsReturns t :=
  ⟨(h.text _ (splices_paired hends hreturns)).2, h.start⟩

theorem LineEdit.not_mem {e : Edit} (h : LineEdit t e) (hnone : '\r' ∉ t.chars.toList) :
    '\r' ∉ e.replacement.toList :=
  h.text _ (splices_not_mem hnone)

theorem feed_mem_newline (t : Source) : '\n' ∈ t.newline.toList := by
  rcases t.newline_cases with h | h <;> rw [h] <;> decide

/-- An edit from the start of a line to the end of one. -/
theorem LineEdit.of_lines {first last : Nat} {text : List Char} {rule : String} (hfeed : '\n' ∈ text)
    (htext : ∀ P, Splices t P → P text) : LineEdit t
      { span := .between (t.lineStart first) (t.lineEndWithBreak last), replacement := String.ofList text, rule } := by
  refine ⟨t.not_cutsBreak_lineStart _, ?_, ?_, ?_⟩
  · rw [Span.between_stop]
    rcases max_choice (t.lineStart first) (t.lineEndWithBreak last) with h | h
    · rw [h]
      exact t.not_cutsBreak_lineStart _
    · rw [h]
      exact t.not_cutsBreak_lineEndWithBreak _
  · rwa [String.toList_ofList]
  · rwa [String.toList_ofList]

/-! ### The block of imports -/

namespace ImportGrouping

theorem exists_groupTexts (t : Source) (e : Entry) (es : List Entry) :
    ∃ text more, groupTexts t (e :: es) = text :: more := by
  unfold groupTexts
  split
  · split <;> exact ⟨_, _, rfl⟩
  · exact ⟨_, _, rfl⟩

/-- The lines of an entry come before those of the others, with or without a blank line between them. -/
theorem block_cons (t : Source) (e next : Entry) (rest : List Entry) : ∃ gap, (gap = "" ∨ gap = t.newline) ∧
    t.newline.intercalate (groupTexts t (e :: next :: rest)) =
      chunk t e ++ gap ++ t.newline.intercalate (groupTexts t (next :: rest)) := by
  obtain ⟨text, more, hmore⟩ := exists_groupTexts t next rest
  have hgroups : groupTexts t (e :: next :: rest) =
      if e.group = next.group then (chunk t e ++ text) :: more else chunk t e :: text :: more := by
    conv_lhs => unfold groupTexts
    simp only [hmore]
  rw [hgroups, hmore]
  split
  · refine ⟨"", .inl rfl, ?_⟩
    rw [String.append_empty]
    cases more with
    | nil => rfl
    | cons second more => simp only [String.intercalate_cons_cons, String.append_assoc]
  · exact ⟨t.newline, .inr rfl, String.intercalate_cons_cons⟩

/-- The text of an entry ends with a break. -/
theorem chunk_shape {e : Entry} (h : e.firstLine ≤ e.lastLine) : ∃ front, chunk t e = front ++ t.newline := by
  have hlines : List.range' e.firstLine (e.lastLine + 1 - e.firstLine) =
      List.range' e.firstLine (e.lastLine - e.firstLine) ++ [e.lastLine] := by
    rw [Nat.succ_sub h, List.range'_concat, Nat.one_mul, Nat.add_sub_cancel' h]
  rw [chunk, hlines, ← List.append_assoc, List.map_append, String.join_append]
  have hlast : String.join ([e.lastLine].map (brokenLine t)) = t.lineText e.lastLine ++ t.newline := rfl
  rw [hlast, ← String.append_assoc]
  exact ⟨_, rfl⟩

/-- The block of imports ends with a break, and there are others if it has several entries. -/
theorem block_shape {es : List Entry} : es ≠ [] → (∀ e ∈ es, e.firstLine ≤ e.lastLine) →
    ∃ front, t.newline.intercalate (groupTexts t es) = front ++ t.newline ∧
      (2 ≤ es.length → '\n' ∈ front.toList) := by
  induction es with
  | nil => exact fun hne => absurd rfl hne
  | cons e rest ih =>
    intro _ hes
    rw [List.forall_mem_cons] at hes
    obtain ⟨lines, hlines⟩ := @chunk_shape t _ hes.1
    cases rest with
    | nil => exact ⟨lines, hlines, fun h => absurd h (Nat.not_succ_le_self 1)⟩
    | cons next rest =>
      obtain ⟨front, hfront, -⟩ := ih (List.cons_ne_nil _ _) hes.2
      obtain ⟨gap, -, hblock⟩ := block_cons t e next rest
      refine ⟨chunk t e ++ gap ++ front, by rw [hblock, hfront, ← String.append_assoc], fun _ => ?_⟩
      rw [hlines, String.toList_append, String.toList_append, String.toList_append]
      exact List.mem_append_left _ (List.mem_append_left _ (List.mem_append_right _ (feed_mem_newline t)))

theorem splices_chunk (hP : Splices t P) (e : Entry) : P (chunk t e).toList := by
  rw [chunk, String.toList_join, List.flatMap_def]
  refine hP.flatten fun cs hcs => ?_
  obtain ⟨text, htext, rfl⟩ := List.mem_map.1 hcs
  obtain ⟨line, -, rfl⟩ := List.mem_map.1 htext
  rw [brokenLine, String.toList_append]
  exact hP.append (hP.lineText line) hP.newline

theorem splices_block (hP : Splices t P) (es : List Entry) :
    P (t.newline.intercalate (groupTexts t es)).toList := by
  induction es with
  | nil => exact hP.nil
  | cons e rest ih =>
    cases rest with
    | nil => exact splices_chunk hP e
    | cons next rest =>
      obtain ⟨gap, hgap, hblock⟩ := block_cons t e next rest
      rw [hblock, String.toList_append, String.toList_append]
      refine hP.append (hP.append (splices_chunk hP e) ?_) ih
      rcases hgap with rfl | rfl
      · exact hP.nil
      · exact hP.newline

/-- An entry begins before it ends. -/
theorem lines_of_mem_entriesFrom {o : ImportGroupingOptions} {nodes : List Node} :
    ∀ {previous : Option Entry}, ∀ e ∈ entriesFrom t o previous nodes, e.firstLine ≤ e.lastLine := by
  induction nodes with
  | nil => exact fun _ h => nomatch h
  | cons n nodes ih =>
    intro previous e he
    unfold entriesFrom at he
    split at he
    · cases he
    · rcases List.mem_cons.1 he with rfl | he
      · refine Array.countP_mono_left fun i _ hi => ?_
        rw [decide_eq_true_eq] at hi ⊢
        exact Nat.le_trans hi (Nat.le_max_left _ _)
      · exact ih e he

/-- **Putting the block of imports in order writes lines of the text.** -/
theorem lineEdit_of_fix {n : Node} {c : Context} {e : Edit} (hfix : fix n c = some e) : LineEdit c.text e := by
  have hentries : ∀ x ∈ entries c.text (c.options .importGrouping) n, x.firstLine ≤ x.lastLine :=
    lines_of_mem_entriesFrom
  unfold fix at hfix
  simp only at hfix
  split at hfix
  · rename_i first second rest last hes hlast
    rw [hes] at hentries hfix
    have hperm := sorted_perm (first :: second :: rest)
    have hlength : 2 ≤ (sorted (first :: second :: rest)).length := by
      rw [hperm.length_eq]
      exact Nat.le_add_left _ _
    obtain ⟨front, hblock, hfeed⟩ := @block_shape c.text _ (List.ne_nil_of_length_pos (Nat.lt_of_lt_of_le Nat.two_pos hlength))
      fun x hx => hentries x (hperm.mem_iff.1 hx)
    have hsplices {P : List Char → Prop} (hP : Splices c.text P) := splices_block hP (sorted (first :: second :: rest))
    rw [hblock] at hsplices
    -- the text ends with a break, which is left out where the block ends the text without one
    have hafter {text : List Char} (htext : text = (front ++ c.text.newline).toList ∨ text = front.toList) :
        '\n' ∈ text ∧ ∀ P, Splices c.text P → P text := by
      rcases htext with rfl | rfl
      · refine ⟨?_, fun P hP => hsplices hP⟩
        rw [String.toList_append]
        exact List.mem_append_right _ (feed_mem_newline _)
      · refine ⟨hfeed hlength, fun P hP => hP.unclosed ?_⟩
        rw [← String.toList_append]
        exact hsplices hP
    rw [reordered, hblock] at hfix
    split at hfix
    · cases hfix
    split at hfix
    · split at hfix
      · cases hfix
      · cases hfix
        exact .of_lines (hafter (.inl rfl)).1 (hafter (.inl rfl)).2
    · split at hfix
      · cases hfix
      · cases hfix
        have htake : (front ++ c.text.newline).toList.take
            ((front ++ c.text.newline).toList.length - c.text.newline.length) = front.toList := by
          simp only [String.toList_append, List.length_append, String.length_toList, Nat.add_sub_cancel]
          exact List.take_left' String.length_toList
        exact .of_lines (hafter (.inr htake)).1 (hafter (.inr htake)).2
  · cases hfix

end ImportGrouping

/-! ### The options class -/

namespace MetaPosition

theorem mem_of_mem_dropEnds {α : Type} {p : α → Bool} {items : List α} {a : α} (h : a ∈ dropEnds p items) :
    a ∈ items := by
  rw [dropEnds, List.mem_reverse] at h
  exact (List.dropWhile_sublist p).subset (List.mem_reverse.1 ((List.dropWhile_sublist p).subset h))

theorem splices_tidy (hP : Splices t P) {cs : List Char} (h : P cs) : P (tidy t.newline cs).toList := by
  have hkept : P (dropEnds (·.all isBlank) (splitLines cs)).flatten :=
    hP.flatten fun line hline => hP.lines h line (mem_of_mem_dropEnds hline)
  unfold tidy
  simp only
  split
  · rwa [String.toList_ofList]
  · rw [String.toList_append, String.toList_ofList]
    exact hP.append hkept hP.newline

theorem splices_metaText (hP : Splices t P) {start stop : Nat} (hstart : ¬ t.CutsBreak start)
    (hstop : ¬ t.CutsBreak stop) : P (metaText t start stop).toList := by
  unfold metaText
  simp only
  split
  · rw [String.toList_ofList]
    exact hP.slice hstart hstop
  · rw [String.toList_append, String.toList_ofList]
    exact hP.append (hP.slice hstart hstop) hP.newline

/-- **Moving the options class writes lines of the text.** -/
theorem lineEdit_of_fix {n : Node} {c : Context} {e : Edit} (hfix : fix n c = .ok (some e)) :
    LineEdit c.text e := by
  have hstart := c.text.not_cutsBreak_lineStart
  have hstop := c.text.not_cutsBreak_lineEndWithBreak
  have hnewline := feed_mem_newline c.text
  unfold fix at hfix
  simp only at hfix
  split at hfix
  · cases hfix
  split at hfix
  · obtain ⟨hestart, hestop, htext⟩ := replace_eq_ok hfix
    refine ⟨hestart ▸ hstart _, hestop ▸ hstop _, ?_, fun P hP => ?_⟩
    · rw [htext, String.toList_append, String.toList_append]
      exact List.mem_append_left _ (List.mem_append_right _ hnewline)
    · rw [htext, String.toList_append, String.toList_append]
      exact hP.append (hP.append (splices_tidy hP (hP.slice (hstop _) (hstop _))) hP.newline)
        (splices_metaText hP (hstart _) (hstop _))
  split at hfix
  · obtain ⟨hestart, hestop, htext⟩ := replace_eq_ok hfix
    refine ⟨hestart ▸ hstop _, hestop ▸ hstop _, ?_, fun P hP => ?_⟩
    · simp only [htext, String.toList_append, List.append_assoc]
      exact List.mem_append_left _ hnewline
    · simp only [htext, String.toList_append]
      exact hP.append (hP.append (hP.append hP.newline (splices_metaText hP (hstart _) (hstop _))) hP.newline)
        (splices_tidy hP (hP.slice (hstop _) (hstart _)))
  split at hfix
  · cases hfix
  split at hfix
  · obtain ⟨hestart, hestop, htext⟩ := replace_eq_ok hfix
    exact ⟨hestart ▸ hstop _, hestop ▸ hstart _, htext ▸ hnewline, fun P hP => htext ▸ hP.newline⟩
  · cases hfix

end MetaPosition

end HouseStyle
