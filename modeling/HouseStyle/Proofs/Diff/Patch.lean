import HouseStyle.Proofs.Diff.Hunks

/-!
# Printed differences as patches

A printed difference is meant to be read again: its hunks tell the lines of both texts that their headers
announce, and with them the new text can be put together from the old one. The printed lines are joined as they
are, so all depends on whether they can be told apart again.

* `IsPatch`: hunks that tell what they announce and rebuild the new text; `Laid.rebuilds` for hunks that are laid
  out over a script. `Patches`: a printed text that is read as such hunks.
* `RunsTogether`: the one case in which a line without a line feed is followed by others,
  `feedEnded_printed_iff`.
* `patches_of_feedEnded`, `not_patches`: lines are read as they were printed if they end in line feeds, and only then.
* `unified_patches_iff`: **the printed difference is a patch exactly when that is not the case.**
-/

namespace HouseStyle.Diff

/-! ### Patches -/

/-- **A hunk that tells what it announces**: the lines of either text that its header names. -/
structure Hunk.Announced (old new : List String) (h : Hunk) : Prop where
  oldStop : h.window.oldStop ≤ old.length
  newStop : h.window.newStop ≤ new.length
  oldLines : side '-' h.lines = old.extract h.window.oldStart h.window.oldStop
  newLines : side '+' h.lines = new.extract h.window.newStart h.window.newStop

/-- The new lines that hunks make of the old ones from some line on: what lies before a hunk stays, and its lines
of the new text take the place of those of the old one. -/
def rebuiltFrom (old : List String) (pos : Nat) : List Hunk → List String
  | [] => old.drop pos
  | h :: rest =>
    old.extract pos h.window.oldStart ++ (side '+' h.lines ++ rebuiltFrom old h.window.oldStop rest)

/-- **Hunks that lead from one text to another.** -/
structure IsPatch (old new : String) (hunks : List Hunk) : Prop where
  announced : ∀ h ∈ hunks, h.Announced (linesOf old) (linesOf new)
  rebuilt : String.join (rebuiltFrom (linesOf old) 0 hunks) = new

/-- **A printed difference that is read as a patch.** -/
def Patches (path old new diff : String) : Prop :=
  ∃ hunks, readPatch path diff = some hunks ∧ IsPatch old new hunks

section

variable {i j : Nat} {hs : List Hunk} {xs ys zs printed : List (List Char)} {l : List Char} {mark : Char}

theorem extract_append {α : Type} (xs ys zs : List α) :
    (xs ++ (ys ++ zs)).extract xs.length (xs.length + ys.length) = ys := by
  rw [List.extract, List.drop_left, Nat.add_sub_cancel_left, List.take_left]

/-- **Hunks that are laid out over a script** tell what they announce and rebuild the text that the script tells,
whatever stands before it in either text; by induction on the hunks. -/
theorem Laid.rebuilds (h : Laid i j hs printed) {before before' : List String} (hold : before.length = i)
    (hnew : before'.length = j) :
    (∀ hunk ∈ hs, hunk.Announced (before ++ side '-' printed) (before' ++ side '+' printed)) ∧
      rebuiltFrom (before ++ side '-' printed) i hs = side '+' printed := by
  induction h generalizing before before' with
  | done context =>
    subst hold
    refine ⟨List.forall_mem_nil _, ?_⟩
    rw [rebuiltFrom, List.drop_left, context.side_eq, context.side_eq]
  | @hunk i j gap tail h rest context changes oldStart oldStop newStart newStop next ih =>
    -- what stands before the hunk in either text: the lines before, and those between
    have holdStart : (before ++ side '-' gap).length = h.window.oldStart := by
      rw [List.length_append, context.length_side, hold, oldStart]
    have hnewStart : (before' ++ side '+' gap).length = h.window.newStart := by
      rw [List.length_append, context.length_side, hnew, newStart]
    have hgap : side '-' gap = side '+' gap := by rw [context.side_eq, context.side_eq]
    obtain ⟨hannounced, hrebuilt⟩ := @ih (before ++ side '-' gap ++ side '-' h.lines)
      (before' ++ side '+' gap ++ side '+' h.lines) (by rw [List.length_append, holdStart, oldStop])
      (by rw [List.length_append, hnewStart, newStop])
    have holdLines : before ++ side '-' (gap ++ (h.lines ++ tail)) =
        before ++ side '-' gap ++ (side '-' h.lines ++ side '-' tail) := by
      rw [side_append, side_append, List.append_assoc]
    have hnewLines : before' ++ side '+' (gap ++ (h.lines ++ tail)) =
        before' ++ side '+' gap ++ (side '+' h.lines ++ side '+' tail) := by
      rw [side_append, side_append, List.append_assoc]
    rw [List.append_assoc] at hannounced hrebuilt
    rw [List.append_assoc (before' ++ side '+' gap)] at hannounced
    rw [holdLines, hnewLines]
    refine ⟨List.forall_mem_cons.2 ⟨⟨?_, ?_, ?_, ?_⟩, hannounced⟩, ?_⟩
    · rw [← List.append_assoc, List.length_append, List.length_append, holdStart, oldStop]
      exact Nat.le_add_right _ _
    · rw [← List.append_assoc, List.length_append, List.length_append, hnewStart, newStop]
      exact Nat.le_add_right _ _
    · rw [oldStop, ← holdStart, extract_append]
    · rw [newStop, ← hnewStart, extract_append]
    · have hbefore : (before ++ (side '-' gap ++ (side '-' h.lines ++ side '-' tail))).extract before.length
          (before.length + (side '-' gap).length) = side '-' gap := extract_append _ _ _
      rw [rebuiltFrom, hrebuilt, ← holdStart, List.length_append, List.append_assoc, ← hold, hbefore, hgap,
        side_append, side_append]

/-! ### The printed lines of hunks -/

theorem Laid.readable (h : Laid i j hs printed) (hmarks : ∀ l ∈ printed, l.head? ≠ some '@') :
    ∀ hunk ∈ hs, hunk.Readable := by
  induction h with
  | done context => exact List.forall_mem_nil _
  | hunk context changes oldStart oldStop newStart newStop next ih =>
    rw [List.forall_mem_append, List.forall_mem_append] at hmarks
    obtain ⟨-, hlines, htail⟩ := hmarks
    refine List.forall_mem_cons.2 ⟨⟨?_, ?_, hlines⟩, ih htail⟩
    · rw [oldStop]
      exact Nat.le_add_right _ _
    · rw [newStop]
      exact Nat.le_add_right _ _

/-- No line is left out but lines of both texts. -/
theorem Laid.mem_printed (h : Laid i j hs printed) (hl : l ∈ printed) (hmark : l.head? ≠ some ' ') :
    l ∈ hs.flatMap Hunk.printed := by
  induction h with
  | done context => exact absurd (context l hl) hmark
  | hunk context changes oldStart oldStop newStart newStop next ih =>
    rw [List.flatMap_cons, Hunk.printed, List.cons_append]
    refine List.mem_cons_of_mem _ (List.mem_append.2 ?_)
    rcases List.mem_append.1 hl with hgap | hl
    · exact absurd (context l hgap) hmark
    · exact (List.mem_append.1 hl).imp_right ih

/-- Hunks stand over the lines of a script. -/
theorem Laid.ne_nil (h : Laid i j hs printed) (hne : hs ≠ []) : printed ≠ [] := by
  cases h with
  | done context => exact absurd rfl hne
  | hunk context changes oldStart oldStop newStart newStop next =>
    exact List.append_ne_nil_of_right_ne_nil _ (List.append_ne_nil_of_left_ne_nil changes _)

/-- A script that ends in a change ends in the last line of a hunk. -/
theorem Laid.getLast?_printed (h : Laid i j hs printed) (hl : printed.getLast? = some l) (hmark : l.head? ≠ some ' ') :
    (hs.flatMap Hunk.printed).getLast? = some l := by
  induction h with
  | done context => exact absurd (context l (List.mem_of_getLast? hl)) hmark
  | @hunk i j gap tail h rest context changes oldStart oldStop newStart newStop next ih =>
    rw [List.flatMap_cons, Hunk.printed, List.cons_append, ← List.singleton_append]
    rw [List.getLast?_append_of_ne_nil _ (List.append_ne_nil_of_left_ne_nil changes _)] at hl ⊢
    -- the last line is one of this hunk only if no line, and so no hunk, follows
    by_cases htail : tail = []
    · have hrest : rest = [] := by
        by_contra hrest
        exact next.ne_nil hrest htail
      rwa [hrest, List.flatMap_nil, ← htail]
    · rw [List.getLast?_append_of_ne_nil _ htail] at hl
      rw [List.getLast?_append, ih hl, Option.some_or]

/-- **Lines that end in line feeds do so in the hunks**, too; by induction on the hunks. -/
theorem Laid.feedEnded (h : Laid i j hs printed) (hfeeds : FeedEnded printed) :
    FeedEnded (hs.flatMap Hunk.printed) := by
  induction h with
  | done context => exact .nil
  | @hunk i j gap tail h rest context changes oldStart oldStop newStart newStop next ih =>
    rw [List.flatMap_cons, Hunk.printed, List.cons_append]
    refine .cons (isWhole_headerText _) ?_
    by_cases hrest : rest = []
    · subst hrest
      rw [List.flatMap_nil, List.append_nil]
      exact hfeeds.right.left
    · exact .append (hfeeds.right.whole (next.ne_nil hrest)) (ih hfeeds.right.right)

end

/-! ### Which lines run together -/

section

variable {old new : String} {mark : Char} {l : List Char} {xs ys : List (List Char)}

theorem hunksOf_laid (old new : String) : Laid 0 0 (hunksOf old new) (scriptOf old new) :=
  hunks_laid (sound_ofLines _ _)

theorem side_old_scriptOf (old new : String) : side '-' (scriptOf old new) = linesOf old := by
  rw [scriptOf, (steps_leads (sound_ofLines _ _)).side_old]
  simp [Pair.ofLines]

theorem side_new_scriptOf (old new : String) : side '+' (scriptOf old new) = linesOf new := by
  rw [scriptOf, (steps_leads (sound_ofLines _ _)).side_new]
  simp [Pair.ofLines]

/-- A line of a script is a line of a text behind its mark. -/
theorem mem_script {p : Pair} {steps : List Step} (h : l ∈ script p steps) : ∃ c line, l = c :: String.toList line ∧
    ((c = ' ' ∨ c = '-') ∧ line ∈ p.old ∨ c = '+' ∧ line ∈ p.new) := by
  have hlines {c : Char} {lines : Array String} {a b : Nat} (h : l ∈ printedLines c lines a b) :
      ∃ line ∈ lines, l = c :: line.toList := by
    obtain ⟨line, hline, rfl⟩ := List.mem_map.1 h
    obtain ⟨k, hk, rfl⟩ := Array.mem_extract_iff_getElem.1 (Array.mem_toList_iff.1 hline)
    exact ⟨_, Array.getElem_mem _, rfl⟩
  obtain ⟨s, -, h⟩ := List.mem_flatMap.1 h
  unfold Step.printed at h
  split at h
  · obtain ⟨line, hline, rfl⟩ := hlines h
    exact ⟨' ', line, rfl, .inl ⟨.inl rfl, hline⟩⟩
  · rcases List.mem_append.1 h with h | h
    · obtain ⟨line, hline, rfl⟩ := hlines h
      exact ⟨'-', line, rfl, .inl ⟨.inr rfl, hline⟩⟩
    · obtain ⟨line, hline, rfl⟩ := hlines h
      exact ⟨'+', line, rfl, .inr ⟨rfl, hline⟩⟩

theorem isLine_of_mem_script (hold : OnlyFeeds old) (hnew : OnlyFeeds new) {steps : List Step}
    (h : l ∈ script (Pair.ofLines (linesOf old) (linesOf new)) steps) : IsLine l := by
  obtain ⟨c, line, rfl, ⟨hc, hline⟩ | ⟨rfl, hline⟩⟩ := mem_script h
  · have hline := hold.feedEnded.isLine _ (List.mem_map_of_mem (List.mem_toArray.1 hline))
    refine hline.cons ?_
    rcases hc with rfl | rfl <;> decide
  · have hline := hnew.feedEnded.isLine _ (List.mem_map_of_mem (List.mem_toArray.1 hline))
    exact hline.cons (by decide)

/-- **A line without a line feed that others would follow**: the last line of the old text has none, and the
script ends in a line that is put in. -/
def RunsTogether (old new : String) : Prop :=
  (∃ line ∈ (linesOf old).getLast?, OneLine line) ∧ ∃ l ∈ (scriptOf old new).getLast?, l.head? = some '+'

instance (old new : String) : Decidable (RunsTogether old new) :=
  inferInstanceAs (Decidable (_ ∧ _))

theorem side_append_cons {c : Char} {text : List Char} (hc : c = ' ' ∨ c = mark) :
    side mark (xs ++ (c :: text) :: ys) = side mark xs ++ String.ofList text :: side mark ys := by
  rw [side_append, side, side, side, List.filterMap_cons_some (by rw [lineOf?, if_pos hc])]

/-- A line that is told of a text stands behind a mark of it. -/
theorem exists_of_mem_side {line : String} (h : line ∈ side mark xs) :
    ∃ c, (c = ' ' ∨ c = mark) ∧ c :: line.toList ∈ xs := by
  obtain ⟨l, hl, hline⟩ := List.mem_filterMap.1 h
  cases l with
  | nil => cases hline
  | cons c text =>
    rw [lineOf?] at hline
    split at hline
    · rename_i hc
      cases hline
      exact ⟨c, hc, by rwa [String.toList_ofList]⟩
    · cases hline

/-- Where nothing is told of a text, no line has its mark. -/
theorem not_mark_of_side_eq_nil {c : Char} {text : List Char} (h : side mark xs = []) (hmem : c :: text ∈ xs) :
    ¬ (c = ' ' ∨ c = mark) := by
  intro hc
  have hnone := List.filterMap_eq_nil_iff.1 h _ hmem
  rw [lineOf?, if_pos hc] at hnone
  cases hnone

/-- No line of a text follows one without a line feed. -/
theorem side_eq_nil {s : String} {c : Char} {line : String} (hs : OnlyFeeds s) (hc : c = ' ' ∨ c = mark)
    (h : side mark (xs ++ (c :: line.toList) :: ys) = linesOf s) (hline : OneLine line) : side mark ys = [] := by
  have hfeeds := hs.feedEnded
  rw [← h, side_append_cons hc, String.ofList_toList, List.map_append, List.map_cons] at hfeeds
  exact List.map_eq_nil_iff.1 (hfeeds.eq_nil hline)

/-- No line of a script is read as a header. -/
theorem head?_of_mem_script {p : Pair} {steps : List Step} (h : l ∈ script p steps) : l.head? ≠ some '@' := by
  obtain ⟨c, line, rfl, ⟨rfl | rfl, -⟩ | ⟨rfl, -⟩⟩ := mem_script h <;> rw [List.head?_cons] <;> decide

theorem hunksOf_readable (old new : String) : ∀ h ∈ hunksOf old new, h.Readable :=
  (hunksOf_laid old new).readable fun _ hl => head?_of_mem_script hl

theorem scriptOf_ordered (old new : String) : Ordered (scriptOf old new) :=
  script_ordered (sound_ofLines _ _)

/-- **All lines of the script end in line feeds** but for the last one, unless they run together. -/
theorem feedEnded_scriptOf (hold : OnlyFeeds old) (hnew : OnlyFeeds new) (h : ¬ RunsTogether old new) :
    FeedEnded (scriptOf old new) := by
  by_contra hfeeds
  have hlines : ∀ l ∈ scriptOf old new, IsLine l := fun _ => isLine_of_mem_script hold hnew
  obtain ⟨xs, l, ys, hscript, -, -, hopen, hys⟩ := exists_open_line hlines hfeeds
  obtain ⟨c, line, rfl, hc⟩ := mem_script (show l ∈ scriptOf old new by simp [hscript])
  have hone : OneLine line := fun hmem => hopen (List.mem_cons_of_mem _ hmem)
  -- nothing follows the line in a text that it is of, and every line that follows is of a text
  have hnotOld (hc : c = ' ' ∨ c = '-') : side '-' ys = [] :=
    side_eq_nil hold hc (hscript ▸ side_old_scriptOf old new) hone
  have hnotNew (hc : c = ' ' ∨ c = '+') : side '+' ys = [] :=
    side_eq_nil hnew hc (hscript ▸ side_new_scriptOf old new) hone
  have hmark (hc : c = ' ' ∨ c = '-') (y : List Char) (hy : y ∈ ys) : y.head? = some '+' := by
    obtain ⟨c', text, rfl, ⟨hc', -⟩ | ⟨rfl, -⟩⟩ := mem_script (show y ∈ scriptOf old new by simp [hscript, hy])
    · exact absurd hc' (not_mark_of_side_eq_nil (hnotOld hc) hy)
    · rfl
  obtain ⟨y, ys, rfl⟩ := List.exists_cons_of_ne_nil hys
  rcases hc with ⟨rfl | rfl, -⟩ | ⟨rfl, -⟩
  · -- a line of both texts: neither of them goes on
    have hy := hmark (.inl rfl) y List.mem_cons_self
    obtain ⟨text, rfl⟩ := List.head?_eq_some_iff.1 hy
    exact not_mark_of_side_eq_nil (hnotNew (.inl rfl)) List.mem_cons_self (.inr rfl)
  · -- a line that is taken out: all that follows is put in, and that is what was excluded
    refine h ⟨⟨line, ?_, hone⟩, (y :: ys).getLast hys, ?_, hmark (.inr rfl) _ (List.getLast_mem hys)⟩
    · rw [← side_old_scriptOf old new, hscript, side_append_cons (.inr rfl), hnotOld (.inr rfl), String.ofList_toList]
      exact List.getLast?_concat
    · rw [hscript, List.getLast?_append_cons, List.getLast?_cons_cons]
      exact List.getLast?_eq_some_getLast hys
  · -- a line that is put in: what follows would be taken out, and that stands before
    have hordered := scriptOf_ordered old new
    rw [hscript] at hordered
    have hnext := (List.isChain_cons_cons.1 (List.isChain_append.1 hordered).2.1).1 rfl
    obtain ⟨c', text, rfl, ⟨hc', -⟩ | ⟨rfl, -⟩⟩ := mem_script (show y ∈ scriptOf old new by simp [hscript])
    · rcases hc' with rfl | rfl
      · exact not_mark_of_side_eq_nil (hnotNew (.inr rfl)) List.mem_cons_self (.inl rfl)
      · exact hnext rfl
    · exact not_mark_of_side_eq_nil (hnotNew (.inr rfl)) List.mem_cons_self (.inr rfl)

/-- The hunks do not end in line feeds if the lines of the script run together: the line without one stands in a
hunk, and so does the last line that is put in. -/
theorem RunsTogether.not_feedEnded (hnew : OnlyFeeds new) (h : RunsTogether old new) :
    ¬ FeedEnded ((hunksOf old new).flatMap Hunk.printed) := by
  intro hfeeds
  obtain ⟨⟨line, hline, hone⟩, l, hl, hmark⟩ := h
  have hmem := List.mem_of_getLast? hline
  rw [← side_old_scriptOf old new] at hmem
  obtain ⟨c, rfl | rfl, hmem⟩ := exists_of_mem_side hmem
  · -- a line of both texts is the last one of both, and the script does not end in it
    obtain ⟨xs, ys, hscript⟩ := List.append_of_mem hmem
    rw [hscript, List.getLast?_append_cons] at hl
    rcases List.mem_cons.1 (List.mem_of_getLast? hl) with rfl | hlys
    · cases hmark
    · obtain ⟨text, rfl⟩ := List.head?_eq_some_iff.1 hmark
      have hnot := side_eq_nil hnew (.inl rfl) (hscript ▸ side_new_scriptOf old new) hone
      exact not_mark_of_side_eq_nil hnot hlys (.inr rfl)
  · -- a line that is taken out stands in a hunk, which would have to end in it
    have hlast := (hunksOf_laid old new).getLast?_printed hl (by rw [hmark]; decide)
    obtain ⟨xs, ys, hprinted⟩ :=
      List.append_of_mem ((hunksOf_laid old new).mem_printed hmem (by rw [List.head?_cons]; decide))
    rw [hprinted] at hfeeds hlast
    have hopen : '\n' ∉ '-' :: line.toList := List.not_mem_cons_of_ne_of_not_mem (by decide) hone
    rw [hfeeds.eq_nil hopen, List.getLast?_concat] at hlast
    cases hlast
    cases hmark

/-! ### What is read -/

/-- The lines of a text make it up. -/
theorem join_linesOf (s : String) : String.join (linesOf s) = s := by
  refine String.toList_injective ?_
  rw [String.toList_join, linesOf, List.flatMap_map]
  simp only [String.toList_ofList]
  rw [List.flatMap_id', flatten_splitLines]

/-- The hunks of two texts tell what they announce, and rebuild the new text. -/
theorem hunksOf_announced (old new : String) : (∀ h ∈ hunksOf old new, h.Announced (linesOf old) (linesOf new)) ∧
    rebuiltFrom (linesOf old) 0 (hunksOf old new) = linesOf new := by
  have hrebuilds := @Laid.rebuilds _ _ _ _ (hunksOf_laid old new) [] [] rfl rfl
  rwa [List.nil_append, List.nil_append, side_old_scriptOf, side_new_scriptOf] at hrebuilds

/-- **Lines that end in line feeds are read as they were printed.** -/
theorem patches_of_feedEnded (path : String) (hfeeds : FeedEnded ((hunksOf old new).flatMap Hunk.printed)) :
    Patches path old new (unified path old new) := by
  obtain ⟨hannounced, hrebuilt⟩ := hunksOf_announced old new
  refine ⟨hunksOf old new, ?_, hannounced, ?_⟩
  · have hsections := sections_printed (hunksOf_readable old new) (show sections [] = some ([], []) from rfl)
    rw [List.append_nil, List.append_nil] at hsections
    rw [readPatch_unified, feedLines_flatten hfeeds, readHunks, hsections]
    rfl
  · rw [hrebuilt, join_linesOf]

/-- The hunk that a line without a line feed stands in, and what is printed before it. -/
theorem exists_hunk_of_printed {hs : List Hunk} (h : hs.flatMap Hunk.printed = xs ++ l :: ys) (hl : '\n' ∉ l) :
    ∃ before hunk after lines more, hs = before ++ hunk :: after ∧ hunk.lines = lines ++ l :: more ∧
      xs = before.flatMap Hunk.printed ++ (headerText hunk.window).toList :: lines := by
  induction hs generalizing xs with
  | nil => exact absurd (List.append_eq_nil_iff.1 h.symm).2 (List.cons_ne_nil _ _)
  | cons hunk hs ih =>
    have hbelow {rest : List (List Char)} (hxs : xs = hunk.printed ++ rest)
        (hrest : hs.flatMap Hunk.printed = rest ++ l :: ys) : ∃ before hunk' after lines more,
        hunk :: hs = before ++ hunk' :: after ∧ hunk'.lines = lines ++ l :: more ∧
          xs = before.flatMap Hunk.printed ++ (headerText hunk'.window).toList :: lines := by
      obtain ⟨before, hunk', after, lines, more, rfl, hlines, rfl⟩ := ih hrest
      refine ⟨hunk :: before, hunk', after, lines, more, rfl, hlines, ?_⟩
      rw [hxs, List.flatMap_cons, List.append_assoc]
    rw [List.flatMap_cons] at h
    rcases List.append_eq_append_iff.1 h with ⟨rest, hxs, hrest⟩ | ⟨rest, hprinted, hrest⟩
    · exact hbelow hxs hrest
    · cases rest with
      | nil => exact @hbelow [] (by rw [hprinted, List.append_nil, List.append_nil]) hrest.symm
      | cons l' more =>
        cases hrest
        cases xs with
        | nil =>
          obtain ⟨rfl, -⟩ := List.cons.inj hprinted
          exact absurd (isWhole_headerText _).feed_mem hl
        | cons header lines =>
          obtain ⟨rfl, hlines⟩ := List.cons.inj hprinted
          exact ⟨[], hunk, hs, lines, more, rfl, hlines, rfl⟩

/-- What is printed are lines: the headers, and below them lines of the texts. -/
theorem isLine_of_mem_printed (hold : OnlyFeeds old) (hnew : OnlyFeeds new) :
    ∀ l ∈ (hunksOf old new).flatMap Hunk.printed, IsLine l := by
  intro l hl
  obtain ⟨_, hhunk, hl⟩ := List.mem_flatMap.1 hl
  obtain ⟨steps, -, rfl⟩ := List.mem_map.1 hhunk
  rcases List.mem_cons.1 hl with rfl | hl
  · exact .inl (isWhole_headerText _)
  · exact isLine_of_mem_script hold hnew hl

/-- No two hunks with one header both tell what it announces if a line is longer in the one than in the other. -/
theorem not_announced_longer {lines lines' : List String} {h h' : Hunk} {c : Char} {text z : List Char}
    {more more' : List (List Char)} (hmark : (c = ' ' ∨ c = '-') ∨ c = '+') (hz : z ≠ [])
    (hlines : h.lines = xs ++ (c :: text) :: more) (hlines' : h'.lines = xs ++ (c :: (text ++ z)) :: more')
    (hwindow : h.window = h'.window) (hh : h.Announced lines lines') :
    ¬ h'.Announced lines lines' := by
  intro hh'
  have hlonger {mark : Char} (hmark : c = ' ' ∨ c = mark) (hside : side mark h.lines = side mark h'.lines) : False := by
    rw [hlines, hlines', side_append_cons hmark, side_append_cons hmark] at hside
    have htext := String.ofList_injective (List.cons.inj (List.append_cancel_left hside)).1
    exact hz (List.append_right_eq_self.1 htext.symm)
  rcases hmark with hc | hc
  · exact hlonger hc (by rw [hh.oldLines, hh'.oldLines, hwindow])
  · exact hlonger (.inr hc) (by rw [hh.newLines, hh'.newLines, hwindow])

/-- **Where a line is followed by others without a line feed**, they are read as one, and its hunk does not tell
what it announces. -/
theorem not_patches (hold : OnlyFeeds old) (hnew : OnlyFeeds new) (path : String)
    (hfeeds : ¬ FeedEnded ((hunksOf old new).flatMap Hunk.printed)) :
    ¬ Patches path old new (unified path old new) := by
  rintro ⟨hs, hread, hpatch⟩
  have hlinesOf := isLine_of_mem_printed hold hnew
  obtain ⟨xs, l, ys, hprinted, hxs, hne, hopen, hys⟩ := exists_open_line hlinesOf hfeeds
  obtain ⟨before, hunk, after, lines, more, hhunks, hlines, rfl⟩ := exists_hunk_of_printed hprinted hopen
  have hmem : hunk ∈ hunksOf old new := by simp [hhunks]
  obtain ⟨c, line, rfl, hc⟩ : ∃ c line, l = c :: String.toList line ∧ ((c = ' ' ∨ c = '-') ∨ c = '+') := by
    obtain ⟨steps, -, rfl⟩ := List.mem_map.1 hmem
    have hl : l ∈ (hunkOf (Pair.ofLines (linesOf old) (linesOf new)) steps).lines := by simp [hlines]
    obtain ⟨c, line, rfl, hc⟩ := mem_script hl
    exact ⟨c, line, rfl, hc.imp And.left And.left⟩
  -- the line is read together with what follows it
  have hrest : ys.flatten ≠ [] := by
    obtain ⟨y, hy⟩ := List.exists_mem_of_ne_nil ys hys
    have hy' := (hlinesOf y (by simp [hprinted, hy])).ne_nil
    exact fun hnil => hy' (List.flatten_eq_nil_iff.1 hnil y hy)
  obtain ⟨z, below, hz, hlong⟩ := feedLines_open_append hne hopen hrest
  rw [readPatch_unified, hprinted, List.flatten_append, List.flatten_cons, feedLines_flatten_append hxs, hlong] at hread
  have hreadable := hunksOf_readable old new
  rw [hhunks] at hreadable
  obtain ⟨hbefore, hhunk⟩ := List.forall_mem_append.1 hreadable
  have hmark : (c :: line.toList ++ z).head? ≠ some '@' := by
    rcases hc with (rfl | rfl) | rfl <;> simp
  -- and that longer line stands in the hunk that is read, where the printed one has this line
  obtain ⟨more', hread⟩ := mem_of_readHunks hbefore (hhunk _ List.mem_cons_self) hlines hmark hread
  have hannounced := (hunksOf_announced old new).1 hunk hmem
  exact absurd (hpatch.announced _ hread) (not_announced_longer hc hz hlines rfl rfl hannounced)

theorem feedEnded_printed_iff (hold : OnlyFeeds old) (hnew : OnlyFeeds new) :
    FeedEnded ((hunksOf old new).flatMap Hunk.printed) ↔ ¬ RunsTogether old new :=
  ⟨fun hfeeds h => h.not_feedEnded hnew hfeeds,
    fun h => (hunksOf_laid old new).feedEnded (feedEnded_scriptOf hold hnew h)⟩

/-- **The printed difference is a patch exactly when its lines do not run together.** For texts whose lines end in
line feeds, it is read hunk by hunk: each tells the lines of either text that its header announces, and all of them
rebuild the new text from the old one. So it is, except where the last line of the old text has no line feed and
the difference ends in lines that are put in, which then stand on that line. -/
theorem unified_patches_iff (path : String) (hold : OnlyFeeds old) (hnew : OnlyFeeds new) :
    Patches path old new (unified path old new) ↔ ¬ RunsTogether old new := by
  rw [← feedEnded_printed_iff hold hnew]
  exact ⟨fun h => not_not.1 fun hfeeds => not_patches hold hnew path hfeeds h, patches_of_feedEnded path⟩

end

theorem unified_patches_last_line : unified "a.css" "a\nb\n" "a\nc" =
      "--- a/a.css\n+++ b/a.css\n@@ -1,2 +1,2 @@\n a\n-b\n+c" ∧
    Patches "a.css" "a\nb\n" "a\nc" (unified "a.css" "a\nb\n" "a\nc") :=
  ⟨by decide +kernel, (unified_patches_iff "a.css" (by decide) (by decide)).2 (by decide +kernel)⟩

/-- The line that is taken out and the one that is put in are printed on one line. -/
theorem unified_runs_together : unified "a.css" "x" "y" = "--- a/a.css\n+++ b/a.css\n@@ -1 +1 @@\n-x+y" ∧
    ¬ Patches "a.css" "x" "y" (unified "a.css" "x" "y") := by
  have htext : unified "a.css" "x" "y" = "--- a/a.css\n+++ b/a.css\n@@ -1 +1 @@\n-x+y" := by decide +kernel
  refine ⟨htext, ?_⟩
  rintro ⟨hs, hread, hpatch⟩
  rw [htext] at hread
  have hhunk : readPatch "a.css" "--- a/a.css\n+++ b/a.css\n@@ -1 +1 @@\n-x+y" =
      some [⟨⟨0, 1, 0, 1⟩, ["-x+y".toList]⟩] := by decide +kernel
  rw [hhunk] at hread
  cases hread
  have hlines := (hpatch.announced _ List.mem_cons_self).oldLines
  exact absurd hlines (by decide +kernel)

end HouseStyle.Diff
