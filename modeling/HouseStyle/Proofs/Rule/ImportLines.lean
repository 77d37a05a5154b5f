import HouseStyle.Proofs.Rule.ImportBlock
import HouseStyle.Proofs.Text.Places
import Mathlib.Data.List.Chain

/-!
# The lines of the block of imports

The rewrite copies the lines that belong to an entry: its statement and the comments above it. The
comments are looked for upwards, past blank lines, until a line is found that has to stay at the top
of a file or is neither blank nor a comment. What stands above such a line, and the line itself,
belongs to no entry and is not copied.

* `Entry.claimed`, `unclaimed`: the lines that belong to an entry, and those between two entries that
  belong to neither.
* `commentStart_step`: what one step of the search does.
* `claims_all_iff`: all lines between two entries belong to the second one when each is blank or a
  comment and none has to stay at the top.
* `lines_of_fix`: **the rewrite keeps each line once, but for those that belong to no entry.**
-/

namespace HouseStyle.ImportGrouping

variable {t : Source}

/-! ### Comments above a statement -/

section

variable {floor line start : Nat} {contiguous : Bool}

theorem commentStart_pos (h : 0 < start) : 0 < commentStart t floor contiguous line start := by
  fun_induction commentStart t floor contiguous line start with
  | case1 => exact h
  | case2 => exact h
  | case3 _ _ _ _ ih => exact ih (Nat.succ_pos _)
  | case4 => exact h
  | case5 _ _ _ _ _ ih => exact ih h

theorem commentStart_le (h : line < start) : commentStart t floor contiguous line start ≤ start := by
  fun_induction commentStart t floor contiguous line start with
  | case1 => exact Nat.le_refl _
  | case2 => exact Nat.le_refl _
  | case3 _ _ _ _ ih => exact Nat.le_trans (ih (Nat.lt_succ_self _)) (Nat.le_of_lt h)
  | case4 => exact Nat.le_refl _
  | case5 _ _ _ _ _ ih => exact ih (Nat.lt_of_succ_lt h)

theorem lt_commentStart (h : floor < start) : floor < commentStart t floor contiguous line start := by
  fun_induction commentStart t floor contiguous line start with
  | case1 => exact h
  | case2 => exact h
  | case3 _ _ hstop _ ih =>
    refine ih ?_
    rw [Bool.or_eq_true, decide_eq_true_eq, not_or] at hstop
    exact Nat.lt_of_not_le hstop.1
  | case4 => exact h
  | case5 _ _ _ _ _ ih => exact ih h

end

/-- What has to stay at the top of a file is no blank line. -/
theorem not_isBlankLine_of_isFileHeader {line : Nat} (h : isFileHeader t line = true) : isBlankLine t line = false := by
  have hsign : '#' ∈ (t.lineText line).toList := by
    rw [isFileHeader, Bool.or_eq_true, Bool.and_eq_true, Bool.and_eq_true] at h
    rcases h with ⟨-, hprefix⟩ | ⟨-, hencoding⟩
    · exact (List.isPrefixOf_iff_prefix.1 hprefix).subset (by decide)
    · unfold declaresEncoding at hencoding
      split at hencoding
      · rename_i rest hrest
        exact (List.dropWhile_suffix _).subset (hrest ▸ List.mem_cons_self)
      · cases hencoding
  rw [isBlankLine, isBlankText, List.all_eq_false]
  exact ⟨'#', hsign, by decide⟩

/-- A line that may stand between two imports and be copied with the second one. -/
def isCarried (t : Source) (line : Nat) : Bool :=
  (isBlankLine t line || isCommentLine t line) && !isFileHeader t line

/-- **What one step of the search does**: it ends at a line that is not carried, takes up a comment, and
passes over a blank line. -/
theorem commentStart_step {floor line start : Nat} (hfloor : floor < line + 1) :
    (isCarried t (line + 1) = false ∧ isBlankLine t (line + 1) = false ∧
        commentStart t floor false (line + 1) start = start) ∨
      (isCarried t (line + 1) = true ∧
        commentStart t floor false (line + 1) start = commentStart t floor false line (line + 1)) ∨
      (isCarried t (line + 1) = true ∧ isBlankLine t (line + 1) = true ∧
        commentStart t floor false (line + 1) start = commentStart t floor false line start) := by
  have hreached : decide (line + 1 ≤ floor) = false := decide_eq_false (Nat.not_le.2 hfloor)
  rw [commentStart, hreached, Bool.false_or, isCarried]
  cases hheader : isFileHeader t (line + 1) with
  | true =>
    refine .inl ⟨?_, not_isBlankLine_of_isFileHeader hheader, rfl⟩
    rw [Bool.not_true, Bool.and_false]
  | false =>
    rw [if_neg Bool.false_ne_true, Bool.not_false, Bool.and_true]
    cases hcomment : isCommentLine t (line + 1) with
    | true => exact .inr (.inl ⟨Bool.or_true _, rfl⟩)
    | false =>
      cases hblank : isBlankLine t (line + 1) with
      | true => exact .inr (.inr ⟨rfl, rfl, rfl⟩)
      | false => exact .inl ⟨rfl, rfl, rfl⟩

/-- **Only blank lines are left between two imports exactly when all lines between them are carried.**
The search goes upwards and has left only blank lines behind it when it goes on. -/
theorem claims_all_iff {floor line start : Nat} (hline : line < start)
    (hbelow : ∀ k, line < k → k < start → isBlankLine t k = true) :
    (∀ k, floor < k → k < commentStart t floor false line start → isBlankLine t k = true) ↔
      ∀ k, floor < k → k ≤ line → isCarried t k = true := by
  induction line generalizing start with
  | zero =>
    refine ⟨fun _ k _ hk => by omega, fun _ k hk hlt => ?_⟩
    exact hbelow k (by omega) hlt
  | succ line ih =>
    rcases Nat.lt_or_ge floor (line + 1) with hfloor | hfloor
    · -- what is said of the lines up to this one is said of this one and of those above
      have hsplit : (∀ k, floor < k → k ≤ line + 1 → isCarried t k = true) ↔
          isCarried t (line + 1) = true ∧ ∀ k, floor < k → k ≤ line → isCarried t k = true := by
        refine ⟨fun h => ⟨h _ hfloor (Nat.le_refl _), fun k hk hle => h k hk (Nat.le_succ_of_le hle)⟩, ?_⟩
        rintro ⟨hhere, habove⟩ k hk hle
        rcases Nat.eq_or_lt_of_le hle with rfl | hlt
        · exact hhere
        · exact habove k hk (Nat.le_of_lt_succ hlt)
      rcases @commentStart_step t _ _ start hfloor with
        ⟨hcarried, hblank, heq⟩ | ⟨hcarried, heq⟩ | ⟨hcarried, hblank, heq⟩ <;>
        rw [heq, hsplit, hcarried]
      · refine ⟨fun h => ?_, fun h => nomatch h.1⟩
        rw [h _ hfloor hline] at hblank
        cases hblank
      · rw [ih (Nat.lt_succ_self _) fun k hk hlt => by omega, eq_self_iff_true, true_and]
      · have hbelow' (k : Nat) (hk : line < k) (hlt : k < start) : isBlankLine t k = true := by
          rcases Nat.eq_or_lt_of_le (Nat.succ_le_of_lt hk) with rfl | hlater
          · exact hblank
          · exact hbelow k hlater hlt
        rw [ih (Nat.lt_of_succ_lt hline) hbelow', eq_self_iff_true, true_and]
    · -- the line belongs to the entry before
      have hreached : decide (line + 1 ≤ floor) = true := decide_eq_true hfloor
      rw [commentStart, hreached, Bool.true_or, if_pos rfl]
      exact ⟨fun _ k hk hle => by omega, fun _ k hk hlt => hbelow k (by omega) hlt⟩

/-! ### The lines of an entry -/

/-- The lines that are copied along with an entry: its statement, and the comments above it. -/
def Entry.claimed (e : Entry) : List Nat :=
  List.range' e.chunkStart (e.lastLine + 1 - e.chunkStart)

/-- The lines between neighbours that are not copied along with the second one. -/
def unclaimed : List Entry → List Nat
  | a :: b :: rest => List.range' (a.lastLine + 1) (b.chunkStart - (a.lastLine + 1)) ++ unclaimed (b :: rest)
  | _ => []

/-- An entry has lines of the text, and comments above them. -/
structure Entry.Proper (t : Source) (e : Entry) : Prop where
  pos : 0 < e.chunkStart
  chunkStart_le : e.chunkStart ≤ e.firstLine
  firstLine_le : e.firstLine ≤ e.lastLine
  lastLine_le : e.lastLine ≤ t.lineCount

/-- The comments of an entry are looked for up to the entry before it. -/
def Entry.Follows (t : Source) (a b : Entry) : Prop :=
  b.chunkStart = commentStart t a.lastLine false (b.firstLine - 1) b.firstLine

theorem entryOf_proper (t : Source) (previous : Option Entry) (n first : Node) (group : Group) :
    (entryOf t previous n first group).Proper t := by
  have hpos := t.one_le_lineOf n.span.start
  refine ⟨commentStart_pos hpos, commentStart_le (Nat.sub_one_lt_of_lt hpos), ?_, t.lineOf_le_lineCount _⟩
  exact t.lineOf_mono (Nat.le_max_left _ _)

theorem proper_of_mem_entriesFrom {o : ImportGroupingOptions} {ns : List Node} :
    ∀ {previous : Option Entry}, ∀ e ∈ entriesFrom t o previous ns, e.Proper t := by
  induction ns with
  | nil => exact fun e he => nomatch he
  | cons n rest ih =>
    intro previous e he
    rw [entriesFrom] at he
    split at he
    · cases he
    · rcases List.mem_cons.1 he with rfl | he
      · exact entryOf_proper _ _ _ _ _
      · exact ih e he

theorem isChain_entriesFrom (t : Source) (o : ImportGroupingOptions) (ns : List Node) :
    ∀ previous, (previous.toList ++ entriesFrom t o previous ns).IsChain (Entry.Follows t) := by
  induction ns with
  | nil =>
    intro previous
    rw [entriesFrom, List.append_nil]
    cases previous with
    | none => exact .nil
    | some p => exact .singleton p
  | cons n rest ih =>
    intro previous
    rw [entriesFrom]
    split
    · cases previous with
      | none => exact .nil
      | some p => exact .singleton p
    · rename_i first group _
      have hrest := ih (some (entryOf t previous n first group))
      cases previous with
      | none => exact hrest
      | some p => exact List.isChain_cons_cons.2 ⟨rfl, hrest⟩

/-- Entries that share no line come one after the other. -/
theorem isChain_of_sharesLine {es : List Entry} (h : sharesLine es = false) :
    es.IsChain fun a b => a.lastLine < b.firstLine := by
  induction es with
  | nil => exact .nil
  | cons a rest ih =>
    cases rest with
    | nil => exact .singleton a
    | cons b rest =>
      rw [sharesLine, Bool.or_eq_false_iff, decide_eq_false_iff_not, Nat.not_le] at h
      exact List.isChain_cons_cons.2 ⟨h.1, ih h.2⟩

/-! ### What is copied and what is not -/

theorem range'_append_of_le {a b c : Nat} (hab : a ≤ b) (hbc : b ≤ c) :
    List.range' a (b - a) ++ List.range' b (c - b) = List.range' a (c - a) := by
  have hb : b = a + (b - a) := by omega
  conv_lhs => rw [hb, Nat.add_sub_cancel_left, List.range'_append_1]
  congr 1
  omega

/-- **The lines from the first entry to the last** are those that are copied and those that are not. -/
theorem lines_perm {es : List Entry} {first last : Entry} (hfirst : es.head? = some first)
    (hlast : es.getLast? = some last) (hentry : ∀ e ∈ es, e.chunkStart ≤ e.lastLine)
    (hchain : es.IsChain fun a b => a.lastLine < b.chunkStart) :
    first.chunkStart ≤ last.lastLine ∧
      (List.range' first.chunkStart (last.lastLine + 1 - first.chunkStart)).Perm
        (es.flatMap Entry.claimed ++ unclaimed es) := by
  induction es generalizing first with
  | nil => cases hfirst
  | cons a rest ih =>
    cases hfirst
    rw [List.forall_mem_cons] at hentry
    cases rest with
    | nil =>
      cases hlast
      refine ⟨hentry.1, ?_⟩
      rw [List.flatMap_singleton, unclaimed, List.append_nil, Entry.claimed]
      · exact .refl _
      · nofun
    | cons b rest =>
      rw [List.getLast?_cons_cons] at hlast
      obtain ⟨hab, hchain⟩ := List.isChain_cons_cons.1 hchain
      obtain ⟨hle, hperm⟩ := ih rfl hlast hentry.2 hchain
      have hgap : a.chunkStart ≤ a.lastLine + 1 := Nat.le_succ_of_le hentry.1
      refine ⟨Nat.le_trans hentry.1 (Nat.le_of_lt (Nat.lt_of_lt_of_le hab hle)), ?_⟩
      rw [← range'_append_of_le hgap (by omega : a.lastLine + 1 ≤ last.lastLine + 1),
        ← range'_append_of_le (Nat.succ_le_of_lt hab) (by omega : b.chunkStart ≤ last.lastLine + 1),
        List.flatMap_cons, unclaimed, List.append_assoc]
      refine .append_left a.claimed (.trans (.append_left _ hperm) ?_)
      exact List.perm_append_comm_assoc _ _ _

/-- What holds of all lines that are not copied holds of those between neighbours. -/
theorem forall_unclaimed_iff {P : Nat → Prop} {es : List Entry} : (∀ line ∈ unclaimed es, P line) ↔
    es.IsChain fun a b => ∀ line, a.lastLine < line → line < b.chunkStart → P line := by
  induction es with
  | nil => simp [unclaimed]
  | cons a rest ih =>
    cases rest with
    | nil => simp [unclaimed]
    | cons b rest =>
      rw [unclaimed, List.forall_mem_append, ih, List.isChain_cons_cons]
      refine and_congr_left' (forall_congr' fun line => ?_)
      rw [List.mem_range'_1]
      exact ⟨fun h hlast hstart => h (by omega), fun h hline => h (by omega) (by omega)⟩

theorem written_brokenLines (t : Source) (lines : List Nat) :
    writtenLines (String.join (lines.map (brokenLine t))).toList = lines.flatMap t.written := by
  induction lines with
  | nil => rfl
  | cons line rest ih =>
    rw [List.map_cons, String.join_cons, String.toList_append, brokenLine, String.toList_append, List.append_assoc,
      writtenLines_newline, ih]
    rfl

theorem endsLine_brokenLines (t : Source) (lines : List Nat) :
    EndsLine t (String.join (lines.map (brokenLine t))).toList := by
  induction lines with
  | nil => exact .inl rfl
  | cons line rest ih =>
    rw [List.map_cons, String.join_cons, String.toList_append, brokenLine, String.toList_append]
    exact .append (.inr ⟨_, rfl⟩) ih

theorem written_eq_nil_iff {line : Nat} (hpos : 0 < line) (hcount : line ≤ t.lineCount) :
    t.written line = [] ↔ isBlankLine t line = true :=
  writtenLines_eq_nil_iff (Source.not_mem_lineText hpos hcount)

/-- Blank lines may be left out. -/
theorem flatMap_written_filter {lines : List Nat} (h : ∀ line ∈ lines, 0 < line ∧ line ≤ t.lineCount) :
    (lines.filter fun line => !isBlankLine t line).flatMap t.written = lines.flatMap t.written := by
  induction lines with
  | nil => rfl
  | cons line rest ih =>
    rw [List.forall_mem_cons] at h
    rw [List.filter_cons, List.flatMap_cons, ← ih h.2]
    split
    · rw [List.flatMap_cons]
    · rename_i hblank
      have hnone : t.written line = [] := (written_eq_nil_iff h.1.1 h.1.2).2 (by simpa using hblank)
      rw [hnone, List.nil_append]

/-- **The text of an entry** is what is written on its lines. -/
theorem written_chunk {e : Entry} (h : e.Proper t) :
    writtenLines (chunk t e).toList = e.claimed.flatMap t.written := by
  have hcomments : ∀ line ∈ List.range' e.chunkStart (e.firstLine - e.chunkStart), 0 < line ∧ line ≤ t.lineCount := by
    intro line hline
    rw [List.mem_range'_1] at hline
    have := h.pos
    have := h.chunkStart_le
    have := h.firstLine_le
    have := h.lastLine_le
    omega
  rw [chunk, written_brokenLines, List.flatMap_append, flatMap_written_filter hcomments, ← List.flatMap_append,
    range'_append_of_le h.chunkStart_le (Nat.le_succ_of_le h.firstLine_le), Entry.claimed]

theorem endsLine_groupTexts (t : Source) (es : List Entry) : ∀ text ∈ groupTexts t es, EndsLine t text.toList := by
  induction es with
  | nil => exact fun text htext => nomatch htext
  | cons e rest ih =>
    have hchunk : EndsLine t (chunk t e).toList := endsLine_brokenLines t _
    unfold groupTexts
    split
    · rename_i text more hmore
      rw [hmore, List.forall_mem_cons] at ih
      split
      · refine List.forall_mem_cons.2 ⟨?_, ih.2⟩
        rw [String.toList_append]
        exact hchunk.append ih.1
      · exact List.forall_mem_cons.2 ⟨hchunk, List.forall_mem_cons.2 ih⟩
    · exact List.forall_mem_cons.2 ⟨hchunk, ih⟩

/-- What is written in the block when its entries come in some order. -/
theorem written_block {queue : List Entry} (h : ∀ e ∈ queue, e.Proper t) :
    writtenLines (t.newline.intercalate (groupTexts t queue)).toList =
        (queue.flatMap Entry.claimed).flatMap t.written ∧
      EndsLine t (t.newline.intercalate (groupTexts t queue)).toList := by
  have hends : ∀ xs ∈ (groupTexts t queue).map String.toList, EndsLine t xs := by
    intro xs hxs
    obtain ⟨text, htext, rfl⟩ := List.mem_map.1 hxs
    exact endsLine_groupTexts t queue text htext
  have hchunks : ∀ xs ∈ (queue.map (chunk t)).map String.toList, EndsLine t xs := by
    intro xs hxs
    obtain ⟨text, htext, rfl⟩ := List.mem_map.1 hxs
    obtain ⟨e, -, rfl⟩ := List.mem_map.1 htext
    exact endsLine_brokenLines t _
  obtain ⟨hwritten, hend⟩ := writtenLines_intercalate hends
  rw [String.toList_intercalate]
  refine ⟨?_, hend⟩
  -- grouped or not, the texts are the same one after the other
  have hjoin := congrArg String.toList (join_groupTexts t queue)
  rw [String.toList_join, String.toList_join, List.flatMap_def, List.flatMap_def] at hjoin
  rw [hwritten, ← writtenLines_flatten hends, hjoin, writtenLines_flatten hchunks, List.flatMap_map, List.flatMap_map,
    List.flatMap_assoc]
  exact List.flatMap_congr fun e he => written_chunk (h e he)

/-! ### What is lost -/

/-- What is written on the lines that are not copied. -/
def lostLines (t : Source) (es : List Entry) : List (List Char) :=
  (unclaimed es).flatMap t.written

theorem sharesLine_of_rewrite {c : Context} {es queue : List Entry} {e : Edit} (h : rewrite c es queue = some e) :
    sharesLine es = false := by
  unfold rewrite at h
  split at h
  · split at h
    · cases h
    · exact Bool.eq_false_of_not_eq_true ‹_›
  · cases h

/-- A rewrite of the block keeps what is written on the lines of its entries, whatever their order. -/
theorem written_of_rewrite {c : Context} {es queue : List Entry} {e : Edit} (h : rewrite c es queue = some e)
    (hqueue : queue.Perm es) (hproper : ∀ x ∈ es, x.Proper c.text)
    (hchain : es.IsChain fun a b => a.lastLine < b.chunkStart) :
    (writtenLines (c.text.sliceChars e.span.start e.span.stop)).Perm
      (writtenLines e.replacement.toList ++ lostLines c.text es) := by
  obtain ⟨first, last, k, hfirst, hlast, hk, hspan, hreplacement⟩ := rewrite_cases h
  have hqueued : ∀ x ∈ queue, x.Proper c.text := fun x hx => hproper x (hqueue.mem_iff.1 hx)
  obtain ⟨hwritten, hends⟩ := written_block hqueued
  obtain ⟨hle, hperm⟩ := lines_perm hfirst hlast
    (fun x hx => Nat.le_trans (hproper x hx).chunkStart_le (hproper x hx).firstLine_le) hchain
  have hstart := (hproper first (List.mem_of_mem_head? hfirst)).pos
  have hstop := (hproper last (List.mem_of_getLast? hlast)).lastLine_le
  have hregion : writtenLines (c.text.sliceChars e.span.start e.span.stop) =
      (List.range' first.chunkStart (last.lastLine + 1 - first.chunkStart)).flatMap c.text.written := by
    have hlines := Source.writtenLines_lines hstart (k := last.lastLine - first.chunkStart)
      (by rw [Nat.add_sub_cancel' hle]; exact hstop)
    rw [Nat.add_sub_cancel' hle] at hlines
    rw [hspan, Span.between_start, Span.between_stop, Source.sliceChars_max, hlines, Nat.sub_add_comm hle]
  rw [hregion, hreplacement, hends.writtenLines_take hk, hwritten, lostLines, ← List.flatMap_append]
  exact (hperm.trans (.append_right _ (hqueue.flatMap_right _).symm)).flatMap_right _

/-- Between neighbours nothing is lost exactly when all lines there are carried. -/
theorem carried_iff {a b : Entry} (hfollows : a.Follows t b) (ha : 0 < a.lastLine) (hab : a.lastLine < b.firstLine)
    (hb : b.Proper t) :
    (∀ line, a.lastLine < line → line < b.chunkStart → t.written line = []) ↔
      ∀ line, a.lastLine < line → line < b.firstLine → isCarried t line = true := by
  have hblank (line : Nat) (hline : a.lastLine < line) (hlt : line < b.chunkStart) :
      t.written line = [] ↔ isBlankLine t line = true := by
    have := hb.chunkStart_le
    have := hb.firstLine_le
    have := hb.lastLine_le
    exact written_eq_nil_iff (by omega) (by omega)
  have hclaims := @claims_all_iff t a.lastLine (b.firstLine - 1) b.firstLine (by omega) fun k hk hlt => by omega
  rw [← hfollows] at hclaims
  calc (∀ line, a.lastLine < line → line < b.chunkStart → t.written line = [])
      ↔ ∀ line, a.lastLine < line → line < b.chunkStart → isBlankLine t line = true :=
        forall_congr' fun line => forall_congr' fun hline => forall_congr' fun hlt => hblank line hline hlt
    _ ↔ ∀ line, a.lastLine < line → line ≤ b.firstLine - 1 → isCarried t line = true := hclaims
    _ ↔ ∀ line, a.lastLine < line → line < b.firstLine → isCarried t line = true :=
        forall_congr' fun line => forall_congr' fun hline => by rw [Nat.le_sub_one_iff_lt (by omega)]

/-- **The rewrite keeps each line once, but for those that belong to no entry.** None is made up, and
none is lost exactly when between any two imports only blank lines and comments stand, none of which
has to stay at the top of a file. -/
theorem lines_of_fix {n : Node} {c : Context} {e : Edit} (h : fix n c = some e) :
    let es := entries c.text (c.options .importGrouping) n
    (writtenLines (c.text.sliceChars e.span.start e.span.stop)).Perm
        (writtenLines e.replacement.toList ++ lostLines c.text es) ∧
      ((writtenLines (c.text.sliceChars e.span.start e.span.stop)).Perm (writtenLines e.replacement.toList) ↔
        es.IsChain fun a b => ∀ line, a.lastLine < line → line < b.firstLine → isCarried c.text line = true) := by
  intro es
  rw [fix_eq_rewrite] at h
  have hproper : ∀ x ∈ es, x.Proper c.text := proper_of_mem_entriesFrom
  have hfollows : es.IsChain (Entry.Follows c.text) := isChain_entriesFrom _ _ _ none
  have happart : es.IsChain fun a b => a.lastLine < b.firstLine := isChain_of_sharesLine (sharesLine_of_rewrite h)
  rw [List.isChain_iff_forall_rel_of_append_cons_cons] at hfollows happart
  have hchain : es.IsChain fun a b => a.lastLine < b.chunkStart := by
    rw [List.isChain_iff_forall_rel_of_append_cons_cons]
    intro a b front rest hes
    rw [hfollows hes]
    exact lt_commentStart (happart hes)
  have hperm := written_of_rewrite h (sorted_perm es) hproper hchain
  refine ⟨hperm, ?_⟩
  -- nothing is lost when nothing is written on the lines that are not copied
  have hnone : (writtenLines (c.text.sliceChars e.span.start e.span.stop)).Perm (writtenLines e.replacement.toList) ↔
      lostLines c.text es = [] := by
    rw [hperm.congr_left]
    refine ⟨fun hsame => ?_, fun hlost => by rw [hlost, List.append_nil]⟩
    have hlength := hsame.length_eq
    rw [List.length_append] at hlength
    exact List.eq_nil_of_length_eq_zero (Nat.add_eq_left.1 hlength)
  rw [hnone, lostLines, List.flatMap_eq_nil_iff, forall_unclaimed_iff, List.isChain_iff_forall_rel_of_append_cons_cons,
    List.isChain_iff_forall_rel_of_append_cons_cons]
  have hcarried {a b : Entry} {front rest : List Entry} (hes : es = front ++ a :: b :: rest) :=
    carried_iff (hfollows hes)
      (Nat.lt_of_lt_of_le (hproper a (by simp [hes])).pos
        (Nat.le_trans (hproper a (by simp [hes])).chunkStart_le (hproper a (by simp [hes])).firstLine_le))
      (happart hes) (hproper b (by simp [hes]))
  exact ⟨fun hlost a b front rest hes => (hcarried hes).1 (hlost hes),
    fun hall a b front rest hes => (hcarried hes).2 (hall hes)⟩

/-- What is offered for two imports in the wrong order. Sorting does not evaluate, so the order of the
two is tested by itself. -/
theorem exists_offer {P : Finding → Edit → Bool}
    (h : ((parse .python t).toOption.bind fun p => (matchTree p [importGrouping] .default).toOption.bind fun found =>
      found.head?.bind fun f =>
        let es := entries f.context.text (f.context.options .importGrouping) f.node
        es[0]?.bind fun a => es[1]?.bind fun b => (rewrite f.context [a, b] [b, a]).filter fun edit =>
          es.length == 2 && b.before a && P f edit).isSome = true) :
    ∃ p found f edit, parse .python t = .ok p ∧ matchTree p [importGrouping] .default = .ok found ∧ f ∈ found ∧
      f.context.text = t ∧ fix f.node f.context = some edit ∧ f.offer = .ok (some edit) ∧ P f edit = true := by
  obtain ⟨edit, h⟩ := Option.isSome_iff_exists.1 h
  simp only [Option.bind_eq_some_iff, toOption_eq_some, Option.filter_eq_some_iff, Bool.and_eq_true, beq_iff_eq] at h
  obtain ⟨p, hp, found, hfound, f, hf, a, ha, b, hb, hedit, ⟨hlen, hbefore⟩, hP⟩ := h
  have hes : entries f.context.text (f.context.options .importGrouping) f.node = [a, b] := by
    obtain ⟨x, y, hes⟩ := List.length_eq_two.1 hlen
    rw [hes] at ha hb ⊢
    cases ha
    cases hb
    rfl
  have hmem : f ∈ found := List.mem_of_mem_head? hf
  obtain ⟨hrule, htext⟩ := origin_of_matchTree hfound f hmem
  have hfix : fix f.node f.context = some edit := by rw [fix_eq_rewrite, hes, sorted_swap hbefore, hedit]
  refine ⟨p, found, f, edit, hp, hfound, hmem, htext.trans (parse_text hp), hfix, ?_, hP⟩
  rw [Finding.offer, List.mem_singleton.1 hrule]
  exact congrArg Except.ok hfix

/-- A comment between two imports stays with the second one. -/
theorem lines_of_fix_commented : ∃ p found f edit,
    parse .python (.ofString "import os\n# note\n\nimport abc\n") = .ok p ∧
      matchTree p [importGrouping] .default = .ok found ∧ f ∈ found ∧ fix f.node f.context = some edit ∧
      edit.replacement = "# note\nimport abc\nimport os\n" ∧
      (writtenLines (f.context.text.sliceChars edit.span.start edit.span.stop)).Perm
        (writtenLines edit.replacement.toList) := by
  obtain ⟨p, found, f, edit, hp, hfound, hf, -, hfix, -, hedit⟩ := @exists_offer
    (.ofString "import os\n# note\n\nimport abc\n") (fun f edit =>
      edit.replacement == "# note\nimport abc\nimport os\n" &&
        (lostLines f.context.text (entries f.context.text (f.context.options .importGrouping) f.node)).isEmpty)
    (by decide +kernel)
  rw [Bool.and_eq_true, beq_iff_eq, List.isEmpty_iff] at hedit
  have hperm := (lines_of_fix hfix).1
  rw [hedit.2, List.append_nil] at hperm
  exact ⟨p, found, f, edit, hp, hfound, hf, hfix, hedit.1, hperm⟩

/-- An encoding that is declared between two imports belongs to none of them, and is lost. -/
theorem offer_loses_comment : ∃ p found f edit,
    parse .python (.ofString "import b\n# coding: utf-8\nimport a\n") = .ok p ∧
      matchTree p [importGrouping] .default = .ok found ∧ f ∈ found ∧ f.offer = .ok (some edit) ∧
      edit.replacement = "import a\nimport b\n" ∧
      ¬ (writtenLines (f.context.text.sliceChars edit.span.start edit.span.stop)).Perm
        (writtenLines edit.replacement.toList) := by
  obtain ⟨p, found, f, edit, hp, hfound, hf, -, -, hoffer, hedit⟩ := @exists_offer
    (.ofString "import b\n# coding: utf-8\nimport a\n") (fun f edit =>
      edit.replacement == "import a\nimport b\n" &&
        (writtenLines (f.context.text.sliceChars edit.span.start edit.span.stop)).length == 3)
    (by decide +kernel)
  rw [Bool.and_eq_true, beq_iff_eq, beq_iff_eq] at hedit
  refine ⟨p, found, f, edit, hp, hfound, hf, hoffer, hedit.1, fun hperm => ?_⟩
  have hlength := hperm.length_eq
  rw [hedit.2, hedit.1] at hlength
  exact absurd hlength (by decide +kernel)

end HouseStyle.ImportGrouping
