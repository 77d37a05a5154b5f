import HouseStyle.Proofs.Diff.Script
import HouseStyle.Proofs.Json.RoundTrip
import HouseStyle.Proofs.Text.Lines
import HouseStyle.Proofs.Text.Pieces

/-!
# Hunks, as they are laid out and as they are read

The hunks of two texts are parts of their script, and what lies between them are lines of both texts. A printed
difference is read line by line: the header of a hunk announces which lines of either text it covers, and up to
the next header each line says by its mark which text it belongs to.

* `Laid`: hunks that are parts of a script, with equal lines before, between and after them; `hunks_laid`:
  **so are the hunks of two texts**, with windows that are told by the lines of the script.
* `feedLines`: a text cut after each line feed. `FeedEnded`: lines that all end in one, but for the last perhaps;
  `feedLines_flatten`: **only such lines can be told apart** when they are joined.
* `header?`: the part of both texts that a header announces, `header?_headerText` for what was printed.
* `readPatch`: the hunks of a printed difference; `readPatch_unified` says what there is to read.
-/

namespace HouseStyle.Diff

section

variable {p : Pair}

/-! ### Hunks over a script -/

/-- A hunk as it is read: the part of both texts that its header announces, and the lines below. -/
structure Hunk where
  window : Window
  lines : List (List Char)
  deriving DecidableEq

/-- The hunk that is printed for some steps. -/
def hunkOf (p : Pair) (hunk : List Step) : Hunk :=
  ⟨windowOf hunk, script p hunk⟩

/-- **Hunks laid out over printed lines** that begin at the lines `i` and `j` of either text: parts of them with
nothing but equal lines before, between and after, each with the window that the lines before it and its own
make. -/
inductive Laid : Nat → Nat → List Hunk → List (List Char) → Prop
  | done {i j : Nat} {gap : List (List Char)} (context : IsContext gap) : Laid i j [] gap
  | hunk {i j : Nat} {gap tail : List (List Char)} {h : Hunk} {rest : List Hunk} (context : IsContext gap)
      (changes : h.lines ≠ []) (oldStart : h.window.oldStart = i + gap.length)
      (oldStop : h.window.oldStop = h.window.oldStart + (side '-' h.lines).length)
      (newStart : h.window.newStart = j + gap.length)
      (newStop : h.window.newStop = h.window.newStart + (side '+' h.lines).length)
      (next : Laid h.window.oldStop h.window.newStop rest tail) : Laid i j (h :: rest) (gap ++ (h.lines ++ tail))

section

variable {i j i' j' a b : Nat} {hunk steps : List Step} {hs : List Hunk} {gap printed tail : List (List Char)}

/-- More equal lines may stand before the hunks. -/
theorem Laid.prepend (hgap : IsContext gap) (h : Laid (i + gap.length) (j + gap.length) hs printed) :
    Laid i j hs (gap ++ printed) := by
  cases h with
  | done context => exact .done (hgap.append context)
  | hunk context changes oldStart oldStop newStart newStop next =>
    rw [← List.append_assoc]
    refine .hunk (hgap.append context) changes ?_ oldStop ?_ newStop next
    · rw [oldStart, List.length_append, Nat.add_assoc]
    · rw [newStart, List.length_append, Nat.add_assoc]

theorem Leads.length_side_old (h : Leads p i' j' i j steps) (hsize : i' ≤ p.old.size) :
    i' = i + (side '-' (script p steps)).length := by
  rw [h.side_old, Array.length_toList, Array.size_extract, Nat.min_eq_left hsize, Nat.add_sub_cancel' h.le.1]

theorem Leads.length_side_new (h : Leads p i' j' i j steps) (hsize : j' ≤ p.new.size) :
    j' = j + (side '+' (script p steps)).length := by
  rw [h.side_new, Array.length_toList, Array.size_extract, Nat.min_eq_left hsize, Nat.add_sub_cancel' h.le.2]

theorem Leads.getLast? (h : Leads p i' j' i j steps) (hne : steps ≠ []) :
    ∃ s, steps.getLast? = some s ∧ s.window.oldStop = i' ∧ s.window.newStop = j' := by
  induction h with
  | done => exact absurd rfl hne
  | @step i j s rest old new fits next ih =>
    cases next with
    | done => exact ⟨s, rfl, rfl, rfl⟩
    | @step s' rest' =>
      obtain ⟨last, hlast, hstops⟩ := ih (List.cons_ne_nil _ _)
      exact ⟨last, by rw [List.getLast?_cons_cons, hlast], hstops⟩

/-- The window of a hunk goes from where its steps begin to where they lead. -/
theorem Leads.windowOf_eq (h : Leads p i' j' i j hunk) (hne : hunk ≠ []) : windowOf hunk = ⟨i, i', j, j'⟩ := by
  obtain ⟨last, hlast, rfl, rfl⟩ := h.getLast? hne
  cases h with
  | done => exact absurd rfl hne
  | step old new fits next =>
    subst old new
    rw [windowOf, hlast]
    rfl

/-- Steps that lead anywhere print a line. -/
theorem Leads.script_ne_nil (h : Leads p i' j' i j steps) (hne : steps ≠ []) (hi : i' ≤ p.old.size)
    (hj : j' ≤ p.new.size) : script p steps ≠ [] := by
  intro hnil
  have hold := h.length_side_old hi
  have hnew := h.length_side_new hj
  rw [hnil] at hold hnew
  cases h with
  | done => exact hne rfl
  | step old new fits next =>
    have hmoves := fits.moves
    have hle := next.le
    dsimp only [side, List.filterMap_nil, List.length_nil] at hold hnew
    omega

/-- The hunks that are printed for groups of steps: those that change something. -/
def printedHunks (p : Pair) (groups : List (List Step)) : List Hunk :=
  (groups.filter fun hunk => hunk.any fun s => !s.isEqual).map (hunkOf p)

theorem isContext_script (h : ∀ s ∈ steps, s.isEqual = true) : IsContext (script p steps) := by
  intro l hl
  obtain ⟨s, hs, hl⟩ := List.mem_flatMap.1 hl
  rw [Step.printed, if_pos (h s hs)] at hl
  exact head?_of_mem_printedLines hl

/-- A group of steps is a hunk, or nothing but equal lines. -/
theorem Laid.group {groups : List (List Step)} (hleads : Leads p i j a b hunk) (hi : i ≤ p.old.size)
    (hj : j ≤ p.new.size) (next : Laid i j (printedHunks p groups) tail) :
    Laid a b (printedHunks p (hunk :: groups)) (script p hunk ++ tail) := by
  have hold := hleads.length_side_old hi
  have hnew := hleads.length_side_new hj
  unfold printedHunks
  by_cases hany : (hunk.any fun s => !s.isEqual) = true
  · rw [List.filter_cons, if_pos hany, List.map_cons]
    have hne : hunk ≠ [] := by
      rintro rfl
      cases hany
    have hwindow := hleads.windowOf_eq hne
    rw [← List.nil_append (script p hunk ++ tail)]
    refine .hunk .nil (hleads.script_ne_nil hne hi hj) ?_ ?_ ?_ ?_ ?_
    all_goals simp only [hunkOf, hwindow]
    · rfl
    · exact hold
    · rfl
    · exact hnew
    · exact next
  · -- a group that changes nothing is not printed: its lines lie before the next hunk
    rw [List.filter_cons, if_neg hany]
    have hcontext : IsContext (script p hunk) := by
      refine isContext_script fun s hs => ?_
      have hs := List.any_eq_false.1 (Bool.eq_false_iff.2 hany) s hs
      simpa using hs
    refine Laid.prepend hcontext ?_
    rw [hcontext.length_side] at hold hnew
    rw [← hold, ← hnew]
    exact next

/-- A long run of equal lines: the first ones, those that are left out, and the last ones. -/
theorem Step.Fits.printed_split {s : Step} (h : s.Fits p) (hsep : s.separates = true) : ∃ gap, IsContext gap ∧
    (firstLines s.window).oldStop + gap.length = (lastLines s.window).oldStart ∧
    (firstLines s.window).newStop + gap.length = (lastLines s.window).newStart ∧
    s.printed p = Step.printed p ⟨true, firstLines s.window⟩ ++ (gap ++ Step.printed p ⟨true, lastLines s.window⟩) := by
  rw [Step.separates, Bool.and_eq_true, decide_eq_true_eq] at hsep
  obtain ⟨heq, hlong⟩ := hsep
  have hlength := h.length_eq heq
  have hsize := h.oldSize
  refine ⟨printedLines ' ' p.old (firstLines s.window).oldStop (lastLines s.window).oldStart,
    isContext_printedLines, ?_, ?_, ?_⟩
  · rw [length_printedLines] <;> simp only [firstLines, lastLines, contextLines] at hlong ⊢ <;> omega
  · rw [length_printedLines] <;> simp only [firstLines, lastLines, contextLines] at hlong ⊢ <;> omega
  · rw [Step.printed, if_pos heq, Step.printed, if_pos rfl, Step.printed, if_pos rfl, printedLines_append,
      printedLines_append] <;> simp only [firstLines, lastLines, contextLines] at hlong ⊢ <;> omega

/-- **The groups of steps that lead on from those of the current hunk** are hunks laid out over their script, by
induction on the steps. -/
theorem groupsFrom_laid (htail : IsContext tail) (hi : i' ≤ p.old.size) (hj : j' ≤ p.new.size)
    (hsteps : Leads p i' j' i j steps) (hhunk : Leads p i j a b hunk) :
    Laid a b (printedHunks p (groupsFrom hunk steps)) (script p hunk ++ (script p steps ++ tail)) := by
  induction hsteps generalizing hunk a b with
  | done => exact Laid.group hhunk hi hj (.done htail)
  | @step i j s rest old new fits next ih =>
    subst old new
    rw [groupsFrom, script_cons]
    by_cases hsep : s.separates = true
    · -- the first lines of a long run end this hunk, its last ones begin the next, and a gap lies between
      rw [if_pos hsep]
      have heq : s.isEqual = true := (Bool.and_eq_true _ _ ▸ hsep).1
      obtain ⟨gap, hgap, hold, hnew, hprinted⟩ := fits.printed_split hsep
      have hfirst := fits.first heq
      have hlaid := ih (@Leads.singleton p ⟨true, lastLines s.window⟩ (fits.last heq))
      rw [script_singleton, ← hold, ← hnew] at hlaid
      have hgroup := Laid.group (hhunk.append (@Leads.singleton p ⟨true, firstLines s.window⟩ hfirst))
        hfirst.oldSize hfirst.newSize (hlaid.prepend hgap)
      rw [script_append, script_singleton] at hgroup
      simpa only [hprinted, List.append_assoc] using hgroup
    · rw [if_neg hsep]
      have hlaid := ih (hhunk.append (.singleton fits))
      rwa [script_append, script_singleton, List.append_assoc, ← List.append_assoc (s.printed p)] at hlaid

/-- The steps without equal lines far before a change: those lines are all that the script loses. -/
theorem trimStart_leads (h : Leads p i' j' i j steps) : ∃ gap, IsContext gap ∧
    Leads p i' j' (i + gap.length) (j + gap.length) (trimStart steps) ∧
    script p steps = gap ++ script p (trimStart steps) := by
  cases h with
  | done => exact ⟨[], .nil, .done, rfl⟩
  | @step _ _ s rest old new fits next =>
    obtain ⟨isEqual, w⟩ := s
    subst old new
    cases isEqual with
    | false => exact ⟨[], .nil, .step rfl rfl fits next, rfl⟩
    | true =>
      have hlength := fits.length_eq rfl
      have hold := fits.old
      have hsize := fits.oldSize
      have hnew := fits.new
      dsimp only at hlength hold hsize hnew
      refine ⟨printedLines ' ' p.old w.oldStart (lastLines w).oldStart, isContext_printedLines,
        .step ?_ ?_ (fits.last rfl) next, ?_⟩
      · rw [length_printedLines] <;> simp only [lastLines, contextLines] <;> omega
      · rw [length_printedLines] <;> simp only [lastLines, contextLines] <;> omega
      · rw [trimStart, script_cons, script_cons, ← List.append_assoc, Step.printed, if_pos rfl, Step.printed,
          if_pos rfl, printedLines_append] <;> simp only [lastLines, contextLines] <;> omega

/-- The steps without equal lines far behind a change, by induction on the steps. -/
theorem trimEnd_leads (h : Leads p i' j' i j steps) : ∃ a b tail, IsContext tail ∧ a ≤ i' ∧ b ≤ j' ∧
    Leads p a b i j (trimEnd steps) ∧ script p steps = script p (trimEnd steps) ++ tail := by
  fun_induction trimEnd steps generalizing i j with
  | case1 =>
    cases h
    exact ⟨_, _, [], .nil, Nat.le_refl _, Nat.le_refl _, .done, rfl⟩
  | case2 w =>
    cases h with
    | step old new fits next =>
      cases next
      have hlength := fits.length_eq rfl
      have hold := fits.old
      have hsize := fits.oldSize
      have hnew := fits.new
      dsimp only at old new hlength hold hsize hnew
      refine ⟨_, _, printedLines ' ' p.old (firstLines w).oldStop w.oldStop, isContext_printedLines, ?_, ?_,
        .step old new (fits.first rfl) .done, ?_⟩
      · exact Nat.min_le_left _ _
      · exact Nat.min_le_left _ _
      · rw [script_singleton, script_singleton, Step.printed, if_pos rfl, Step.printed, if_pos rfl,
          printedLines_append] <;> simp only [firstLines, contextLines] <;> omega
  | case3 s rest _ ih =>
    cases h with
    | step old new fits next =>
      obtain ⟨a, b, tail, htail, ha, hb, hleads, hscript⟩ := ih next
      refine ⟨a, b, tail, htail, ha, hb, .step old new fits hleads, ?_⟩
      rw [script_cons, script_cons, hscript, List.append_assoc]

end

/-- **The hunks of two texts are laid out over their script**: nothing but equal lines is left out. -/
theorem hunks_laid (hp : p.Sound) : Laid 0 0 ((hunks (steps p)).map (hunkOf p)) (script p (steps p)) := by
  obtain ⟨gap, hgap, hstart, hscript⟩ := trimStart_leads (steps_leads hp)
  obtain ⟨a, b, tail, htail, ha, hb, hleads, hscript'⟩ := trimEnd_leads hstart
  have hlaid := groupsFrom_laid htail ha hb hleads .done
  rw [hscript, hscript']
  exact hlaid.prepend hgap

end

/-! ### Lines -/

/-- The lines of a text, each with the line feed that ends it. -/
def feedLines : List Char → List (List Char)
  | [] => []
  | c :: rest =>
    if c = '\n' then [c] :: feedLines rest
    else
      match feedLines rest with
      | line :: more => (c :: line) :: more
      | [] => [[c]]

/-- A line that ends in its only line feed. -/
def IsWhole (line : List Char) : Prop :=
  ∃ text, '\n' ∉ text ∧ line = text ++ ['\n']

/-- **Lines that each end in a line feed**, but for the last one perhaps. -/
inductive FeedEnded : List (List Char) → Prop
  | nil : FeedEnded []
  | last {line : List Char} (ne : line ≠ []) (noFeed : '\n' ∉ line) : FeedEnded [line]
  | cons {line : List Char} {rest : List (List Char)} (whole : IsWhole line) (next : FeedEnded rest) :
      FeedEnded (line :: rest)

section

variable {line text rest xs ys : List Char} {lines before after : List (List Char)}

theorem IsWhole.feed_mem (h : IsWhole line) : '\n' ∈ line := by
  obtain ⟨text, -, rfl⟩ := h
  exact List.mem_append_right _ (List.mem_singleton.2 rfl)

theorem feedLines_whole (h : '\n' ∉ text) : feedLines (text ++ '\n' :: rest) = (text ++ ['\n']) :: feedLines rest := by
  induction text with
  | nil => rfl
  | cons c text ih =>
    rw [List.mem_cons, not_or] at h
    rw [List.cons_append, feedLines, if_neg (Ne.symm h.1), ih h.2]
    rfl

/-- The first line begins with the first character. -/
theorem feedLines_cons (c : Char) (rest : List Char) : ∃ line more, feedLines (c :: rest) = (c :: line) :: more := by
  rw [feedLines]
  split
  · exact ⟨[], _, rfl⟩
  · split
    · exact ⟨_, _, rfl⟩
    · exact ⟨[], [], rfl⟩

/-- A line without a line feed runs together with what follows. -/
theorem feedLines_open_append (hne : line ≠ []) (h : '\n' ∉ line) (hrest : rest ≠ []) :
    ∃ z more, z ≠ [] ∧ feedLines (line ++ rest) = (line ++ z) :: more := by
  induction line with
  | nil => exact absurd rfl hne
  | cons c line ih =>
    rw [List.mem_cons, not_or] at h
    rw [List.cons_append, feedLines, if_neg (Ne.symm h.1)]
    cases line with
    | nil =>
      obtain ⟨d, rest, rfl⟩ := List.exists_cons_of_ne_nil hrest
      obtain ⟨z, more, hlines⟩ := feedLines_cons d rest
      rw [List.nil_append, hlines]
      exact ⟨d :: z, more, List.cons_ne_nil _ _, rfl⟩
    | cons d line =>
      obtain ⟨z, more, hz, hlines⟩ := ih (List.cons_ne_nil _ _) h.2
      rw [hlines]
      exact ⟨z, more, hz, rfl⟩

theorem feedLines_of_notMem (hne : line ≠ []) (h : '\n' ∉ line) : feedLines line = [line] := by
  induction line with
  | nil => exact absurd rfl hne
  | cons c line ih =>
    rw [List.mem_cons, not_or] at h
    rw [feedLines, if_neg (Ne.symm h.1)]
    cases line with
    | nil => rfl
    | cons d line => rw [ih (List.cons_ne_nil _ _) h.2]

theorem feedLines_flatten_append (h : ∀ l ∈ lines, IsWhole l) :
    feedLines (lines.flatten ++ rest) = lines ++ feedLines rest := by
  induction lines with
  | nil => rfl
  | cons line lines ih =>
    obtain ⟨⟨text, htext, rfl⟩, hlines⟩ := List.forall_mem_cons.1 h
    rw [List.flatten_cons, List.append_assoc, List.append_assoc, List.singleton_append, feedLines_whole htext,
      ih hlines, List.cons_append]

/-- **Lines that end in line feeds come back** after they are joined. -/
theorem feedLines_flatten (h : FeedEnded lines) : feedLines lines.flatten = lines := by
  induction h with
  | nil => rfl
  | last ne noFeed => rw [List.flatten_singleton, feedLines_of_notMem ne noFeed]
  | cons whole next ih =>
    obtain ⟨text, htext, rfl⟩ := whole
    rw [List.flatten_cons, List.append_assoc, List.singleton_append, feedLines_whole htext, ih]

/-- A text is cut apart behind each line feed. -/
theorem feedLines_append (xs ys : List Char) :
    feedLines (xs ++ '\n' :: ys) = feedLines (xs ++ ['\n']) ++ feedLines ys := by
  induction xs with
  | nil => rfl
  | cons c xs ih =>
    rw [List.cons_append, List.cons_append, feedLines, feedLines, ih]
    split
    · rfl
    · cases hlines : feedLines (xs ++ ['\n']) with
      | cons line more => rfl
      | nil =>
        cases xs with
        | nil => cases hlines
        | cons d xs =>
          obtain ⟨line, more, hcons⟩ := feedLines_cons d (xs ++ ['\n'])
          rw [List.cons_append, hcons] at hlines
          cases hlines

theorem feedEnded_cons_iff : FeedEnded (line :: lines) ↔
    FeedEnded lines ∧ (IsWhole line ∨ lines = [] ∧ line ≠ [] ∧ '\n' ∉ line) := by
  constructor
  · intro h
    cases h with
    | last ne noFeed => exact ⟨.nil, .inr ⟨rfl, ne, noFeed⟩⟩
    | cons whole next => exact ⟨next, .inl whole⟩
  · rintro ⟨h, hwhole | ⟨rfl, hne, hfeed⟩⟩
    · exact .cons hwhole h
    · exact .last hne hfeed

theorem FeedEnded.append (hbefore : ∀ l ∈ before, IsWhole l) (h : FeedEnded after) : FeedEnded (before ++ after) := by
  induction before with
  | nil => exact h
  | cons line before ih =>
    obtain ⟨hline, hbefore⟩ := List.forall_mem_cons.1 hbefore
    exact .cons hline (ih hbefore)

theorem FeedEnded.right (h : FeedEnded (before ++ after)) : FeedEnded after := by
  induction before with
  | nil => exact h
  | cons line before ih => exact ih (feedEnded_cons_iff.1 h).1

/-- Lines that others follow end in line feeds. -/
theorem FeedEnded.whole (h : FeedEnded (before ++ after)) (hne : after ≠ []) : ∀ l ∈ before, IsWhole l := by
  induction before with
  | nil => exact List.forall_mem_nil _
  | cons line before ih =>
    obtain ⟨hnext, hline⟩ := feedEnded_cons_iff.1 h
    refine List.forall_mem_cons.2 ⟨hline.resolve_right fun hlast => ?_, ih hnext⟩
    exact hne (List.append_eq_nil_iff.1 hlast.1).2

theorem FeedEnded.left (h : FeedEnded (before ++ after)) : FeedEnded before := by
  cases after with
  | nil => rwa [List.append_nil] at h
  | cons line after => simpa using FeedEnded.append (h.whole (List.cons_ne_nil _ _)) .nil

/-- Nothing follows a line without a line feed. -/
theorem FeedEnded.eq_nil (h : FeedEnded (before ++ line :: after)) (hline : '\n' ∉ line) : after = [] := by
  rcases (feedEnded_cons_iff.1 h.right).2 with hwhole | ⟨hnil, -⟩
  · exact absurd hwhole.feed_mem hline
  · exact hnil

/-- A line that has no line feed but at its end. -/
def IsLine (line : List Char) : Prop :=
  IsWhole line ∨ line ≠ [] ∧ '\n' ∉ line

theorem FeedEnded.isLine (h : FeedEnded lines) : ∀ l ∈ lines, IsLine l := by
  induction h with
  | nil => exact List.forall_mem_nil _
  | last ne noFeed => exact List.forall_mem_singleton.2 (.inr ⟨ne, noFeed⟩)
  | cons whole next ih => exact List.forall_mem_cons.2 ⟨.inl whole, ih⟩

theorem IsLine.ne_nil (h : IsLine line) : line ≠ [] := by
  rcases h with ⟨text, -, rfl⟩ | ⟨hne, -⟩
  · exact List.append_ne_nil_of_right_ne_nil _ (List.cons_ne_nil _ _)
  · exact hne

/-- A line behind a mark. -/
theorem IsLine.cons {c : Char} (h : IsLine line) (hc : c ≠ '\n') : IsLine (c :: line) := by
  rcases h with ⟨text, htext, rfl⟩ | ⟨-, hfeed⟩
  · exact .inl ⟨c :: text, by simp [Ne.symm hc, htext], rfl⟩
  · exact .inr ⟨List.cons_ne_nil _ _, by simp [Ne.symm hc, hfeed]⟩

/-- Lines that do not all end in line feeds: others follow the first one that does not. -/
theorem exists_open_line (hlines : ∀ l ∈ lines, IsLine l) (h : ¬ FeedEnded lines) : ∃ before line after,
    lines = before ++ line :: after ∧ (∀ l ∈ before, IsWhole l) ∧ line ≠ [] ∧ '\n' ∉ line ∧ after ≠ [] := by
  induction lines with
  | nil => exact absurd .nil h
  | cons line lines ih =>
    obtain ⟨hline, hlines⟩ := List.forall_mem_cons.1 hlines
    rcases hline with hwhole | ⟨hne, hfeed⟩
    · obtain ⟨before, l, after, rfl, hbefore, hl⟩ := ih hlines fun hnext => h (.cons hwhole hnext)
      exact ⟨line :: before, l, after, rfl, List.forall_mem_cons.2 ⟨hwhole, hbefore⟩, hl⟩
    · refine ⟨[], line, lines, rfl, List.forall_mem_nil _, hne, hfeed, ?_⟩
      rintro rfl
      exact h (.last hne hfeed)

end

/-- No line of a text ends in another break than a line feed. -/
def OnlyFeeds (s : String) : Prop :=
  ∀ c ∈ s.toList, isLineBreak c = true → c = '\n'

instance (s : String) : Decidable (OnlyFeeds s) :=
  List.decidableBAll (fun c => isLineBreak c = true → c = '\n') s.toList

theorem feedEnded_splitLinesFrom {line cs : List Char} (hline : '\n' ∉ line)
    (h : ∀ c ∈ cs, isLineBreak c = true → c = '\n') : FeedEnded (splitLinesFrom line cs) := by
  fun_induction splitLinesFrom line cs with
  | case1 => exact .nil
  | case2 line hne =>
    exact .last (by simpa using hne) (by simpa using hline)
  | case3 line rest ih => exact absurd (h '\r' List.mem_cons_self (by decide)) (by decide)
  | case4 line c rest _ hbreak ih =>
    obtain ⟨hc, h⟩ := List.forall_mem_cons.1 h
    refine .cons ⟨line.reverse, by simpa using hline, ?_⟩ (ih List.not_mem_nil h)
    rw [hc hbreak, List.reverse_cons]
  | case5 line c rest _ hbreak ih =>
    obtain ⟨hc, h⟩ := List.forall_mem_cons.1 h
    refine ih (fun hmem => ?_) h
    rcases List.mem_cons.1 hmem with rfl | hmem
    · exact hbreak (by decide)
    · exact hline hmem

/-- Where lines end in line feeds only, so do those that are compared. -/
theorem OnlyFeeds.feedEnded {s : String} (h : OnlyFeeds s) : FeedEnded ((linesOf s).map String.toList) := by
  rw [linesOf, List.map_map, show String.toList ∘ String.ofList = id from funext fun _ => String.toList_ofList,
    List.map_id]
  exact feedEnded_splitLinesFrom List.not_mem_nil h

/-! ### Headers -/

/-- The number that a text begins with, and what follows it. -/
def numberFrom (cs : List Char) : Nat × List Char :=
  (Json.natural (cs.takeWhile Char.isDigit), cs.dropWhile Char.isDigit)

/-- The lines that a header names, as the places of the first one and of the one behind them, and what follows:
a number of a line, and how many lines there are unless it is one. A range without lines is named by the line
before it. -/
def rangeFrom (cs : List Char) : (Nat × Nat) × List Char :=
  let (first, rest) := numberFrom cs
  match rest with
  | ',' :: more =>
    let (size, rest) := numberFrom more
    if size = 0 then ((first, first), rest) else ((first - 1, first - 1 + size), rest)
  | _ => ((first - 1, first), rest)

/-- The part of both texts that a header announces. -/
def header? : List Char → Option Window
  | '@' :: '@' :: ' ' :: '-' :: cs =>
    match rangeFrom cs with
    | (old, ' ' :: '+' :: cs) =>
      match rangeFrom cs with
      | (new, [' ', '@', '@', '\n']) => some ⟨old.1, old.2, new.1, new.2⟩
      | _ => none
    | _ => none
  | _ => none

theorem numberFrom_toDigits (n : Nat) {rest : List Char} (h : ∀ c ∈ rest.head?, c.isDigit = false) :
    numberFrom (Nat.toDigits 10 n ++ rest) = (n, rest) := by
  have hdigits := Json.isDigit_toDigits n
  rw [numberFrom, List.takeWhile_append_of_pos hdigits, List.dropWhile_append_of_pos hdigits]
  cases rest with
  | nil => simp [Json.natural_toDigits]
  | cons c rest =>
    have hc : ¬ c.isDigit = true := by simp [h c rfl]
    rw [List.takeWhile_cons_of_neg hc, List.dropWhile_cons_of_neg hc, List.append_nil, Json.natural_toDigits]

theorem toList_nat (n : Nat) : (toString n).toList = Nat.toDigits 10 n :=
  String.toList_ofList

/-- **A range is read as it was named.** -/
theorem rangeFrom_rangeText {start stop : Nat} (h : start ≤ stop) (rest : List Char) :
    rangeFrom ((rangeText start stop).toList ++ ' ' :: rest) = ((start, stop), ' ' :: rest) := by
  have hspace : ∀ c ∈ (' ' :: rest).head?, c.isDigit = false := by simp
  have hcomma (n m : Nat) : rangeFrom (Nat.toDigits 10 n ++ ',' :: (Nat.toDigits 10 m ++ ' ' :: rest)) =
      if m = 0 then ((n, n), ' ' :: rest) else ((n - 1, n - 1 + m), ' ' :: rest) := by
    simp only [rangeFrom, numberFrom_toDigits n (show ∀ c ∈ (',' :: _).head?, c.isDigit = false by simp),
      numberFrom_toDigits m hspace]
  unfold rangeText
  split_ifs with hone hempty
  · obtain rfl : stop = start + 1 := by omega
    rw [toList_nat, rangeFrom, numberFrom_toDigits _ hspace]
    rfl
  · obtain rfl : stop = start := Nat.le_antisymm hempty h
    have htext : (s!"{stop},0").toList ++ ' ' :: rest =
        Nat.toDigits 10 stop ++ ',' :: (Nat.toDigits 10 0 ++ ' ' :: rest) := by
      rw [String.toList_append, toList_nat, List.append_assoc]
      rfl
    rw [htext, hcomma, if_pos rfl]
  · have htext : (s!"{start + 1},{stop - start}").toList ++ ' ' :: rest =
        Nat.toDigits 10 (start + 1) ++ ',' :: (Nat.toDigits 10 (stop - start) ++ ' ' :: rest) := by
      rw [String.toList_append, String.toList_append, toList_nat, toList_nat, List.append_assoc, List.append_assoc]
      rfl
    have hstop : start + (stop - start) = stop := Nat.add_sub_cancel' h
    rw [htext, hcomma, if_neg (by omega), Nat.add_sub_cancel, hstop]

theorem toList_headerText (w : Window) : (headerText w).toList = '@' :: '@' :: ' ' :: '-' ::
    ((rangeText w.oldStart w.oldStop).toList ++
      ' ' :: '+' :: ((rangeText w.newStart w.newStop).toList ++ ' ' :: ['@', '@', '\n'])) := by
  simp only [headerText, String.toList_append, List.append_assoc]
  rfl

theorem head?_headerText (w : Window) : (headerText w).toList.head? = some '@' := by
  rw [toList_headerText, List.head?_cons]

theorem oneLine_rangeText (start stop : Nat) : OneLine (rangeText start stop) := by
  unfold rangeText
  split_ifs
  · exact oneLine_nat _
  · exact oneLine_append.2 ⟨oneLine_nat _, by decide⟩
  · exact oneLine_append.2 ⟨oneLine_append.2 ⟨oneLine_nat _, by decide⟩, oneLine_nat _⟩

/-- A header is a line of its own. -/
theorem isWhole_headerText (w : Window) : IsWhole (headerText w).toList := by
  refine ⟨'@' :: '@' :: ' ' :: '-' :: ((rangeText w.oldStart w.oldStop).toList ++
    ' ' :: '+' :: ((rangeText w.newStart w.newStop).toList ++ [' ', '@', '@'])), ?_, ?_⟩
  · have hold := oneLine_rangeText w.oldStart w.oldStop
    have hnew := oneLine_rangeText w.newStart w.newStop
    simp only [OneLine] at hold hnew
    simp [hold, hnew]
  · rw [toList_headerText]
    simp

/-- **A header is read as it was printed.** -/
theorem header?_headerText {w : Window} (hold : w.oldStart ≤ w.oldStop) (hnew : w.newStart ≤ w.newStop) :
    header? (headerText w).toList = some w := by
  simp only [toList_headerText, header?, rangeFrom_rangeText hold, rangeFrom_rangeText hnew]

/-! ### Hunks in a text -/

/-- What is read from the end of a printed difference on: the lines of a hunk that has yet to begin, and the hunks
below. A line that begins with an at sign is a header. -/
def sections : List (List Char) → Option (List (List Char) × List Hunk)
  | [] => some ([], [])
  | line :: rest =>
    (sections rest).bind fun (body, hunks) =>
      if line.head? = some '@' then (header? line).map fun window => ([], ⟨window, body⟩ :: hunks)
      else some (line :: body, hunks)

/-- The hunks that are read off some lines; nothing may stand before the first header. -/
def readHunks (lines : List (List Char)) : Option (List Hunk) :=
  (sections lines).bind fun (body, hunks) => if body = [] then some hunks else none

/-- The lines above the hunks, which name the file. -/
def fileHeader (path : String) : String :=
  s!"--- a/{path}\n+++ b/{path}\n"

/-- **The hunks of a printed difference**, read line by line below the lines that name the file. -/
def readPatch (path diff : String) : Option (List Hunk) :=
  readHunks ((feedLines diff.toList).drop (feedLines (fileHeader path).toList).length)

/-- The header and the lines of a hunk, as they are printed. -/
def Hunk.printed (h : Hunk) : List (List Char) :=
  (headerText h.window).toList :: h.lines

section

variable {xs ys : List (List Char)} {body : List (List Char)} {hs : List Hunk}

/-- Lines without a header belong to the hunk above them. -/
theorem sections_lines (hmarks : ∀ l ∈ xs, l.head? ≠ some '@') (h : sections ys = some (body, hs)) :
    sections (xs ++ ys) = some (xs ++ body, hs) := by
  induction xs with
  | nil => exact h
  | cons line xs ih =>
    obtain ⟨hline, hmarks⟩ := List.forall_mem_cons.1 hmarks
    rw [List.cons_append, sections, ih hmarks, Option.bind_some]
    exact if_neg hline

theorem sections_header {w : Window} (hold : w.oldStart ≤ w.oldStop) (hnew : w.newStart ≤ w.newStop)
    (h : sections ys = some (body, hs)) :
    sections ((headerText w).toList :: ys) = some ([], ⟨w, body⟩ :: hs) := by
  rw [sections, h, Option.bind_some, header?_headerText hold hnew]
  exact if_pos (head?_headerText w)

theorem sections_cons {line : List Char} (hline : line.head? ≠ some '@') (h : sections (line :: ys) = some (body, hs)) :
    ∃ more, body = line :: more := by
  rw [sections, Option.bind_eq_some_iff] at h
  obtain ⟨⟨more, hunks⟩, -, h⟩ := h
  dsimp only at h
  rw [if_neg hline] at h
  cases h
  exact ⟨more, rfl⟩

/-- What cannot be read is not made readable by what stands above it. -/
theorem sections_append_none (h : sections ys = none) : sections (xs ++ ys) = none := by
  induction xs with
  | nil => exact h
  | cons line xs ih => rw [List.cons_append, sections, ih, Option.bind_none]

/-- A hunk whose header can be read and whose lines are none. -/
structure Hunk.Readable (h : Hunk) : Prop where
  old : h.window.oldStart ≤ h.window.oldStop
  new : h.window.newStart ≤ h.window.newStop
  marks : ∀ l ∈ h.lines, l.head? ≠ some '@'

/-- **Hunks are read as they were printed**, by induction on them. -/
theorem sections_printed (hhs : ∀ h ∈ hs, h.Readable) {more : List Hunk} (h : sections ys = some ([], more)) :
    sections (hs.flatMap Hunk.printed ++ ys) = some ([], hs ++ more) := by
  induction hs with
  | nil => exact h
  | cons hunk hs ih =>
    obtain ⟨hhunk, hhs⟩ := List.forall_mem_cons.1 hhs
    have hlines := sections_lines hhunk.marks (ih hhs)
    rw [List.append_nil] at hlines
    rw [List.flatMap_cons, List.append_assoc, Hunk.printed, List.cons_append,
      sections_header hhunk.old hhunk.new hlines]
    rfl

/-- Below the first lines of a hunk, the line that comes next belongs to it, whatever it is, if only it is no
header. -/
theorem mem_of_readHunks {before : List Hunk} {hunk : Hunk} {lines more : List (List Char)} {l : List Char}
    (hbefore : ∀ h ∈ before, h.Readable) (hhunk : hunk.Readable) (hlines : hunk.lines = lines ++ more)
    (hl : l.head? ≠ some '@')
    (h : readHunks (before.flatMap Hunk.printed ++ (headerText hunk.window).toList :: lines ++ l :: ys) = some hs) :
    ∃ more', ⟨hunk.window, lines ++ l :: more'⟩ ∈ hs := by
  rw [readHunks, Option.bind_eq_some_iff] at h
  obtain ⟨⟨body, hunks⟩, hsections, hbody⟩ := h
  have hmarks := hhunk.marks
  rw [hlines, List.forall_mem_append] at hmarks
  cases hbelow : sections (l :: ys) with
  | none =>
    rw [sections_append_none hbelow] at hsections
    cases hsections
  | some found =>
    obtain ⟨body', hunks'⟩ := found
    obtain ⟨more', rfl⟩ := sections_cons hl hbelow
    have hread := sections_printed hbefore (sections_header hhunk.old hhunk.new (sections_lines hmarks.1 hbelow))
    rw [List.append_assoc, List.cons_append, hread] at hsections
    cases hsections
    cases hbody
    exact ⟨more', List.mem_append_right _ List.mem_cons_self⟩

end

/-! ### What is printed -/

theorem toList_marked {mark : String} (c : Char) (h : mark.toList = [c]) (lines : Array String) (start stop : Nat) :
    (marked mark lines start stop).toList = (printedLines c lines start stop).flatten := by
  rw [marked, printedLines, String.toList_join, ← List.flatMap_def, List.flatMap_map]
  refine List.flatMap_congr fun line _ => ?_
  rw [String.toList_append, h, List.singleton_append]

theorem toList_stepText (p : Pair) (s : Step) : (stepText p s).toList = (s.printed p).flatten := by
  simp only [stepText, Step.printed]
  split
  · exact toList_marked ' ' rfl _ _ _
  · rw [String.toList_append, List.flatten_append, toList_marked '-' rfl, toList_marked '+' rfl]

/-- Texts that are lines each are joined to what their lines are joined to. -/
theorem toList_join_map {α : Type} {text : α → String} {lines : α → List (List Char)}
    (h : ∀ a, (text a).toList = (lines a).flatten) (as : List α) :
    (String.join (as.map text)).toList = (as.flatMap lines).flatten := by
  rw [String.toList_join, List.flatMap_map, List.flatten_eq_flatMap, List.flatMap_assoc]
  refine List.flatMap_congr fun a _ => ?_
  rw [h, List.flatten_eq_flatMap]

theorem toList_hunkText (p : Pair) (hunk : List Step) :
    (hunkText p hunk).toList = (hunkOf p hunk).printed.flatten := by
  rw [hunkText, String.toList_append, toList_join_map (toList_stepText p), Hunk.printed, List.flatten_cons]
  rfl

/-- The file is named by lines of their own. -/
theorem feedLines_fileHeader (path : String) (rest : List Char) : feedLines ((fileHeader path).toList ++ rest) =
    feedLines (fileHeader path).toList ++ feedLines rest := by
  have hfeed : (fileHeader path).toList = (s!"--- a/{path}\n+++ b/{path}").toList ++ ['\n'] := by
    simp only [fileHeader, String.toList_append, List.append_assoc]
    rfl
  rw [hfeed, List.append_assoc, List.singleton_append, feedLines_append]

/-- The script that turns one text into another. -/
def scriptOf (old new : String) : List (List Char) :=
  let p := Pair.ofLines (linesOf old) (linesOf new)
  script p (steps p)

/-- The hunks that are printed for two texts. -/
def hunksOf (old new : String) : List Hunk :=
  let p := Pair.ofLines (linesOf old) (linesOf new)
  (hunks (steps p)).map (hunkOf p)

/-- **What there is to read of a printed difference**: the lines of its hunks, joined. -/
theorem readPatch_unified (path old new : String) : readPatch path (unified path old new) =
    readHunks (feedLines ((hunksOf old new).flatMap Hunk.printed).flatten) := by
  unfold readPatch unified hunksOf
  dsimp only
  split
  · rename_i hnone
    rw [hnone]
    exact congrArg readHunks List.drop_nil
  · rw [String.toList_append, toList_join_map (toList_hunkText _), List.flatMap_map]
    exact congrArg readHunks (by rw [← fileHeader, feedLines_fileHeader, List.drop_left])

end HouseStyle.Diff
