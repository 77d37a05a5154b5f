import HouseStyle.Diff.Unified
import Mathlib.Data.List.Chain

/-!
# The script that leads from one text to another

However the longest block is searched for, what is found is a run of equal lines that lies in the part of both
texts that was searched. The blocks before and after it lie before and after it in both, so all blocks follow
one another without crossing. The steps over them and over what lies between, printed line by line with nothing
left out, are a script: each line of either text stands in it once, behind a mark that says whose it is.

* `Pair.Sound`: lines are only looked for at places where they stand; `sound_ofLines`.
* `Block.In`: a block of equal lines in a part of both texts; `longest_in` for the one that is found there.
* `Chained`: blocks that follow one another in both texts; `blocks_chained`: **so do the blocks of two texts.**
* `script`: the printed lines of some steps; `side` reads the lines of one of the texts off printed lines.
* `Leads`: steps that go from one place of both texts to another; `steps_leads` for all steps, `Leads.side_old`
  and `Leads.side_new` for the texts that their script tells.
* `Ordered`: in a script lines are taken out before others are put in; `script_ordered`.
-/

namespace HouseStyle.Diff

variable {p : Pair} {s : Step}

section

variable {w : Window} {b : Block}

/-! ### Equal lines -/

theorem Pair.agree_iff {i j : Nat} : p.agree i j = true ↔ ∃ line, p.old[i]? = some line ∧ p.new[j]? = some line := by
  unfold Pair.agree
  cases p.old[i]? with
  | none => simp
  | some a =>
    cases p.new[j]? with
    | none => simp
    | some b => simpa [beq_iff_eq] using eq_comm

/-- The places that are looked at for a line hold that line. -/
def Pair.Sound (p : Pair) : Prop :=
  ∀ i j, j ∈ p.places[i]?.getD [] → p.agree i j = true

theorem getElem?_of_mem_placesOf {new : Array String} {line : String} {j : Nat} (h : j ∈ placesOf new line) :
    new[j]? = some line := by
  unfold placesOf at h
  split at h
  · exact absurd h List.not_mem_nil
  · exact beq_iff_eq.1 (List.mem_filter.1 h).2

theorem sound_ofLines (old new : List String) : (Pair.ofLines old new).Sound := by
  intro i j h
  rw [Pair.agree_iff]
  simp only [Pair.ofLines, List.getElem?_toArray, List.getElem?_map] at h ⊢
  cases hline : old[i]? with
  | none =>
    rw [hline] at h
    exact absurd h List.not_mem_nil
  | some line =>
    rw [hline] at h
    have hnew := getElem?_of_mem_placesOf h
    rw [List.getElem?_toArray] at hnew
    exact ⟨line, rfl, hnew⟩

/-- A block of equal lines in a part of both texts. -/
structure Block.In (p : Pair) (w : Window) (b : Block) : Prop where
  oldStart : w.oldStart ≤ b.old
  oldStop : b.old + b.size ≤ w.oldStop
  newStart : w.newStart ≤ b.new
  newStop : b.new + b.size ≤ w.newStop
  agree : ∀ k < b.size, p.agree (b.old + k) (b.new + k) = true

/-! ### The longest block -/

/-- A block of so many lines ends right before a line of either text. -/
def EndsAt (p : Pair) (w : Window) (i j size : Nat) : Prop :=
  ∃ a b, a + size = i ∧ b + size = j ∧ Block.In p w ⟨a, b, size⟩

theorem EndsAt.empty {i j : Nat} (hi : w.oldStart ≤ i) (hi' : i ≤ w.oldStop) (hj : w.newStart ≤ j)
    (hj' : j ≤ w.newStop) : EndsAt p w i j 0 :=
  ⟨i, j, rfl, rfl, hi, hi', hj, hj', fun _ h => absurd h (Nat.not_lt_zero _)⟩

/-- A block may go on over two lines that are equal. -/
theorem EndsAt.extend {i j size : Nat} (h : EndsAt p w i j size) (hi : i < w.oldStop) (hj : j < w.newStop)
    (hagree : p.agree i j = true) : EndsAt p w (i + 1) (j + 1) (size + 1) := by
  obtain ⟨a, b, rfl, rfl, hin⟩ := h
  refine ⟨a, b, rfl, rfl, hin.oldStart, hi, hin.newStart, hj, fun k hk => ?_⟩
  rcases Nat.lt_or_eq_of_le (Nat.le_of_lt_succ hk) with hk | rfl
  · exact hin.agree k hk
  · exact hagree

/-- What a row says of the line before `i`: the blocks that end there. -/
def RowEnds (p : Pair) (w : Window) (i : Nat) (row : Row) : Prop :=
  ∀ e ∈ row, EndsAt p w i (e.1 + 1) e.2

theorem lengthBefore_ends {row : Row} {i j : Nat} (hrow : RowEnds p w i row) (hi : w.oldStart ≤ i)
    (hi' : i ≤ w.oldStop) (hj : w.newStart ≤ j) (hj' : j ≤ w.newStop) :
    EndsAt p w i j (lengthBefore row j) := by
  cases j with
  | zero => exact .empty hi hi' hj hj'
  | succ j =>
    rw [lengthBefore]
    cases hfind : row.find? fun e => e.1 == j with
    | none => exact .empty hi hi' hj hj'
    | some e =>
      have hends := hrow e (List.mem_of_find?_eq_some hfind)
      have hplace := List.find?_some hfind
      rwa [beq_iff_eq.1 hplace] at hends

/-- A line of the old text: its row tells the blocks that end in it, and the longest block so far is one. -/
theorem extendRow_in {previous : Row} {i : Nat} (hrow : RowEnds p w i previous) (hi : w.oldStart ≤ i)
    (hi' : i < w.oldStop) {js : List Nat}
    (hjs : ∀ j ∈ js, w.newStart ≤ j ∧ j < w.newStop ∧ p.agree i j = true) {best : Block} (hbest : best.In p w) :
    RowEnds p w (i + 1) (extendRow previous i js best).1 ∧ (extendRow previous i js best).2.In p w := by
  induction js generalizing best with
  | nil => exact ⟨List.forall_mem_nil _, hbest⟩
  | cons j js ih =>
    obtain ⟨⟨hj, hj', hagree⟩, hjs⟩ := List.forall_mem_cons.1 hjs
    have hends := (lengthBefore_ends hrow hi (Nat.le_of_lt hi') hj (Nat.le_of_lt hj')).extend hi' hj' hagree
    rw [extendRow]
    by_cases hlonger : best.size < lengthBefore previous j + 1
    · -- the block that ends here begins as many lines before in either text
      have hin : Block.In p w ⟨i + 1 - (lengthBefore previous j + 1), j + 1 - (lengthBefore previous j + 1),
          lengthBefore previous j + 1⟩ := by
        obtain ⟨a, b, ha, hb, hin⟩ := hends
        rwa [← ha, ← hb, Nat.add_sub_cancel, Nat.add_sub_cancel]
      rw [if_pos hlonger]
      exact ⟨List.forall_mem_cons.2 ⟨hends, (ih hjs hin).1⟩, (ih hjs hin).2⟩
    · rw [if_neg hlonger]
      exact ⟨List.forall_mem_cons.2 ⟨hends, (ih hjs hbest).1⟩, (ih hjs hbest).2⟩

theorem longestFrom_in (hp : p.Sound) {count i : Nat} {previous : Row} {best : Block} (hi : w.oldStart ≤ i)
    (hstop : i + count ≤ w.oldStop) (hrow : RowEnds p w i previous) (hbest : best.In p w) :
    (longestFrom p w previous (List.range' i count) best).In p w := by
  induction count generalizing i previous best with
  | zero => exact hbest
  | succ count ih =>
    rw [List.range'_succ, longestFrom]
    have hjs : ∀ j ∈ (p.places[i]?.getD []).filter fun j => decide (w.newStart ≤ j) && decide (j < w.newStop),
        w.newStart ≤ j ∧ j < w.newStop ∧ p.agree i j = true := by
      intro j hj
      obtain ⟨hplace, hwindow⟩ := List.mem_filter.1 hj
      rw [Bool.and_eq_true, decide_eq_true_eq, decide_eq_true_eq] at hwindow
      exact ⟨hwindow.1, hwindow.2, hp i j hplace⟩
    obtain ⟨hnext, hbest⟩ := extendRow_in hrow hi (by omega) hjs hbest
    exact ih (by omega) (by omega) hnext hbest

theorem growBack_in {i j size : Nat} (h : Block.In p w ⟨i, j, size⟩) : (growBack p w i j size).In p w := by
  fun_induction growBack p w i j size with
  | case1 i j size hgrow ih =>
    refine ih ⟨Nat.le_of_lt_succ hgrow.1, ?_, Nat.le_of_lt_succ hgrow.2.1, ?_, fun k hk => ?_⟩
    · have := h.oldStop
      dsimp only at this ⊢
      omega
    · have := h.newStop
      dsimp only at this ⊢
      omega
    · cases k with
      | zero => exact hgrow.2.2
      | succ k =>
        have hagree := h.agree k (Nat.lt_of_succ_lt_succ hk)
        dsimp only at hagree ⊢
        rwa [Nat.succ_add_eq_add_succ, Nat.succ_add_eq_add_succ] at hagree
  | case2 => exact h
  | case3 => exact h

theorem growForward_in {limit : Nat} (h : b.In p w) : (growForward p w limit b).In p w := by
  fun_induction growForward p w limit b with
  | case1 => exact h
  | case2 limit b hgrow ih =>
    refine ih ⟨h.oldStart, hgrow.1, h.newStart, hgrow.2.1, fun k hk => ?_⟩
    rcases Nat.lt_or_eq_of_le (Nat.le_of_lt_succ hk) with hk | rfl
    · exact h.agree k hk
    · exact hgrow.2.2
  | case3 => exact h

/-- **The longest block in a part of both texts** is a block of equal lines there. -/
theorem longest_in (hp : p.Sound) (hold : w.oldStart ≤ w.oldStop) (hnew : w.newStart ≤ w.newStop) :
    (longest p w).In p w := by
  have hempty : Block.In p w ⟨w.oldStart, w.newStart, 0⟩ :=
    ⟨Nat.le_refl _, hold, Nat.le_refl _, hnew, fun _ h => absurd h (Nat.not_lt_zero _)⟩
  exact growForward_in (growBack_in (longestFrom_in hp (Nat.le_refl _) (by omega) (List.forall_mem_nil _) hempty))

/-! ### All blocks -/

/-- **Blocks of equal lines that follow one another in both texts**, from the lines `i` and `j` up to the lines
`oldStop` and `newStop`. -/
inductive Chained (p : Pair) (oldStop newStop : Nat) : Nat → Nat → List Block → Prop
  | nil {i j : Nat} (old : i ≤ oldStop) (new : j ≤ newStop) : Chained p oldStop newStop i j []
  | cons {i j : Nat} {b : Block} {rest : List Block} (old : i ≤ b.old) (new : j ≤ b.new) (pos : 0 < b.size)
      (agree : ∀ k < b.size, p.agree (b.old + k) (b.new + k) = true)
      (next : Chained p oldStop newStop (b.old + b.size) (b.new + b.size) rest) :
      Chained p oldStop newStop i j (b :: rest)

section

variable {oldStop newStop oldMid newMid i j i' j' : Nat} {bs cs : List Block}

theorem Chained.le (h : Chained p oldStop newStop i j bs) : i ≤ oldStop ∧ j ≤ newStop := by
  induction h with
  | nil old new => exact ⟨old, new⟩
  | cons old new pos agree next ih => omega

theorem Chained.mono (h : Chained p oldStop newStop i j bs) (hi : i' ≤ i) (hj : j' ≤ j) :
    Chained p oldStop newStop i' j' bs := by
  cases h with
  | nil old new => exact .nil (Nat.le_trans hi old) (Nat.le_trans hj new)
  | cons old new pos agree next => exact .cons (Nat.le_trans hi old) (Nat.le_trans hj new) pos agree next

theorem Chained.append (h : Chained p oldMid newMid i j bs) (h' : Chained p oldStop newStop oldMid newMid cs) :
    Chained p oldStop newStop i j (bs ++ cs) := by
  induction h with
  | nil old new => exact h'.mono old new
  | cons old new pos agree next ih => exact .cons old new pos agree ih

/-- Blocks that touch go on as one. -/
theorem Chained.join (h : Chained p oldStop newStop i j bs) : Chained p oldStop newStop i j (join bs) := by
  induction h with
  | nil old new => exact .nil old new
  | @cons i j b rest old new pos agree next ih =>
    rw [Diff.join]
    split
    · rename_i following more hjoin
      rw [hjoin] at ih
      by_cases htouch : b.old + b.size = following.old ∧ b.new + b.size = following.new
      · rw [if_pos htouch]
        cases ih with
        | cons old' new' pos' agree' next' =>
          refine .cons old new (Nat.add_pos_left pos _) (fun k hk => ?_) ?_
          · -- a line of both blocks is one of the first or, counted from its end, of the second
            by_cases hfirst : k < b.size
            · exact agree k hfirst
            · obtain ⟨m, rfl⟩ := Nat.exists_eq_add_of_le (Nat.le_of_not_lt hfirst)
              dsimp only at hk
              have hagree := agree' m (by omega)
              rwa [← htouch.1, ← htouch.2, Nat.add_assoc, Nat.add_assoc] at hagree
          · dsimp only
            rwa [← Nat.add_assoc, ← Nat.add_assoc, htouch.1, htouch.2]
      · rw [if_neg htouch]
        exact .cons old new pos agree ih
    · rename_i hjoin
      rw [hjoin] at ih
      exact .cons old new pos agree (.nil ih.le.1 ih.le.2)

end

/-- The blocks in a part of both texts follow one another there, by induction on the bound. -/
theorem blocksIn_chained (hp : p.Sound) (limit : Nat) (hold : w.oldStart ≤ w.oldStop) (hnew : w.newStart ≤ w.newStop) :
    Chained p w.oldStop w.newStop w.oldStart w.newStart (blocksIn p limit w) := by
  induction limit generalizing w with
  | zero => exact .nil hold hnew
  | succ limit ih =>
    rw [blocksIn]
    have hlongest := longest_in hp hold hnew
    have hold' := hlongest.oldStart
    have hnew' := hlongest.newStart
    by_cases hempty : (longest p w).size = 0
    · rw [if_pos hempty]
      exact .nil hold hnew
    rw [if_neg hempty]
    refine .append ?_ (.cons (Nat.le_refl _) (Nat.le_refl _) (Nat.pos_of_ne_zero hempty) hlongest.agree ?_)
    · split
      · exact @ih { w with oldStop := (longest p w).old, newStop := (longest p w).new } hold' hnew'
      · exact .nil hold' hnew'
    · split
      · exact @ih { w with oldStart := _, newStart := _ } hlongest.oldStop hlongest.newStop
      · exact .nil hlongest.oldStop hlongest.newStop

/-- **The blocks of two texts** are runs of equal lines that follow one another in both. -/
theorem blocks_chained (hp : p.Sound) : Chained p p.old.size p.new.size 0 0 (blocks p) :=
  (@blocksIn_chained p ⟨0, p.old.size, 0, p.new.size⟩ hp p.old.size (Nat.zero_le _) (Nat.zero_le _)).join

end

/-! ### Printed lines -/

/-- Some lines of a text as they are printed: each behind a mark. -/
def printedLines (mark : Char) (lines : Array String) (start stop : Nat) : List (List Char) :=
  (lines.extract start stop).toList.map fun line => mark :: line.toList

/-- The lines of a step as they are printed. -/
def Step.printed (p : Pair) (s : Step) : List (List Char) :=
  if s.isEqual then printedLines ' ' p.old s.window.oldStart s.window.oldStop
  else printedLines '-' p.old s.window.oldStart s.window.oldStop ++
    printedLines '+' p.new s.window.newStart s.window.newStop

/-- **The script of some steps**: all their lines as they are printed. -/
def script (p : Pair) (steps : List Step) : List (List Char) :=
  steps.flatMap (Step.printed p)

theorem script_cons (s : Step) (steps : List Step) : script p (s :: steps) = s.printed p ++ script p steps :=
  List.flatMap_cons

theorem script_append (steps steps' : List Step) : script p (steps ++ steps') = script p steps ++ script p steps' :=
  List.flatMap_append

theorem script_singleton (s : Step) : script p [s] = s.printed p :=
  List.flatMap_singleton _ _

theorem printedLines_append {mark : Char} {lines : Array String} {a b c : Nat} (hab : a ≤ b) (hbc : b ≤ c) :
    printedLines mark lines a b ++ printedLines mark lines b c = printedLines mark lines a c := by
  simp only [printedLines, ← List.map_append, ← Array.toList_append, Array.extract_append_extract,
    Nat.min_eq_left hab, Nat.max_eq_right hbc]

theorem head?_of_mem_printedLines {mark : Char} {lines : Array String} {a b : Nat} {l : List Char}
    (h : l ∈ printedLines mark lines a b) : l.head? = some mark := by
  obtain ⟨line, -, rfl⟩ := List.mem_map.1 h
  rfl

theorem length_printedLines {mark : Char} {lines : Array String} {a b : Nat} (h : b ≤ lines.size) :
    (printedLines mark lines a b).length = b - a := by
  rw [printedLines, List.length_map, Array.length_toList, Array.size_extract, Nat.min_eq_left h]

/-! ### Sides -/

/-- The line that a printed line tells of the text with a mark, if it tells one: a line of both texts, or one
behind that mark. -/
def lineOf? (mark : Char) : List Char → Option String
  | c :: line => if c = ' ' ∨ c = mark then some (String.ofList line) else none
  | [] => none

/-- The lines of one of the texts among printed lines: those that begin with a space or with its mark, without
it. -/
def side (mark : Char) (printed : List (List Char)) : List String :=
  printed.filterMap (lineOf? mark)

section

variable {mark c : Char} {lines : Array String} {a b : Nat} {xs ys : List (List Char)}

theorem side_append : side mark (xs ++ ys) = side mark xs ++ side mark ys :=
  List.filterMap_append

theorem side_printedLines (h : c = ' ' ∨ c = mark) :
    side mark (printedLines c lines a b) = (lines.extract a b).toList := by
  rw [side, printedLines, List.filterMap_map]
  refine Eq.trans (List.filterMap_congr fun line _ => ?_) List.filterMap_some
  rw [Function.comp_apply, lineOf?, if_pos h, String.ofList_toList]

theorem side_printedLines_other (hspace : c ≠ ' ') (hmark : c ≠ mark) : side mark (printedLines c lines a b) = [] := by
  rw [side, printedLines, List.filterMap_map, List.filterMap_eq_nil_iff]
  intro line _
  rw [Function.comp_apply, lineOf?, if_neg (not_or.2 ⟨hspace, hmark⟩)]

/-- Printed lines of both texts. -/
def IsContext (xs : List (List Char)) : Prop :=
  ∀ l ∈ xs, l.head? = some ' '

theorem IsContext.nil : IsContext [] :=
  List.forall_mem_nil _

theorem IsContext.append (hx : IsContext xs) (hy : IsContext ys) : IsContext (xs ++ ys) :=
  List.forall_mem_append.2 ⟨hx, hy⟩

theorem isContext_printedLines : IsContext (printedLines ' ' lines a b) :=
  fun _ h => head?_of_mem_printedLines h

theorem IsContext.side_eq (h : IsContext xs) (mark : Char) : side mark xs = xs.map fun l => String.ofList l.tail := by
  rw [side, ← List.filterMap_eq_map]
  refine List.filterMap_congr fun l hl => ?_
  obtain ⟨line, rfl⟩ := List.head?_eq_some_iff.1 (h l hl)
  rw [lineOf?, if_pos (.inl rfl)]
  rfl

theorem IsContext.length_side (h : IsContext xs) (mark : Char) : (side mark xs).length = xs.length := by
  rw [h.side_eq, List.length_map]

end

/-! ### Steps -/

/-- A step over lines that are there, at least one of either text, and equal if it says so. -/
structure Step.Fits (p : Pair) (s : Step) : Prop where
  old : s.window.oldStart ≤ s.window.oldStop
  oldSize : s.window.oldStop ≤ p.old.size
  new : s.window.newStart ≤ s.window.newStop
  newSize : s.window.newStop ≤ p.new.size
  moves : s.window.oldStart < s.window.oldStop ∨ s.window.newStart < s.window.newStop
  same : s.isEqual = true → p.old.extract s.window.oldStart s.window.oldStop =
    p.new.extract s.window.newStart s.window.newStop

namespace Step.Fits

theorem side_old (_ : s.Fits p) : side '-' (s.printed p) = (p.old.extract s.window.oldStart s.window.oldStop).toList := by
  unfold Step.printed
  split
  · exact side_printedLines (.inl rfl)
  · rw [side_append, side_printedLines (.inr rfl), side_printedLines_other (by decide) (by decide), List.append_nil]

theorem side_new (h : s.Fits p) : side '+' (s.printed p) = (p.new.extract s.window.newStart s.window.newStop).toList := by
  unfold Step.printed
  split
  · rename_i heq
    rw [side_printedLines (.inl rfl), h.same heq]
  · rw [side_append, side_printedLines (.inr rfl), side_printedLines_other (by decide) (by decide), List.nil_append]

/-- Equal lines are as many in the one text as in the other. -/
theorem length_eq (h : s.Fits p) (heq : s.isEqual = true) :
    s.window.oldStop - s.window.oldStart = s.window.newStop - s.window.newStart := by
  have hsize := congrArg Array.size (h.same heq)
  rwa [Array.size_extract, Array.size_extract, Nat.min_eq_left h.oldSize, Nat.min_eq_left h.newSize] at hsize

/-- Some of the lines of a step over equal lines. -/
theorem part (h : s.Fits p) (heq : s.isEqual = true) {w : Window} (hstart : s.window.oldStart ≤ w.oldStart)
    (hlt : w.oldStart < w.oldStop) (hstop : w.oldStop ≤ s.window.oldStop)
    (hnewStart : w.newStart + s.window.oldStart = s.window.newStart + w.oldStart)
    (hnewStop : w.newStop + s.window.oldStart = s.window.newStart + w.oldStop) : Step.Fits p ⟨true, w⟩ := by
  have hlength := h.length_eq heq
  have hold := h.oldSize
  have hnew := h.newSize
  refine ⟨Nat.le_of_lt hlt, Nat.le_trans hstop hold, ?_, ?_, .inl hlt, fun _ => ?_⟩ <;> dsimp only
  · omega
  · omega
  · have hpart := congrArg (·.extract (w.oldStart - s.window.oldStart) (w.oldStop - s.window.oldStart)) (h.same heq)
    simp only [Array.extract_extract] at hpart
    rwa [Nat.min_eq_left (by omega), Nat.min_eq_left (by omega), Nat.add_sub_cancel' hstart,
      Nat.add_sub_cancel' (by omega), show s.window.newStart + (w.oldStart - s.window.oldStart) = w.newStart by omega,
      show s.window.newStart + (w.oldStop - s.window.oldStart) = w.newStop by omega] at hpart

/-- The first lines of a run of equal lines are such a run. -/
theorem first (h : s.Fits p) (heq : s.isEqual = true) : Step.Fits p ⟨true, firstLines s.window⟩ := by
  have hlength := h.length_eq heq
  have hmoves := h.moves
  have hnew := h.new
  apply h.part heq <;> simp only [firstLines, contextLines] <;> omega

/-- So are the last ones. -/
theorem last (h : s.Fits p) (heq : s.isEqual = true) : Step.Fits p ⟨true, lastLines s.window⟩ := by
  have hlength := h.length_eq heq
  have hmoves := h.moves
  have hold := h.old
  have hnew := h.new
  apply h.part heq <;> simp only [lastLines, contextLines] <;> omega

end Step.Fits

/-- **Steps that lead from the lines `i` and `j` to the lines `i'` and `j'`**, each from where the one before it
ends. -/
inductive Leads (p : Pair) (i' j' : Nat) : Nat → Nat → List Step → Prop
  | done : Leads p i' j' i' j' []
  | step {i j : Nat} {s : Step} {rest : List Step} (old : s.window.oldStart = i) (new : s.window.newStart = j)
      (fits : s.Fits p) (next : Leads p i' j' s.window.oldStop s.window.newStop rest) : Leads p i' j' i j (s :: rest)

section

variable {i j i' j' oldMid newMid : Nat} {steps steps' : List Step}

theorem Leads.le (h : Leads p i' j' i j steps) : i ≤ i' ∧ j ≤ j' := by
  induction h with
  | done => exact ⟨Nat.le_refl _, Nat.le_refl _⟩
  | step old new fits next ih =>
    have hold := fits.old
    have hnew := fits.new
    omega

theorem Leads.append (h : Leads p oldMid newMid i j steps) (h' : Leads p i' j' oldMid newMid steps') :
    Leads p i' j' i j (steps ++ steps') := by
  induction h with
  | done => exact h'
  | step old new fits next ih => exact .step old new fits ih

theorem Leads.singleton (h : s.Fits p) :
    Leads p s.window.oldStop s.window.newStop s.window.oldStart s.window.newStart [s] :=
  .step rfl rfl h .done

/-- The script of steps tells the lines of the old text that they lead over. -/
theorem Leads.side_old (h : Leads p i' j' i j steps) : side '-' (script p steps) = (p.old.extract i i').toList := by
  induction h with
  | done => rw [Array.extract_empty_of_stop_le_start (Nat.le_refl _)]; rfl
  | step old new fits next ih =>
    subst old
    rw [script_cons, side_append, fits.side_old, ih, ← Array.toList_append, Array.extract_append_extract,
      Nat.min_eq_left fits.old, Nat.max_eq_right next.le.1]

/-- And those of the new one. -/
theorem Leads.side_new (h : Leads p i' j' i j steps) : side '+' (script p steps) = (p.new.extract j j').toList := by
  induction h with
  | done => rw [Array.extract_empty_of_stop_le_start (Nat.le_refl _)]; rfl
  | step old new fits next ih =>
    subst new
    rw [script_cons, side_append, fits.side_new, ih, ← Array.toList_append, Array.extract_append_extract,
      Nat.min_eq_left fits.new, Nat.max_eq_right next.le.2]

end

/-- Lines that agree one by one are the same part of both texts. -/
theorem extract_eq_of_agree {i j size : Nat} (h : ∀ k < size, p.agree (i + k) (j + k) = true) :
    p.old.extract i (i + size) = p.new.extract j (j + size) := by
  refine Array.ext_getElem? fun k => ?_
  rw [Array.getElem?_extract, Array.getElem?_extract]
  by_cases hk : k < size
  · obtain ⟨line, hold, hnew⟩ := Pair.agree_iff.1 (h k hk)
    have hi := (Array.getElem?_eq_some_iff.1 hold).1
    have hj := (Array.getElem?_eq_some_iff.1 hnew).1
    rw [if_pos (by omega), if_pos (by omega), hold, hnew]
  · rw [if_neg (by omega), if_neg (by omega)]

/-- The step over a block. -/
def Block.step (b : Block) : Step :=
  ⟨true, b.old, b.old + b.size, b.new, b.new + b.size⟩

theorem Block.step_fits {b : Block} (hpos : 0 < b.size) (hold : b.old + b.size ≤ p.old.size)
    (hnew : b.new + b.size ≤ p.new.size) (hagree : ∀ k < b.size, p.agree (b.old + k) (b.new + k) = true) :
    b.step.Fits p :=
  ⟨Nat.le_add_right _ _, hold, Nat.le_add_right _ _, hnew, .inl (Nat.lt_add_of_pos_right hpos),
    fun _ => extract_eq_of_agree hagree⟩

/-- The steps over blocks that follow one another, and over what lies between them, lead to the end of both
texts. -/
theorem stepsFrom_leads {i j : Nat} {bs : List Block} (h : Chained p p.old.size p.new.size i j bs) :
    Leads p p.old.size p.new.size i j (stepsFrom p i j bs) := by
  induction h with
  | @nil i j old new =>
    rw [stepsFrom]
    split
    · rename_i hmoves
      exact .step rfl rfl ⟨old, Nat.le_refl _, new, Nat.le_refl _, hmoves, fun heq => nomatch heq⟩ .done
    · rename_i hdone
      obtain rfl : i = p.old.size := by omega
      obtain rfl : j = p.new.size := by omega
      exact .done
  | @cons i j b rest old new pos agree next ih =>
    rw [stepsFrom]
    have hnext := next.le
    have hblock : Leads p p.old.size p.new.size b.old b.new
        (b.step :: stepsFrom p (b.old + b.size) (b.new + b.size) rest) :=
      .step rfl rfl (Block.step_fits pos hnext.1 hnext.2 agree) ih
    refine Leads.append ?_ hblock
    split
    · rename_i hmoves
      exact .singleton (s := ⟨false, i, b.old, j, b.new⟩)
        ⟨old, by dsimp only; omega, new, by dsimp only; omega, hmoves, fun heq => nomatch heq⟩
    · rename_i hdone
      obtain rfl : i = b.old := by omega
      obtain rfl : j = b.new := by omega
      exact .done

theorem steps_leads (hp : p.Sound) : Leads p p.old.size p.new.size 0 0 (steps p) :=
  stepsFrom_leads (blocks_chained hp)

/-! ### Order in a script -/

/-- Lines are taken out before others are put in their place. -/
def Ordered (printed : List (List Char)) : Prop :=
  printed.IsChain fun a b => a.head? = some '+' → b.head? ≠ some '-'

theorem ordered_printedLines {mark : Char} {lines : Array String} {a b : Nat} :
    Ordered (printedLines mark lines a b) := by
  refine List.Pairwise.isChain (List.pairwise_of_forall_mem_list fun x hx y hy => ?_)
  rw [head?_of_mem_printedLines hx, head?_of_mem_printedLines hy]
  intro hin hout
  rw [hin] at hout
  cases hout

/-- Printed lines may follow others behind a line that is not put in, or before one that is not taken out. -/
theorem Ordered.append {xs ys : List (List Char)} (hx : Ordered xs) (hy : Ordered ys)
    (h : (∀ l ∈ xs.getLast?, l.head? ≠ some '+') ∨ ∀ l ∈ ys.head?, l.head? ≠ some '-') : Ordered (xs ++ ys) := by
  refine List.isChain_append.2 ⟨hx, hy, fun a ha b hb hin => ?_⟩
  rcases h with h | h
  · exact absurd hin (h a ha)
  · exact h b hb

theorem ordered_printed (s : Step) : Ordered (s.printed p) := by
  unfold Step.printed
  split
  · exact ordered_printedLines
  · refine ordered_printedLines.append ordered_printedLines (.inl fun l hl => ?_)
    rw [head?_of_mem_printedLines (List.mem_of_getLast? hl)]
    decide

/-- The lines that are put in by a step are followed by equal ones, if by any. -/
theorem stepsFrom_ordered {i j : Nat} {bs : List Block} (h : Chained p p.old.size p.new.size i j bs) :
    Ordered (script p (stepsFrom p i j bs)) := by
  induction h with
  | @nil i j old new =>
    rw [stepsFrom]
    split
    · rw [script_singleton]
      exact ordered_printed _
    · exact List.isChain_nil
  | @cons i j b rest old new pos agree next ih =>
    rw [stepsFrom]
    have hbounds := next.le
    have hprinted : b.step.printed p = printedLines ' ' p.old b.old (b.old + b.size) := rfl
    have hne : b.step.printed p ≠ [] := by
      refine List.ne_nil_of_length_pos ?_
      rw [hprinted, length_printedLines hbounds.1]
      omega
    have hcontext {l : List Char} (hl : l ∈ b.step.printed p) : l.head? = some ' ' :=
      head?_of_mem_printedLines hl
    have hblock : Ordered (b.step.printed p ++ script p (stepsFrom p (b.old + b.size) (b.new + b.size) rest)) := by
      refine (ordered_printed _).append ih (.inl fun l hl => ?_)
      rw [hcontext (List.mem_of_getLast? hl)]
      decide
    have hgap (gap : List Step) (hgap : Ordered (script p gap)) :
        Ordered (script p (gap ++ b.step :: stepsFrom p (b.old + b.size) (b.new + b.size) rest)) := by
      rw [script_append, script_cons]
      refine hgap.append hblock (.inr fun l hl => ?_)
      rw [List.head?_append_of_ne_nil _ hne] at hl
      rw [hcontext (List.mem_of_head? hl)]
      decide
    refine hgap _ ?_
    split
    · rw [script_singleton]
      exact ordered_printed _
    · exact List.isChain_nil

theorem script_ordered (hp : p.Sound) : Ordered (script p (steps p)) :=
  stepsFrom_ordered (blocks_chained hp)

end HouseStyle.Diff
