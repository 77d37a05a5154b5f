import HouseStyle.Python.Module
import HouseStyle.Proofs.Text.Breaks
import HouseStyle.Proofs.Tree.Relocation
import Mathlib.Data.List.Basic
import Mathlib.Order.Monotone.Defs

/-!
# Offsets of the grammar and of the text

The grammar counts lines at carriage returns as well, and does not count a byte-order mark. In a
module without either, an offset of the tokens is the offset of the text.

* `counted`, `placed`: the characters that the grammar counts, and where their offsets are looked up.
* `placeOf_eq`: **no offset of the tokens is lost** where carriage returns stand before line feeds.
* `placed_mono`: offsets keep their order.
* `not_cutsBreak_placed`, `feed_of_placed`: line breaks at the places of offsets.
* `relocate_moved`: nodes that end inside of the text are moved to the places of their ends.
* `parse_marked`, `parse_loneReturn`: what a mark and a carriage return do.
-/

namespace HouseStyle.Python

variable {t : Source}

/-! ### Lines and columns -/

/-- Whether the grammar and the text count lines and columns alike. -/
def countsAlike (t : Source) : Bool :=
  t.chars.toList.head? != some byteOrderMark && returnsPaired t.chars.toList

/-- The characters that the grammar counts: all but a byte-order mark. -/
def counted (t : Source) : List Char :=
  if t.chars.toList.head? = some byteOrderMark then t.chars.toList.tail else t.chars.toList

/-- Where an offset of the tokens is looked up: a mark is left out of account in the first line only. -/
def placed (t : Source) (i : Nat) : Nat :=
  if '\n' ∈ (counted t).take i then t.size - (counted t).length + i else i

/-- What stands before the characters that are counted. -/
theorem counted_shape (t : Source) :
    ∃ mark, (mark = [] ∨ mark = [byteOrderMark]) ∧ t.chars.toList = mark ++ counted t := by
  unfold counted
  split
  · rename_i hmark
    obtain ⟨rest, hrest⟩ := List.head?_eq_some_iff.1 hmark
    exact ⟨[byteOrderMark], .inr rfl, by rw [hrest]; rfl⟩
  · exact ⟨[], .inl rfl, rfl⟩

theorem placed_eq {mark : List Char} (h : t.chars.toList = mark ++ counted t) (i : Nat) :
    placed t i = if '\n' ∈ (counted t).take i then mark.length + i else i := by
  have hlength := congrArg List.length h
  rw [List.length_append, Array.length_toList] at hlength
  rw [placed, Source.size, hlength, Nat.add_sub_cancel]

/-- Offsets keep their order. -/
theorem placed_mono (t : Source) : Monotone (placed t) := by
  intro i j h
  unfold placed
  by_cases hi : '\n' ∈ (counted t).take i
  · rw [if_pos hi, if_pos ((List.take_prefix_take_left h).subset hi)]
    omega
  · rw [if_neg hi]
    split <;> omega

theorem counted_of_alike (h : countsAlike t = true) : counted t = t.chars.toList := by
  rw [countsAlike, Bool.and_eq_true, bne_iff_ne] at h
  rw [counted, if_neg h.1]

theorem placed_of_alike (h : countsAlike t = true) (i : Nat) : placed t i = i := by
  rw [@placed_eq t [] (counted_of_alike h).symm, List.length_nil, Nat.zero_add, ite_self]

/-- After a line feed the next line begins. -/
theorem drop_lines {starts more : List Nat} {line offset : Nat} (h : starts.drop (line + 1) = offset :: more) :
    starts[line + 1]? = some offset ∧ starts.drop (line + 1 + 1) = more := by
  constructor
  · rw [← List.head?_drop, h, List.head?_cons]
  · rw [← List.drop_drop, h, List.drop_one, List.tail_cons]

/-- Lines and columns of the grammar point into the text. By induction along the lines: the line at
hand begins at `first`, and the lines to come begin where a count from `offset` on says. -/
theorem lineColumns_place {starts : List Nat} (cs : List Char) {offset line column first : Nat}
    (hpaired : returnsPaired cs = true) (hline : starts[line]? = some first)
    (hnext : starts.drop (line + 1) = startsAfterBreaks offset cs) (i : Nat) {l c : Nat}
    (h : (lineColumns line column cs)[i]? = some (l, c)) :
    (starts[l]?).map (· + c) = some (if '\n' ∈ cs.take i then offset + i else first + column + i) := by
  have hhere : (starts[line]?).map (· + column) = some (first + column) := by rw [hline, Option.map_some]
  fun_induction lineColumns line column cs generalizing offset first i with
  | case1 line column =>
    cases i with
    | zero =>
      cases h
      exact hhere
    | succ i => cases h
  | case2 line column rest ih =>
    simp only [startsAfterBreaks, Char.reduceEq, if_true, if_false] at hnext
    simp only [returnsPaired, Bool.and_eq_true] at hpaired
    obtain ⟨hline', hnext'⟩ := drop_lines hnext
    rcases i with _ | _ | i
    · cases h
      exact hhere
    · cases h
      rw [hline, Option.map_some, List.take_succ_cons, List.take_zero, if_neg (by decide), Nat.add_assoc]
    · rw [ih hpaired.2.2 hline' hnext' i h (by rw [hline', Option.map_some])]
      rw [if_pos (show '\n' ∈ ('\r' :: '\n' :: rest).take (i + 2) from
        List.mem_cons_of_mem _ List.mem_cons_self), Nat.add_zero, ite_self]
      congr 1
      omega
  | case3 line column c' rest hnot ihbreak ihgo =>
    simp only [returnsPaired, Bool.and_eq_true, Bool.or_eq_true, bne_iff_ne, beq_iff_eq] at hpaired
    -- a return that ends a line by itself is ruled out
    have hreturn : c' ≠ '\r' := by
      rintro rfl
      obtain ⟨hne | hhead, -⟩ := hpaired
      · exact hne rfl
      · cases rest with
        | nil => cases hhead
        | cons d rest =>
          cases hhead
          exact hnot rest rfl rfl
    cases i with
    | zero =>
      cases h
      exact hhere
    | succ i =>
      rw [List.getElem?_cons_succ] at h
      unfold startsAfterBreaks at hnext
      by_cases hbreak : c' = '\n'
      · rw [if_pos (.inl hbreak)] at h
        rw [if_pos hbreak] at hnext
        obtain ⟨hline', hnext'⟩ := drop_lines hnext
        rw [ihbreak hpaired.2 hline' hnext' i h (by rw [hline', Option.map_some]),
          if_pos (show '\n' ∈ (c' :: rest).take (i + 1) from hbreak ▸ List.mem_cons_self), Nat.add_zero, ite_self]
        congr 1
        omega
      · rw [if_neg (by simp [hbreak, hreturn])] at h
        rw [if_neg hbreak] at hnext
        rw [ihgo hpaired.2 hline hnext i h (by rw [hline, Option.map_some]), List.take_succ_cons]
        simp only [List.mem_cons, Ne.symm hbreak, false_or]
        congr 1
        split <;> omega

/-- Every offset has a line and a column, the end of the text included. -/
theorem length_lineColumns (line column : Nat) (cs : List Char) :
    (lineColumns line column cs).length = cs.length + 1 := by
  fun_induction lineColumns line column cs with
  | case1 => rfl
  | case2 line column rest ih => simp only [List.length_cons, ih]
  | case3 line column c rest hnot ihbreak ihgo =>
    rw [List.length_cons, List.length_cons]
    split
    · rw [ihbreak]
    · rw [ihgo]

/-- A byte-order mark ends no line. -/
theorem startsAfterBreaks_mark {mark : List Char} (hmark : mark = [] ∨ mark = [byteOrderMark]) (cs : List Char) :
    startsAfterBreaks 0 (mark ++ cs) = startsAfterBreaks mark.length cs := by
  rcases hmark with rfl | rfl
  · rfl
  · rw [List.singleton_append, startsAfterBreaks, if_neg (by decide)]
    rfl

/-- **Where an offset of the tokens is looked up**, when no carriage return ends a line by itself. -/
theorem placeOf_eq (h : returnsPaired t.chars.toList = true) (i : Nat) :
    placeOf t (lineColumns 0 0 (counted t)).toArray i = if i ≤ (counted t).length then some (placed t i) else none := by
  obtain ⟨mark, hmark, hchars⟩ := counted_shape t
  have hlines : t.lineStarts.toList = 0 :: startsAfterBreaks mark.length (counted t) := by
    rw [t.lineStarts_eq, hchars, startsAfterBreaks_mark hmark]
  rw [hchars] at h
  have hlength := length_lineColumns 0 0 (counted t)
  unfold placeOf
  rw [List.getElem?_toArray]
  split
  · rename_i hle
    obtain ⟨⟨l, c⟩, hcolumn⟩ : ∃ place, (lineColumns 0 0 (counted t))[i]? = some place :=
      ⟨_, List.getElem?_eq_getElem (by omega)⟩
    have hplace : (t.lineStarts.toList[l]?).map (· + c) = some (if '\n' ∈ (counted t).take i then mark.length + i
        else 0 + 0 + i) :=
      lineColumns_place (counted t) (returnsPaired_right h) (by rw [hlines]; rfl) (by rw [hlines]; rfl) i hcolumn
    rw [Array.getElem?_toList, Nat.zero_add, ← placed_eq hchars] at hplace
    simp only [hcolumn, Option.bind_some, Source.offset?, Source.lineStart?, Nat.add_sub_cancel, hplace]
  · rw [List.getElem?_eq_none (by omega), Option.bind_none]

/-! ### Breaks at the places of offsets -/

/-- The length of a byte-order mark in front of the characters that are counted. -/
def markLength (t : Source) : Nat :=
  t.size - (counted t).length

theorem markLength_eq {mark : List Char} (h : t.chars.toList = mark ++ counted t) : markLength t = mark.length := by
  have hlength := congrArg List.length h
  rw [List.length_append, Array.length_toList] at hlength
  rw [markLength, Source.size, hlength, Nat.add_sub_cancel]

theorem getElem?_counted (t : Source) (j : Nat) : t.chars[markLength t + j]? = (counted t)[j]? := by
  obtain ⟨mark, -, hchars⟩ := counted_shape t
  rw [markLength_eq hchars, ← Array.getElem?_toList, hchars, List.getElem?_append_right (Nat.le_add_right _ _),
    Nat.add_sub_cancel_left]

/-- An offset is looked up behind the mark, or in the first line, where it is one too low. -/
theorem placed_cases (t : Source) (i : Nat) : placed t i = markLength t + i ∨
    placed t i = i ∧ markLength t = 1 ∧ ∀ j ≤ i, t.chars[j]? ≠ some '\n' := by
  obtain ⟨mark, hmark, hchars⟩ := counted_shape t
  have hlength := markLength_eq hchars
  rw [placed_eq hchars, hlength]
  split
  · exact .inl rfl
  · rename_i hline
    rcases hmark with rfl | rfl
    · exact .inl (Nat.zero_add i).symm
    · refine .inr ⟨rfl, rfl, fun j hj hfeed => ?_⟩
      cases j with
      | zero =>
        rw [← Array.getElem?_toList, hchars] at hfeed
        cases hfeed
      | succ j =>
        have hcounted := getElem?_counted t j
        rw [hlength, List.length_singleton, Nat.add_comm, hfeed] at hcounted
        refine hline (List.mem_iff_getElem?.2 ⟨j, ?_⟩)
        rw [List.getElem?_take_of_lt hj]
        exact hcounted.symm

/-- No break is cut at the place of a character that is no line feed. -/
theorem not_cutsBreak_placed {i : Nat} (h : (counted t)[i]? ≠ some '\n') : ¬ t.CutsBreak (placed t i) := by
  refine Source.not_cutsBreak_of_next ?_
  rcases placed_cases t i with hplaced | ⟨hplaced, -, hline⟩
  · rwa [hplaced, getElem?_counted]
  · rw [hplaced]
    exact hline i (Nat.le_refl i)

/-- No break is cut behind a character that is no carriage return. -/
theorem not_cutsBreak_placed_succ {i : Nat} (h : (counted t)[i]? ≠ some '\r') : ¬ t.CutsBreak (placed t (i + 1)) := by
  rcases placed_cases t (i + 1) with hplaced | ⟨hplaced, -, hline⟩
  · refine Source.not_cutsBreak_of_last ?_
    rwa [hplaced, ← Nat.add_assoc, Nat.add_sub_cancel, getElem?_counted]
  · refine Source.not_cutsBreak_of_next ?_
    rw [hplaced]
    exact hline _ (Nat.le_refl _)

/-- A line feed between the places of two offsets is counted between them. -/
theorem feed_of_placed {a b : Nat} (h : '\n' ∈ t.sliceChars (placed t a) (placed t b)) :
    ∃ j, a ≤ j ∧ j < b ∧ (counted t)[j]? = some '\n' := by
  obtain ⟨p, hle, hlt, hfeed⟩ := Source.mem_sliceChars_iff.1 h
  rcases placed_cases t b with hb | ⟨hb, -, hline⟩
  · -- the character stands behind the mark
    have hbehind : markLength t + a ≤ p := by
      rcases placed_cases t a with ha | ⟨ha, hmark, hline⟩
      · omega
      · have hne : p ≠ a := by
          rintro rfl
          exact hline p (Nat.le_refl p) hfeed
        omega
    refine ⟨p - markLength t, by omega, by omega, ?_⟩
    rw [← getElem?_counted, Nat.add_sub_cancel' (by omega)]
    exact hfeed
  · exact absurd hfeed (hline p (by omega))

/-! ### Nodes that move -/

/-- A node says what another one says, at the places of its ends. -/
structure Shifted (place : Nat → Nat) (m n : Node) : Prop where
  label : n.label = m.label
  span : n.span = .between (place m.span.start) (place m.span.stop)

/-- A node is shifted with its children. -/
structure Moved (place : Nat → Nat) (m n : Node) : Prop extends Shifted place m n where
  children : List.Forall₂ (Shifted place) m.children n.children

mutual

/-- Nodes whose ends have a place are moved there. -/
theorem relocate_moved {found : Nat → Option Nat} {place : Nat → Nat} {stop : Nat}
    (h : ∀ i ≤ stop, found i = some (place i)) (m : Node) (hm : ∀ x ∈ Node.walk m, x.span.stop ≤ stop) :
    ∃ n, relocate found m = some n ∧ Shifted place m n ∧ ∀ y ∈ Node.walk n, ∃ x ∈ Node.walk m, Moved place x y := by
  cases m with
  | mk label span children =>
    rw [Node.walk, List.forall_mem_cons] at hm
    obtain ⟨moved, hmoved, hshifted, hfrom⟩ := relocateList_moved h children hm.2
    refine ⟨⟨label, .between (place span.start) (place span.stop), moved⟩, ?_, ⟨rfl, rfl⟩, fun y hy => ?_⟩
    · rw [relocate, h _ (Nat.le_trans span.start_le_stop hm.1), h _ hm.1, hmoved]
    · rw [Node.walk, List.mem_cons] at hy
      rcases hy with rfl | hy
      · exact ⟨_, Node.mem_walk_self _, ⟨rfl, rfl⟩, hshifted⟩
      · obtain ⟨x, hx, hxy⟩ := hfrom y hy
        exact ⟨x, by rw [Node.walk]; exact List.mem_cons_of_mem _ hx, hxy⟩

theorem relocateList_moved {found : Nat → Option Nat} {place : Nat → Nat} {stop : Nat}
    (h : ∀ i ≤ stop, found i = some (place i)) (ms : List Node) (hms : ∀ x ∈ Node.walkList ms, x.span.stop ≤ stop) :
    ∃ ns, relocateList found ms = some ns ∧ List.Forall₂ (Shifted place) ms ns ∧
      ∀ y ∈ Node.walkList ns, ∃ x ∈ Node.walkList ms, Moved place x y := by
  cases ms with
  | nil => exact ⟨[], rfl, .nil, fun _ hy => nomatch hy⟩
  | cons m rest =>
    rw [Node.walkList, List.forall_mem_append] at hms
    obtain ⟨n, hn, hshifted, hfrom⟩ := relocate_moved h m hms.1
    obtain ⟨ns, hns, hall, hrest⟩ := relocateList_moved h rest hms.2
    refine ⟨n :: ns, by rw [relocateList, hn, hns], .cons hshifted hall, fun y hy => ?_⟩
    rw [Node.walkList, List.mem_append] at hy
    rw [Node.walkList]
    rcases hy with hy | hy
    · obtain ⟨x, hx, hxy⟩ := hfrom y hy
      exact ⟨x, List.mem_append_left _ hx, hxy⟩
    · obtain ⟨x, hx, hxy⟩ := hrest y hy
      exact ⟨x, List.mem_append_right _ hx, hxy⟩

end

/-! ### Texts that are counted differently -/

/-- Whether a name of a tree is not the text that stands at its place. -/
def misnamed (t : Source) (tree : Node) : Bool :=
  tree.walk.any fun n =>
    match n.label with
    | .python (.name value) => t.sliceSpan n.span != value
    | _ => false

/-- **A byte-order mark moves the first line**: the name in it stands where the mark is. -/
theorem parse_marked : ∃ tree, parse (.ofString "\uFEFFx") = .ok tree ∧
    ∃ n ∈ Node.walk tree, ∃ value, n.label = .python (.name value) ∧
      (Source.ofString "\uFEFFx").sliceSpan n.span ≠ value := by
  have hrun : ((parse (.ofString "\uFEFFx")).toOption.any (misnamed (.ofString "\uFEFFx"))) = true := by
    decide +kernel
  obtain ⟨tree, htree, hnamed⟩ := (Option.any_eq_true _ _).1 hrun
  obtain ⟨n, hn, hvalue⟩ := List.any_eq_true.1 hnamed
  refine ⟨tree, ?_, n, hn, ?_⟩
  · cases hp : parse (.ofString "\uFEFFx") with
    | error e =>
      rw [hp] at htree
      cases htree
    | ok found =>
      rw [hp] at htree
      cases htree
      rfl
  · split at hvalue
    · rename_i value hlabel
      exact ⟨value, hlabel, by simpa using hvalue⟩
    · cases hvalue

/-- **A carriage return alone ends a line** that the text does not end: what stands after it has no
place there. -/
theorem parse_loneReturn : parse (.ofChars #['x', '\r', 'y']) = .error .lostPosition := by
  have hrun : (match parse (.ofChars #['x', '\r', 'y']) with
      | .error .lostPosition => true
      | _ => false) = true := by
    decide +kernel
  split at hrun
  · assumption
  · cases hrun

end HouseStyle.Python
