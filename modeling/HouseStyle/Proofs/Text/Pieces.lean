import HouseStyle.Proofs.Text.Letters
import HouseStyle.Text.Pieces
import HouseStyle.Text.Quoted
import Mathlib.Data.List.Infix

/-!
# The pieces of a text

Cutting at a character is the inverse of joining, and searching for a text is asking whether it is a
part. A text that is one piece at line feeds stands on one line.

* `piecesOf_intercalate`: pieces without the separator come back after they are joined.
* `piecesOf_append_cons`: a text is cut apart at each separator.
* `length_flatMap_piecesOf_eq_iff`: texts have one piece each where none of them has a separator.
* `occursIn_iff` and `cutAt?_eq_none_iff`: what the searches find.
* `OneLine`: a text without a line feed, with what texts are put together from; `oneLine_lower` for lower
  case and `oneLine_quoted` for what is shown as a literal.
-/

namespace HouseStyle

variable {separator : Char} {cs needle piece : List Char}

/-! ### Cutting -/

theorem piecesOf_eq_splitOn (separator : Char) (cs : List Char) :
    piecesOf separator cs = cs.splitOn separator := by
  induction cs with
  | nil => rfl
  | cons c rest ih =>
    rw [List.splitOn_cons_eq_if_modifyHead, ← ih, piecesOf]
    obtain ⟨piece, more, hp⟩ := List.exists_cons_of_ne_nil (piecesOf_ne_nil separator rest)
    simp [hp, beq_iff_eq]

/-- Pieces without the separator come back after they are joined. -/
theorem piecesOf_intercalate {pieces : List (List Char)} (hne : pieces ≠ [])
    (h : ∀ piece ∈ pieces, separator ∉ piece) :
    piecesOf separator ([separator].intercalate pieces) = pieces := by
  rw [piecesOf_eq_splitOn, List.splitOn_intercalate separator h hne]

theorem piecesOf_of_notMem (h : separator ∉ cs) : piecesOf separator cs = [cs] := by
  rw [piecesOf_eq_splitOn, List.splitOn_eq_singleton h]

/-- A text is cut apart at each separator. -/
theorem piecesOf_append_cons (separator : Char) (before after : List Char) :
    piecesOf separator (before ++ separator :: after) =
      piecesOf separator before ++ piecesOf separator after := by
  simp only [piecesOf_eq_splitOn, List.splitOn_append_cons_self]

theorem notMem_of_mem_piecesOf (h : piece ∈ piecesOf separator cs) : separator ∉ piece := by
  induction cs generalizing piece with
  | nil =>
    obtain rfl : piece = [] := by simpa [piecesOf] using h
    simp
  | cons c rest ih =>
    rw [piecesOf] at h
    by_cases hc : c = separator
    · rw [if_pos hc] at h
      rcases List.mem_cons.1 h with rfl | h
      · simp
      · exact ih h
    · rw [if_neg hc] at h
      obtain ⟨first, more, hp⟩ := List.exists_cons_of_ne_nil (piecesOf_ne_nil separator rest)
      rw [hp] at h ih
      rcases List.mem_cons.1 h with rfl | h
      · simpa [Ne.symm hc] using ih List.mem_cons_self
      · exact ih (List.mem_cons_of_mem _ h)

/-- A text has a separator where it has several pieces. -/
theorem mem_iff_one_lt_length_piecesOf : separator ∈ cs ↔ 1 < (piecesOf separator cs).length := by
  constructor
  · intro h
    obtain ⟨before, after, rfl⟩ := List.append_of_mem h
    rw [piecesOf_append_cons, List.length_append]
    have hb := List.length_pos_iff.2 (piecesOf_ne_nil separator before)
    have ha := List.length_pos_iff.2 (piecesOf_ne_nil separator after)
    omega
  · intro h
    by_contra hmem
    simp [piecesOf_of_notMem hmem] at h

/-- Texts have one piece each where none of them has a separator. -/
theorem length_flatMap_piecesOf_eq_iff {texts : List (List Char)} :
    (texts.flatMap (piecesOf separator)).length = texts.length ↔ ∀ cs ∈ texts, separator ∉ cs := by
  have hle (texts : List (List Char)) : texts.length ≤ (texts.flatMap (piecesOf separator)).length := by
    induction texts with
    | nil => exact Nat.le_refl _
    | cons cs rest ih =>
      have hpos := List.length_pos_iff.2 (piecesOf_ne_nil separator cs)
      rw [List.flatMap_cons, List.length_append, List.length_cons]
      omega
  induction texts with
  | nil => simp
  | cons cs rest ih =>
    have hpos := List.length_pos_iff.2 (piecesOf_ne_nil separator cs)
    have hrest := hle rest
    rw [List.forall_mem_cons]
    refine Iff.trans ?_ (and_congr_right' ih)
    rw [mem_iff_one_lt_length_piecesOf, List.flatMap_cons, List.length_append, List.length_cons]
    omega

/-- The lines of joined texts are the lines of each. -/
theorem piecesOf_joined {css : List (List Char)} (hne : css ≠ []) :
    piecesOf '\n' (['\n'].intercalate css) = css.flatMap (piecesOf '\n') := by
  induction css with
  | nil => exact absurd rfl hne
  | cons cs rest ih =>
    cases rest with
    | nil => simp
    | cons next others =>
      rw [List.intercalate_cons_cons, List.append_assoc, List.singleton_append, piecesOf_append_cons,
        ih (by simp)]
      rfl

/-! ### Searching -/

/-- A text occurs in another where it is a part of it. -/
theorem occursIn_iff : occursIn needle cs = true ↔ needle <:+: cs := by
  induction cs with
  | nil => simp [occursIn]
  | cons c rest ih => rw [occursIn, Bool.or_eq_true, ih, List.isPrefixOf_iff_prefix, List.infix_cons_iff]

theorem cutAt?_eq_none_iff : cutAt? needle cs = none ↔ ¬ needle <:+: cs := by
  induction cs with
  | nil => simp [cutAt?]
  | cons c rest ih =>
    rw [cutAt?, List.infix_cons_iff, ← List.isPrefixOf_iff_prefix]
    by_cases h : needle.isPrefixOf (c :: rest) = true
    · simp [h]
    · simp [h, ih]

/-! ### Texts of one line -/

open Casing

variable {s t : String} {c : Char}

/-- A text without a line feed. -/
def OneLine (s : String) : Prop :=
  '\n' ∉ s.toList

instance (s : String) : Decidable (OneLine s) :=
  inferInstanceAs (Decidable ('\n' ∉ s.toList))

@[simp]
theorem oneLine_append : OneLine (s ++ t) ↔ OneLine s ∧ OneLine t := by
  simp [OneLine]

@[simp]
theorem oneLine_toString : OneLine (toString s) ↔ OneLine s := Iff.rfl

@[simp]
theorem oneLine_ofList {cs : List Char} : OneLine (String.ofList cs) ↔ '\n' ∉ cs := by
  rw [OneLine, String.toList_ofList]

theorem oneLine_repr (n : Nat) : OneLine n.repr := by
  rw [Nat.repr_eq_ofList_toDigits, oneLine_ofList]
  intro hmem
  exact absurd (Nat.isDigit_of_mem_toDigits (by decide) (by decide) hmem) (by decide)

@[simp]
theorem oneLine_nat (n : Nat) : OneLine (toString n) := oneLine_repr n

@[simp]
theorem oneLine_int (i : Int) : OneLine (toString i) := by
  cases i with
  | ofNat n => exact oneLine_repr n
  | negSucc n => exact oneLine_append.2 ⟨by decide, oneLine_repr n.succ⟩

/-- A text holds the line feeds of each part of it. -/
theorem oneLine_of_isInfix (h : s.toList <:+: t.toList) (ht : OneLine t) : OneLine s :=
  fun hmem => ht (h.subset hmem)

/-! ### Lower case -/

/-- No stride leads to a line feed. -/
theorem lowerStrides_feed : (lowerStrides.toList.all fun s => decide (0x0A < s.first + s.shift)) = true := by
  decide +kernel

theorem toLower_feed : ((List.range 128).all fun n =>
    (Char.ofNat n).toLower != '\n' || Char.ofNat n == '\n') = true := by
  decide +kernel

theorem eq_feed_of_lowerChar (h : lowerChar c = '\n') : c = '\n' := by
  unfold lowerChar at h
  split at h
  · rename_i hascii
    have hc := List.all_eq_true.1 toLower_feed c.toNat (List.mem_range.2 hascii)
    rw [Char.ofNat_toNat, h] at hc
    exact beq_iff_eq.1 hc
  · unfold Stride.apply at h
    split at h
    · rename_i s hs
      have hstride := List.all_eq_true.1 lowerStrides_feed s
        (Array.mem_toList_iff.2 (Array.mem_of_find?_eq_some hs))
      have hcovers := Array.find?_some hs
      rw [Stride.covers, Bool.and_eq_true, Bool.and_eq_true, decide_eq_true_eq] at hcovers
      rw [decide_eq_true_eq] at hstride
      rcases toNat_ofNat (c.toNat + s.shift).toNat with himage | hnull
      · rw [h, show '\n'.toNat = 0x0A from rfl] at himage
        omega
      · rw [h] at hnull
        exact absurd hnull (by decide)
    · exact h

theorem mem_of_mem_lowerFrom {before cs : List Char} (h : '\n' ∈ lowerFrom before cs) : '\n' ∈ cs := by
  induction cs generalizing before with
  | nil => exact h
  | cons c rest ih =>
    rw [lowerFrom] at h
    rcases List.mem_append.1 h with h | h
    · split at h
      · split at h <;> exact absurd h (by decide)
      · split at h
        · exact absurd h (by decide)
        · exact List.mem_cons.2 (.inl (eq_feed_of_lowerChar (List.mem_singleton.1 h).symm).symm)
    · exact List.mem_cons_of_mem c (ih h)

/-- A text keeps its lines in lower case. -/
theorem oneLine_lower (h : OneLine s) : OneLine (lower s) := by
  rw [lower, oneLine_ofList]
  exact fun hmem => h (mem_of_mem_lowerFrom hmem)

/-! ### Literals -/

theorem hexDigit_ne_feed : ((List.range 16).all fun n => Quoted.hexDigit n != '\n') = true := by
  decide

theorem notMem_hex (width n : Nat) : '\n' ∉ Quoted.hex width n := by
  induction width generalizing n with
  | zero => exact List.not_mem_nil
  | succ width ih =>
    have hdigit := List.all_eq_true.1 hexDigit_ne_feed (n % 16) (List.mem_range.2 (Nat.mod_lt n (by decide)))
    rw [Quoted.hex, List.mem_append, not_or, List.mem_singleton]
    exact ⟨ih _, fun h => bne_iff_ne.1 hdigit h.symm⟩

/-- What stands for a character of a literal is no line feed. -/
theorem notMem_escape {quote : Char} (hquote : quote ≠ '\n') (c : Char) : '\n' ∉ Quoted.escape quote c := by
  unfold Quoted.escape
  split_ifs with hmarked hfeed
  · rcases hmarked with rfl | rfl
    · simp [hquote.symm]
    · decide
  · decide
  · decide
  · decide
  · exact fun hmem => hfeed (List.mem_singleton.1 hmem).symm
  all_goals
    rw [List.mem_cons, List.mem_cons, not_or, not_or]
    exact ⟨by decide, by decide, notMem_hex _ _⟩

/-- A text that is shown as a literal stands on one line. -/
theorem oneLine_quoted (s : String) : OneLine (Quoted.text s) := by
  have hquote : Quoted.quoteFor s.toList ≠ '\n' := by
    unfold Quoted.quoteFor
    split <;> decide
  rw [Quoted.text, oneLine_ofList, List.mem_append, List.mem_cons, List.mem_flatMap, List.mem_singleton]
  rintro ((h | ⟨c, -, h⟩) | h)
  · exact hquote h.symm
  · exact notMem_escape hquote c h
  · exact hquote h.symm

end HouseStyle
