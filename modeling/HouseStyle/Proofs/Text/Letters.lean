import HouseStyle.Text.Casing
import HouseStyle.Text.Letter
import Mathlib.Data.List.TakeWhile

/-!
# What letters of a pattern match

* `isWordChar_of_isLetter`, `isWordChar_of_isDigit`: letters and digits stand in words.
* `isLetter_of_matches`: what matches a letter from `a` to `z` without regard to case is a letter. The
  dotted capital, the dotless small i, the long s and the kelvin sign match some of them too; these
  are letters as well.
-/

namespace HouseStyle

open Casing

variable {c : Char}

/-! ### Words -/

/-- Whether one range lies in another. -/
def rangeIn (s r : Nat × Nat) : Bool :=
  Nat.ble s.1 r.1 && Nat.ble r.2 s.2

/-- Whether each of some ranges lies in one of others, when both go upwards. -/
def coveredBy (rs : List (Nat × Nat)) : List (Nat × Nat) → Bool
  | [] => rs.isEmpty
  | s :: ss => coveredBy (rs.dropWhile (rangeIn s)) ss

theorem exists_rangeIn {ss : List (Nat × Nat)} : ∀ {rs : List (Nat × Nat)}, coveredBy rs ss = true →
    ∀ r ∈ rs, ∃ s ∈ ss, rangeIn s r = true := by
  induction ss with
  | nil =>
    intro rs h r hr
    rw [List.isEmpty_iff.1 h] at hr
    cases hr
  | cons s ss ih =>
    intro rs h r hr
    rw [← List.takeWhile_append_dropWhile (p := rangeIn s) (l := rs)] at hr
    rcases List.mem_append.1 hr with hr | hr
    · exact ⟨s, List.mem_cons_self, List.mem_takeWhile_imp hr⟩
    · obtain ⟨s', hs', hin⟩ := ih h r hr
      exact ⟨s', List.mem_cons_of_mem _ hs', hin⟩

/-- Whether a letter beyond ASCII has a code point. -/
def inLetters (n : Nat) : Bool :=
  Letter.letters.toList.any (rangeIn · (n, n))

theorem isLetter_of_inLetters (hascii : ¬ c.val < 128) (h : inLetters c.toNat = true) : isLetter c = true := by
  rw [isLetter, if_neg hascii]
  obtain ⟨r, hr, hin⟩ := List.any_eq_true.1 h
  rw [rangeIn, Bool.and_eq_true, Nat.ble_eq, Nat.ble_eq] at hin
  refine Array.any_eq_true'.2 ⟨r, Array.mem_toList_iff.1 hr, ?_⟩
  rw [Bool.and_eq_true, decide_eq_true_eq, decide_eq_true_eq]
  exact hin

/-- The letters beyond ASCII are among the letters and numerals. -/
theorem letters_covered : coveredBy Letter.letters.toList Letter.alphanumerics.toList = true := by
  decide +kernel

theorem isWordChar_of_isLetter (h : isLetter c = true) : isWordChar c = true := by
  unfold isLetter at h
  unfold isWordChar isAlphanumeric
  rw [Bool.or_eq_true]
  refine .inr ?_
  split at h
  · rename_i hascii
    rw [if_pos hascii, Char.isAlphanum, h]
    rfl
  · rename_i hascii
    rw [if_neg hascii]
    obtain ⟨r, hr, hin⟩ := Array.any_eq_true'.1 h
    rw [Bool.and_eq_true, decide_eq_true_eq, decide_eq_true_eq] at hin
    obtain ⟨s, hs, hsr⟩ := exists_rangeIn letters_covered r (Array.mem_toList_iff.2 hr)
    rw [rangeIn, Bool.and_eq_true, Nat.ble_eq, Nat.ble_eq] at hsr
    refine Array.any_eq_true'.2 ⟨s, Array.mem_toList_iff.1 hs, ?_⟩
    rw [Bool.and_eq_true, decide_eq_true_eq, decide_eq_true_eq]
    omega

theorem isAscii_of_isDigit (h : c.isDigit = true) : c.val < 128 := by
  simp only [Char.isDigit, Bool.and_eq_true, decide_eq_true_eq, UInt32.le_iff_toNat_le] at h
  exact UInt32.lt_iff_toNat_lt.2 (Nat.lt_of_le_of_lt h.2 (by decide))

theorem isWordChar_of_isDigit (h : c.isDigit = true) : isWordChar c = true := by
  rw [isWordChar, isAlphanumeric, if_pos (isAscii_of_isDigit h), Char.isAlphanum, h, Bool.or_true, Bool.or_true]

theorem digits_not_letters : ((List.range 128).all fun n =>
    !(Char.ofNat n).isDigit || !isLetter (Char.ofNat n)) = true := by
  decide +kernel

theorem not_isDigit_of_isLetter (h : isLetter c = true) : c.isDigit = false := by
  rw [Bool.eq_false_iff]
  intro hdigit
  have hc := List.all_eq_true.1 digits_not_letters c.toNat (List.mem_range.2 (isAscii_of_isDigit hdigit))
  rw [Char.ofNat_toNat, hdigit, h] at hc
  cases hc

/-! ### Letters of a pattern -/

/-- A number without a character of its own stands for the null character. -/
theorem toNat_ofNat (n : Nat) : (Char.ofNat n).toNat = n ∨ Char.ofNat n = '\x00' := by
  by_cases h : n.isValidChar
  · exact .inl (congrArg Char.toNat (dif_pos h))
  · exact .inr (dif_neg h)

/-- The letters from `a` to `z`. -/
def smallLetters : List Char :=
  ['a', 'b', 'c', 'd', 'e', 'f', 'g', 'h', 'i', 'j', 'k', 'l', 'm', 'n', 'o', 'p', 'q', 'r', 's', 't', 'u', 'v',
    'w', 'x', 'y', 'z']

/-- The lower-case characters that match one of them. -/
def smallForms : List Char :=
  'ı' :: 'ſ' :: smallLetters

theorem alternatives_smallLetters : (smallLetters.all fun p => (alternatives p).all smallForms.contains) = true := by
  decide +kernel

theorem smallForms_bounds : (smallForms.all fun q => isLetter q && Nat.blt q.toNat 0x180) = true := by
  decide +kernel

/-- Beyond ASCII only the kelvin sign becomes one of them. Most of the strides lead past them. -/
theorem lowerStrides_kelvin : (lowerStrides.toList.all fun s =>
    decide (0x180 ≤ s.first + s.shift) || smallForms.all fun q =>
      !s.covers (q.toNat - s.shift).toNat || Nat.beq (q.toNat - s.shift).toNat 0x212A) = true := by
  decide +kernel

theorem inLetters_kelvin : inLetters 0x212A = true := by
  decide +kernel

/-- In ASCII only letters become letters. -/
theorem toLower_letters : ((List.range 128).all fun n =>
    !smallForms.contains (Char.ofNat n).toLower || isLetter (Char.ofNat n)) = true := by
  decide +kernel

/-- What is a small letter in lower case is a letter. -/
theorem isLetter_of_lowerChar (h : lowerChar c ∈ smallForms) : isLetter c = true := by
  have hform := List.all_eq_true.1 smallForms_bounds _ h
  rw [Bool.and_eq_true, Nat.blt_eq] at hform
  obtain ⟨hletter, hlt⟩ := hform
  unfold lowerChar at h hletter hlt
  split at h
  · rename_i hascii
    have hc := List.all_eq_true.1 toLower_letters c.toNat (List.mem_range.2 hascii)
    rw [Char.ofNat_toNat, List.contains_iff_mem.2 h] at hc
    exact hc
  rename_i hascii
  rw [if_neg hascii] at hletter hlt
  unfold Stride.apply at h hletter hlt
  split at h
  · rename_i s hs
    simp only [hs] at hletter hlt
    have hcovers := Array.find?_some hs
    have hmem := Array.mem_toList_iff.2 (Array.mem_of_find?_eq_some hs)
    have hstride := List.all_eq_true.1 lowerStrides_kelvin s hmem
    rcases toNat_ofNat (c.toNat + s.shift).toNat with himage | hnull
    · rcases Int.lt_or_le (c.toNat + s.shift) 0 with hneg | hnonneg
      · rw [Int.toNat_of_nonpos (Int.le_of_lt hneg)] at hletter
        exact absurd hletter (by decide)
      have hback : ((Char.ofNat (c.toNat + s.shift).toNat).toNat - s.shift).toNat = c.toNat := by
        rw [himage]
        omega
      rw [Bool.or_eq_true, decide_eq_true_eq] at hstride
      rcases hstride with hpast | hforms
      · rw [Stride.covers, Bool.and_eq_true, Bool.and_eq_true, decide_eq_true_eq] at hcovers
        rw [himage] at hlt
        omega
      · have hc := List.all_eq_true.1 hforms _ h
        rw [hback, hcovers, Bool.not_true, Bool.false_or, Nat.beq_eq] at hc
        exact isLetter_of_inLetters hascii (by rw [hc]; exact inLetters_kelvin)
    · rw [hnull] at hletter
      exact absurd hletter (by decide)
  · simp only [*] at hletter
    exact hletter

/-- **What matches a small letter is a letter.** -/
theorem isLetter_of_matches {p : Char} (hp : p ∈ smallLetters) (h : matchesIgnoringCase p c = true) :
    isLetter c = true := by
  have hforms := List.all_eq_true.1 alternatives_smallLetters p hp
  have hform : simpleLower c ∈ smallForms :=
    List.contains_iff_mem.1 (List.all_eq_true.1 hforms _ (List.contains_iff_mem.1 h))
  unfold simpleLower at hform
  split at hform
  · rename_i hdotted
    have hc : c = Char.ofNat 0x130 := by rw [← hdotted, Char.ofNat_toNat]
    rw [hc]
    decide +kernel
  · exact isLetter_of_lowerChar hform

end HouseStyle
