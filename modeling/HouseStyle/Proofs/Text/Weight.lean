import HouseStyle.Text.Blank
import Mathlib.Data.List.TakeWhile
import Mathlib.Tactic.Ring
import Mathlib.Tactic.Linarith

/-!
# The weight of a text

A number for a text, given a rank for each of its offsets. Its digits belong to the
characters that are neither white space nor semicolons, first ones first, so

* `weight_lt_of_fewer`: a text with fewer such characters weighs less, and
* `weight_lt_of_first`: of two texts with as many, the one with the smaller digit where
  they first differ does.

Besides the rank of its place, the digit of a comma tells whether a line is broken
after it.
-/

namespace HouseStyle

/-! ### Characters that count -/

/-- A character is neither white space of a stylesheet nor a semicolon. -/
def isSolid (c : Char) : Bool :=
  !isStyleBlank c && c != ';'

/-- The number of characters that count. -/
def solidCount (cs : List Char) : Nat :=
  cs.countP isSolid

theorem solidCount_append (xs ys : List Char) : solidCount (xs ++ ys) = solidCount xs + solidCount ys :=
  List.countP_append

theorem solidCount_cons (c : Char) (cs : List Char) :
    solidCount (c :: cs) = solidCount cs + if isSolid c then 1 else 0 :=
  List.countP_cons

theorem solidCount_eq_zero {cs : List Char} : solidCount cs = 0 ↔ ∀ c ∈ cs, isSolid c = false := by
  rw [solidCount, List.countP_eq_zero]
  simp only [Bool.not_eq_true]

theorem isSolid_of_blank {c : Char} (h : isStyleBlank c = true) : isSolid c = false := by
  rw [isSolid, h]
  rfl

theorem not_blank_of_isSolid {c : Char} (h : isSolid c = true) : isStyleBlank c = false := by
  rw [isSolid, Bool.and_eq_true, Bool.not_eq_true'] at h
  exact h.1

/-! ### Digits -/

/-- One if a character is a comma after which the line goes on. -/
def commaMark (c : Char) (rest : List Char) : Nat :=
  if c = ',' ∧ '\n' ∉ rest.takeWhile isStyleBlank then 1 else 0

theorem commaMark_le (c : Char) (rest : List Char) : commaMark c rest ≤ 1 := by
  unfold commaMark
  split <;> omega

/-- What stands behind a character that counts does not matter before it. -/
theorem commaMark_append {c x y : Char} (hx : isSolid x = true) (hy : isSolid y = true)
    (pre xs ys : List Char) : commaMark c (pre ++ x :: xs) = commaMark c (pre ++ y :: ys) := by
  have hrun {z : Char} (hz : isSolid z = true) (zs : List Char) :
      (pre ++ z :: zs).takeWhile isStyleBlank = pre.takeWhile isStyleBlank := by
    rw [List.takeWhile_append, List.takeWhile_cons, not_blank_of_isSolid hz]
    split
    · rename_i hall
      rw [(List.takeWhile_prefix isStyleBlank).eq_of_length hall, if_neg Bool.false_ne_true, List.append_nil]
    · rfl
  rw [commaMark, commaMark, hrun hx, hrun hy]

/-- The digits of a text that begins at an offset. -/
def digits (rank : Nat → Nat) : Nat → List Char → List Nat
  | _, [] => []
  | pos, c :: rest =>
    if isSolid c then (2 * rank pos + commaMark c rest) :: digits rank (pos + 1) rest
    else digits rank (pos + 1) rest

variable {rank rank' : Nat → Nat}

theorem length_digits (rank : Nat → Nat) (cs : List Char) :
    ∀ pos, (digits rank pos cs).length = solidCount cs := by
  induction cs with
  | nil => exact fun _ => rfl
  | cons c cs ih =>
    intro pos
    rw [digits, solidCount_cons]
    split
    · rw [List.length_cons, ih]
    · rw [ih, Nat.add_zero]

theorem digits_le (h : ∀ p, rank p ≤ 2) (cs : List Char) : ∀ pos, ∀ x ∈ digits rank pos cs, x ≤ 5 := by
  induction cs with
  | nil => exact fun _ _ hx => nomatch hx
  | cons c cs ih =>
    intro pos x hx
    rw [digits] at hx
    split at hx
    · rcases List.mem_cons.1 hx with rfl | hx
      · have := h pos
        have := commaMark_le c cs
        omega
      · exact ih _ x hx
    · exact ih _ x hx

/-- **Two texts with a common beginning** have a common beginning of their digits, if the
ranks of its offsets are the same. -/
theorem digits_append {x y : Char} (hx : isSolid x = true) (hy : isSolid y = true) (xs ys : List Char)
    (pre : List Char) : ∀ pos, (∀ p, pos ≤ p → p < pos + pre.length → rank p = rank' p) →
      ∃ ds us vs,
        digits rank pos (pre ++ x :: xs) = ds ++ (2 * rank (pos + pre.length) + commaMark x xs) :: us ∧
        digits rank' pos (pre ++ y :: ys) = ds ++ (2 * rank' (pos + pre.length) + commaMark y ys) :: vs := by
  induction pre with
  | nil =>
    intro pos _
    refine ⟨[], digits rank (pos + 1) xs, digits rank' (pos + 1) ys, ?_, ?_⟩
    · rw [List.nil_append, digits, if_pos hx]
      rfl
    · rw [List.nil_append, digits, if_pos hy]
      rfl
  | cons c pre ih =>
    intro pos hrank
    have hlen : pos + 1 + pre.length = pos + (c :: pre).length := by rw [List.length_cons]; omega
    obtain ⟨ds, us, vs, h1, h2⟩ := ih (pos + 1) fun p hp hlt => hrank p (by omega) (by omega)
    rw [hlen] at h1 h2
    by_cases hc : isSolid c = true
    · refine ⟨(2 * rank pos + commaMark c (pre ++ x :: xs)) :: ds, us, vs, ?_, ?_⟩
      · rw [List.cons_append, digits, if_pos hc, h1]
        rfl
      · rw [List.cons_append, digits, if_pos hc, h2, hrank pos (Nat.le_refl _) (by rw [List.length_cons]; omega),
          commaMark_append hx hy pre xs ys]
        rfl
    · refine ⟨ds, us, vs, ?_, ?_⟩
      · rw [List.cons_append, digits, if_neg hc, h1]
      · rw [List.cons_append, digits, if_neg hc, h2]

/-! ### Numbers of digits -/

/-- The number of some digits from zero to five, where no digit counts as less than zero. -/
def number : List Nat → Nat
  | [] => 0
  | x :: xs => (x + 1) * 6 ^ xs.length + number xs

theorem le_number (ds : List Nat) : 6 ^ ds.length ≤ 5 * number ds + 1 := by
  induction ds with
  | nil => exact Nat.le_refl _
  | cons x xs ih =>
    rw [number, List.length_cons, Nat.pow_succ]
    nlinarith [Nat.zero_le (x * 6 ^ xs.length)]

theorem number_le {ds : List Nat} (h : ∀ x ∈ ds, x ≤ 5) : 5 * number ds + 6 ≤ 6 * 6 ^ ds.length := by
  induction ds with
  | nil => exact Nat.le_refl _
  | cons x xs ih =>
    have hxs := ih fun y hy => h y (List.mem_cons_of_mem _ hy)
    have hx : (x + 1) * 6 ^ xs.length ≤ 6 * 6 ^ xs.length :=
      Nat.mul_le_mul_right _ (Nat.succ_le_succ (h x List.mem_cons_self))
    rw [number, List.length_cons, Nat.pow_succ]
    linarith

theorem number_lt_of_length {ds es : List Nat} (h : ∀ x ∈ ds, x ≤ 5) (hlt : ds.length < es.length) :
    number ds < number es := by
  have h1 := number_le h
  have h2 := le_number es
  have h3 : 6 ^ (ds.length + 1) ≤ 6 ^ es.length := Nat.pow_le_pow_right (by decide) hlt
  rw [Nat.pow_succ] at h3
  omega

theorem number_append (ds es : List Nat) : number (ds ++ es) = number ds * 6 ^ es.length + number es := by
  induction ds with
  | nil => rw [List.nil_append, number, Nat.zero_mul, Nat.zero_add]
  | cons x xs ih =>
    rw [List.cons_append, number, number, ih, List.length_append, Nat.pow_add]
    ring

/-- Of as many digits, the first that differ decide. -/
theorem number_lt_of_first {ds us vs : List Nat} {x y : Nat} (hv : ∀ z ∈ vs, z ≤ 5)
    (hlen : vs.length = us.length) (hlt : y < x) : number (ds ++ y :: vs) < number (ds ++ x :: us) := by
  have h1 := number_le hv
  have h2 := le_number us
  have h3 : (y + 1) * 6 ^ us.length + 6 ^ us.length ≤ (x + 1) * 6 ^ us.length := by
    have := Nat.mul_le_mul_right (6 ^ us.length) (Nat.succ_le_succ hlt)
    linarith
  rw [number_append, number_append, number, number, List.length_cons, List.length_cons, hlen]
  rw [hlen] at h1
  omega

/-! ### The weight -/

/-- The weight of a text, given the ranks of its offsets. -/
def weight (rank : Nat → Nat) (cs : List Char) : Nat :=
  number (digits rank 0 cs)

/-- **A text with fewer characters that count weighs less.** -/
theorem weight_lt_of_fewer (hr' : ∀ p, rank' p ≤ 2) {cs cs' : List Char} (h : solidCount cs' < solidCount cs) :
    weight rank' cs' < weight rank cs := by
  refine number_lt_of_length (digits_le hr' cs' 0) ?_
  rw [length_digits, length_digits]
  exact h

/-- **The first digits that differ decide** between texts of which the lighter one has no more
characters that count. -/
theorem weight_lt_of_first (hr' : ∀ p, rank' p ≤ 2) {pre xs ys : List Char} {x y : Char}
    (hx : isSolid x = true) (hy : isSolid y = true) (hrank : ∀ p, p < pre.length → rank p = rank' p)
    (hlt : 2 * rank' pre.length + commaMark y ys < 2 * rank pre.length + commaMark x xs)
    (hcount : solidCount (pre ++ y :: ys) ≤ solidCount (pre ++ x :: xs)) :
    weight rank' (pre ++ y :: ys) < weight rank (pre ++ x :: xs) := by
  rcases Nat.lt_or_eq_of_le hcount with hfewer | hsame
  · exact weight_lt_of_fewer hr' hfewer
  obtain ⟨ds, us, vs, h1, h2⟩ := digits_append hx hy xs ys pre 0 fun p _ hp => hrank p (by omega)
  have hle := digits_le hr' (pre ++ y :: ys) 0
  rw [← length_digits rank' _ 0, ← length_digits rank _ 0, h1, h2] at hsame
  rw [weight, weight, h1, h2]
  rw [h2] at hle
  rw [Nat.zero_add]
  refine number_lt_of_first (fun z hz => hle z ?_) ?_ hlt
  · exact List.mem_append_right _ (List.mem_cons_of_mem _ hz)
  · rw [List.length_append, List.length_append, List.length_cons, List.length_cons] at hsame
    omega

end HouseStyle
