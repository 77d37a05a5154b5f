import HouseStyle.Proofs.Text.Letters
import HouseStyle.Stylesheet.Scan

/-!
# The numbers of a value

A number is made of digits with an optional fraction, or of a fraction alone, and of the letters or the
percent sign that follow them.

* `numberOf`: the number at the start of a text.
* `numbersFrom`: the numbers of a text outside of strings, comments and parentheses, with their offsets.
* `Alike`: texts that agree as far as a number can reach, `numberOf_alike`.
* `numberOf_zero`: a zero before a text that begins with neither a digit nor a unit takes the number at
  the start of that text with it.
-/

namespace HouseStyle.Numbers

open Stylesheet

variable {d : Dialect} {c : Char} {a b cs rest w : List Char}

/-! ### Numbers -/

/-- The fraction at the start of a text: a period and digits. -/
def fractionOf : List Char → List Char
  | '.' :: rest => if rest.takeWhile Char.isDigit = [] then [] else '.' :: rest.takeWhile Char.isDigit
  | _ => []

/-- The unit at the start of a text: a percent sign, or letters. -/
def unitOf : List Char → List Char
  | '%' :: _ => ['%']
  | cs => cs.takeWhile isLetter

/-- The digits at the start of a text and the fraction behind them. -/
def amountOf (cs : List Char) : List Char :=
  cs.takeWhile Char.isDigit ++ fractionOf (cs.dropWhile Char.isDigit)

/-- The number at the start of a text, with its unit; nothing if none begins there. -/
def numberOf (cs : List Char) : List Char :=
  if amountOf cs = [] then [] else amountOf cs ++ unitOf (cs.drop (amountOf cs).length)

/-- Whether a character can stand in a number before its end. -/
def isInner (c : Char) : Bool :=
  c.isDigit || c == '.' || isLetter c

/-- Whether a character can stand in a number. -/
def isNumberChar (c : Char) : Bool :=
  isInner c || c == '%'

/-! ### The place of a character -/

/-- What a character of a text is read as: text, maybe behind a slash; part of a string in double quotes or
in single quotes, maybe behind a backslash; part of a comment, maybe behind a star; or part of a line comment. -/
inductive Mode where
  | live
  | slash
  | string (double : Bool)
  | escape (double : Bool)
  | comment
  | star
  | line
  deriving DecidableEq

/-- How the characters read so far leave the next one: the mode, and the parentheses and brackets, and
the parentheses only, that are open. -/
structure Spot where
  mode : Mode
  groups : Nat
  parens : Nat

namespace Spot

/-- Whether the next character stands outside of strings, comments and parentheses. -/
def isLive (p : Spot) : Bool :=
  (p.mode == .live || p.mode == .slash) && p.parens == 0

/-- The place behind a character of text. -/
def enter (p : Spot) (c : Char) : Spot where
  mode := if isQuote c then .string (c == '"') else if c = '/' then .slash else .live
  groups := if opensGroup c then p.groups + 1 else if closesGroup c then p.groups - 1 else p.groups
  parens := if c = '(' then p.parens + 1 else if c = ')' then p.parens - 1 else p.parens

/-- The place behind one more character. Only SCSS has line comments, and none in parentheses or
brackets. -/
def step (d : Dialect) (p : Spot) (c : Char) : Spot :=
  match p.mode with
  | .live => p.enter c
  | .slash =>
    if c = '*' then { p with mode := .comment }
    else if c = '/' ∧ d = .scss ∧ p.groups = 0 then { p with mode := .line }
    else p.enter c
  | .string double =>
    if c = (if double then '"' else '\'') then { p with mode := .live }
    else if c = '\\' then { p with mode := .escape double }
    else p
  | .escape double => { p with mode := .string double }
  | .comment => if c = '*' then { p with mode := .star } else p
  | .star => if c = '/' then { p with mode := .live } else if c = '*' then p else { p with mode := .comment }
  | .line => if c = '\n' then { p with mode := .live } else p

/-- The place behind a character that begins and ends nothing. -/
def settle (p : Spot) : Spot :=
  match p.mode with
  | .slash => { p with mode := .live }
  | .escape double => { p with mode := .string double }
  | .star => { p with mode := .comment }
  | _ => p

/-- The start of a text. -/
def start : Spot :=
  ⟨.live, 0, 0⟩

end Spot

/-- The numbers of a text outside of strings, comments and parentheses, with their offsets, when `pos` is
the offset of its first character, and `skip` characters belong to a number already found. -/
def numbersFrom (d : Dialect) (p : Spot) (pos : Nat) : Nat → List Char → List (Nat × List Char)
  | _, [] => []
  | skip + 1, c :: rest => numbersFrom d (p.step d c) (pos + 1) skip rest
  | 0, c :: rest =>
    if p.isLive ∧ numberOf (c :: rest) ≠ [] then
      (pos, numberOf (c :: rest)) ::
        numbersFrom d (p.step d c) (pos + 1) ((numberOf (c :: rest)).length - 1) rest
    else numbersFrom d (p.step d c) (pos + 1) 0 rest

/-! ### What a number is made of -/

theorem isInner_of_digit (h : c.isDigit = true) : isInner c = true := by
  rw [isInner, h]
  rfl

theorem isInner_of_letter (h : isLetter c = true) : isInner c = true := by
  rw [isInner, h, Bool.or_true]

theorem fractionOf_of_ne (h : c ≠ '.') : fractionOf (c :: cs) = [] := by
  unfold fractionOf
  split
  · rename_i heq
    exact absurd (List.cons.inj heq).1 h
  · rfl

theorem unitOf_of_ne (h : c ≠ '%') : unitOf (c :: cs) = (c :: cs).takeWhile isLetter := by
  unfold unitOf
  split
  · rename_i heq
    exact absurd (List.cons.inj heq).1 h
  · rfl

theorem fractionOf_isPrefix (cs : List Char) : fractionOf cs <+: cs := by
  unfold fractionOf
  split
  · split
    · exact List.nil_prefix
    · exact (List.prefix_cons_inj _).2 (List.takeWhile_prefix _)
  · exact List.nil_prefix

theorem unitOf_isPrefix (cs : List Char) : unitOf cs <+: cs := by
  unfold unitOf
  split
  · exact (List.prefix_cons_inj _).2 List.nil_prefix
  · exact List.takeWhile_prefix _

theorem amountOf_isPrefix (cs : List Char) : amountOf cs <+: cs := by
  have h := (List.prefix_append_right_inj (cs.takeWhile Char.isDigit)).2 (fractionOf_isPrefix (cs.dropWhile Char.isDigit))
  rwa [List.takeWhile_append_dropWhile] at h

theorem numberOf_isPrefix (cs : List Char) : numberOf cs <+: cs := by
  unfold numberOf
  split
  · exact List.nil_prefix
  · have h := (List.prefix_append_right_inj (amountOf cs)).2 (unitOf_isPrefix (cs.drop (amountOf cs).length))
    rwa [List.prefix_iff_eq_append.1 (amountOf_isPrefix cs)] at h

theorem inner_of_fractionOf : ∀ c ∈ fractionOf cs, isInner c = true := by
  unfold fractionOf
  split
  · split
    · exact List.forall_mem_nil _
    · refine List.forall_mem_cons.2 ⟨rfl, fun c hc => ?_⟩
      exact isInner_of_digit (List.mem_takeWhile_imp hc)
  · exact List.forall_mem_nil _

theorem inner_of_amountOf : ∀ c ∈ amountOf cs, isInner c = true :=
  List.forall_mem_append.2 ⟨fun _ hc => isInner_of_digit (List.mem_takeWhile_imp hc), inner_of_fractionOf⟩

/-- A unit that is not a percent sign is made of letters. -/
theorem unitOf_cases (cs : List Char) : unitOf cs = ['%'] ∨ ∀ c ∈ unitOf cs, isInner c = true := by
  unfold unitOf
  split
  · exact .inl rfl
  · exact .inr fun c hc => isInner_of_letter (List.mem_takeWhile_imp hc)

/-- Only the last character of a number can be one that is not inner. -/
theorem inner_of_dropLast : ∀ c ∈ (numberOf cs).dropLast, isInner c = true := by
  unfold numberOf
  split
  · exact List.forall_mem_nil _
  · rcases unitOf_cases (cs.drop (amountOf cs).length) with h | h
    · rw [h, List.dropLast_concat]
      exact inner_of_amountOf
    · intro c hc
      exact List.forall_mem_append.2 ⟨inner_of_amountOf, h⟩ c ((List.dropLast_sublist _).subset hc)

theorem isNumberChar_of_numberOf : ∀ c ∈ numberOf cs, isNumberChar c = true := by
  have hinner {c : Char} (h : isInner c = true) : isNumberChar c = true := by
    rw [isNumberChar, h]
    rfl
  unfold numberOf
  split
  · exact List.forall_mem_nil _
  · refine List.forall_mem_append.2 ⟨fun c hc => hinner (inner_of_amountOf c hc), ?_⟩
    rcases unitOf_cases (cs.drop (amountOf cs).length) with h | h
    · rw [h]
      exact List.forall_mem_singleton.2 rfl
    · exact fun c hc => hinner (h c hc)

/-! ### Texts that agree as far as a number reaches -/

/-- Two texts agree up to a character that is not an inner one. -/
inductive Alike : List Char → List Char → Prop
  | nil : Alike [] []
  | stop {c : Char} (a b : List Char) (h : isInner c = false) : Alike (c :: a) (c :: b)
  | cons {c : Char} {a b : List Char} (h : Alike a b) : Alike (c :: a) (c :: b)

theorem Alike.head? (h : Alike a b) : a.head? = b.head? := by
  cases h <;> rfl

/-- What is inner at the start of one text is at the start of the other. -/
theorem Alike.takeWhile {q : Char → Bool} (hq : ∀ c, q c = true → isInner c = true) (h : Alike a b) :
    a.takeWhile q = b.takeWhile q ∧ Alike (a.dropWhile q) (b.dropWhile q) := by
  induction h with
  | nil => exact ⟨rfl, .nil⟩
  | @stop c a b hc =>
    have hno : q c = false := Bool.eq_false_iff.2 fun h => by
      rw [hq c h] at hc
      cases hc
    simp only [List.takeWhile_cons, List.dropWhile_cons, hno, Bool.false_eq_true, if_false]
    exact ⟨trivial, .stop a b hc⟩
  | @cons c a b h ih =>
    simp only [List.takeWhile_cons, List.dropWhile_cons]
    split
    · exact ⟨congrArg _ ih.1, ih.2⟩
    · exact ⟨rfl, .cons h⟩

theorem Alike.drop : ∀ {n : Nat} {a b : List Char}, (∀ c ∈ a.take n, isInner c = true) → Alike a b →
    Alike (a.drop n) (b.drop n)
  | 0, _, _, _, h => h
  | n + 1, _, _, hinner, h => by
    cases h with
    | nil => exact .nil
    | stop a b hc =>
      rw [List.take_succ_cons, List.forall_mem_cons, hc] at hinner
      cases hinner.1
    | cons h =>
      rw [List.take_succ_cons, List.forall_mem_cons] at hinner
      exact @Alike.drop n _ _ hinner.2 h

theorem fractionOf_alike (h : Alike a b) : fractionOf a = fractionOf b := by
  have hother {c : Char} {a b : List Char} (hc : c ≠ '.') : fractionOf (c :: a) = fractionOf (c :: b) := by
    rw [fractionOf_of_ne hc, fractionOf_of_ne hc]
  cases h with
  | nil => rfl
  | stop a b hc =>
    refine hother ?_
    rintro rfl
    cases hc
  | @cons c a b h =>
    by_cases hperiod : c = '.'
    · rw [hperiod, fractionOf, fractionOf, (h.takeWhile fun _ => isInner_of_digit).1]
    · exact hother hperiod

theorem unitOf_alike (h : Alike a b) : unitOf a = unitOf b := by
  have hletters := (h.takeWhile fun _ => isInner_of_letter).1
  have hhead := h.head?
  cases a with
  | nil =>
    cases h
    rfl
  | cons c a =>
    cases b with
    | nil => cases h
    | cons c' b =>
      obtain rfl := Option.some.inj hhead
      by_cases hpercent : c = '%'
      · rw [hpercent, unitOf, unitOf]
      · rw [unitOf_of_ne hpercent, unitOf_of_ne hpercent, hletters]

theorem amountOf_alike (h : Alike a b) : amountOf a = amountOf b := by
  obtain ⟨hdigits, hrest⟩ := h.takeWhile fun _ => isInner_of_digit
  rw [amountOf, amountOf, hdigits, fractionOf_alike hrest]

/-- **Texts that agree as far as a number can reach begin with the same number.** -/
theorem numberOf_alike (h : Alike a b) : numberOf a = numberOf b := by
  have hdrop : Alike (a.drop (amountOf b).length) (b.drop (amountOf b).length) := by
    refine h.drop fun c hc => @inner_of_amountOf a c ?_
    rwa [List.prefix_iff_eq_take.1 (amountOf_isPrefix a), amountOf_alike h]
  rw [numberOf, numberOf, amountOf_alike h, unitOf_alike hdrop]

/-! ### Zeros before a text -/

/-- What holds of a word and fails behind it ends there. -/
theorem takeWhile_word {q : Char → Bool} (hw : ∀ c ∈ w, q c = true) (hrest : ∀ c ∈ rest.head?, q c = false) :
    (w ++ rest).takeWhile q = w ∧ (w ++ rest).dropWhile q = rest := by
  have hnil : rest.takeWhile q = [] ∧ rest.dropWhile q = rest := by
    cases rest with
    | nil => exact ⟨rfl, rfl⟩
    | cons c rest =>
      have hc : q c = false := hrest c rfl
      rw [List.takeWhile_cons, List.dropWhile_cons, hc]
      exact ⟨rfl, rfl⟩
  rw [List.takeWhile_append_of_pos hw, List.dropWhile_append_of_pos hw, hnil.1, hnil.2, List.append_nil]
  exact ⟨rfl, rfl⟩

/-- A text that begins with neither a digit nor a unit. -/
def Unmarked (rest : List Char) : Prop :=
  ∀ c ∈ rest.head?, c.isDigit = false ∧ isLetter c = false ∧ c ≠ '%'

theorem Unmarked.unitOf_eq_nil (h : Unmarked rest) : unitOf rest = [] := by
  cases rest with
  | nil => rfl
  | cons c rest =>
    obtain ⟨-, hletter, hpercent⟩ := h c rfl
    rw [unitOf_of_ne hpercent, List.takeWhile_cons, hletter]
    rfl

theorem Unmarked.amountOf_eq (h : Unmarked rest) : amountOf rest = fractionOf rest := by
  obtain ⟨hdigits, hrest⟩ := @takeWhile_word rest [] Char.isDigit (List.forall_mem_nil _) fun c hc => (h c hc).1
  rw [List.nil_append] at hdigits hrest
  rw [amountOf, hdigits, hrest, List.nil_append]

/-- A text without a digit or a unit at its start begins with a number exactly if it begins with a fraction. -/
theorem Unmarked.numberOf_eq_nil (h : Unmarked rest) : numberOf rest = [] ↔ fractionOf rest = [] := by
  rw [numberOf, h.amountOf_eq]
  split
  · rename_i hnil
    exact iff_of_true rfl hnil
  · rename_i hnil
    exact iff_of_false (List.append_ne_nil_of_left_ne_nil hnil _) hnil

/-- **A zero takes the number behind it with it.** -/
theorem numberOf_zero (h : Unmarked rest) : numberOf ('0' :: rest) = '0' :: numberOf rest := by
  obtain ⟨hdigits, hdrop⟩ := @takeWhile_word rest ['0'] Char.isDigit (List.forall_mem_singleton.2 rfl)
    fun c hc => (h c hc).1
  have hamount : amountOf ('0' :: rest) = '0' :: amountOf rest := by
    rw [h.amountOf_eq, amountOf]
    rw [← List.singleton_append, hdigits, hdrop, List.singleton_append]
  rw [numberOf, numberOf, hamount, if_neg (List.cons_ne_nil _ _), List.length_cons, List.drop_succ_cons]
  split
  · rename_i hnil
    rw [hnil, List.length_nil, List.drop_zero, h.unitOf_eq_nil]
    rfl
  · rfl

theorem fractionOf_word {ds : List Char} (hne : ds ≠ []) (hds : ∀ c ∈ ds, c.isDigit = true)
    (hrest : ∀ c ∈ rest.head?, c.isDigit = false) : fractionOf ('.' :: (ds ++ rest)) = '.' :: ds := by
  rw [fractionOf, (takeWhile_word hds hrest).1, if_neg hne]

/-- **A word that is a number**: digits, maybe a fraction, and letters before what is no letter. -/
theorem numberOf_word {digits fraction unit : List Char} (hne : digits ≠ [])
    (hdigits : ∀ c ∈ digits, c.isDigit = true)
    (hfraction : fraction = [] ∨ ∃ ds, ds ≠ [] ∧ (∀ c ∈ ds, c.isDigit = true) ∧ fraction = '.' :: ds)
    (hunitne : unit ≠ []) (hunit : ∀ c ∈ unit, isLetter c = true) (hrest : ∀ c ∈ rest.head?, isLetter c = false) :
    numberOf (digits ++ (fraction ++ (unit ++ rest))) = digits ++ (fraction ++ unit) := by
  obtain ⟨u, unit, rfl⟩ := List.exists_cons_of_ne_nil hunitne
  have hu : isLetter u = true := hunit u List.mem_cons_self
  have hnodigit : ∀ c ∈ (u :: unit ++ rest).head?, c.isDigit = false := by
    rintro c ⟨⟩
    exact not_isDigit_of_isLetter hu
  have hfractionOf : fractionOf (fraction ++ (u :: unit ++ rest)) = fraction := by
    rcases hfraction with rfl | ⟨ds, hds, hdsdigits, rfl⟩
    · refine fractionOf_of_ne ?_
      rintro rfl
      cases hu
    · exact fractionOf_word hds hdsdigits hnodigit
  have hamount : amountOf (digits ++ (fraction ++ (u :: unit ++ rest))) = digits ++ fraction := by
    have hstop : ∀ c ∈ (fraction ++ (u :: unit ++ rest)).head?, c.isDigit = false := by
      rcases hfraction with rfl | ⟨ds, -, -, rfl⟩
      · exact hnodigit
      · rintro c ⟨⟩
        rfl
    obtain ⟨htake, hdrop⟩ := takeWhile_word hdigits hstop
    rw [amountOf, htake, hdrop, hfractionOf]
  have hunitOf : unitOf (u :: unit ++ rest) = u :: unit := by
    rw [List.cons_append, unitOf_of_ne, ← List.cons_append, (takeWhile_word hunit hrest).1]
    rintro rfl
    cases hu
  rw [numberOf, hamount, if_neg (List.append_ne_nil_of_left_ne_nil hne _), ← List.append_assoc, List.drop_left,
    hunitOf, List.append_assoc]

/-! ### Places -/

namespace Spot

variable {p : Spot}

theorem settle_settle (p : Spot) : p.settle.settle = p.settle := by
  obtain ⟨mode, groups, parens⟩ := p
  cases mode <;> rfl

theorem isLive_settle (p : Spot) : p.settle.isLive = p.isLive := by
  obtain ⟨mode, groups, parens⟩ := p
  cases mode <;> rfl

/-- A character of a number begins and ends nothing. -/
theorem step_of_isNumberChar (hc : isNumberChar c = true) : p.step d c = p.settle := by
  have hne (x : Char) (hx : isNumberChar x = false) : c ≠ x := by
    rintro rfl
    rw [hc] at hx
    cases hx
  have hstar : c ≠ '*' := hne '*' rfl
  have hslash : c ≠ '/' := hne '/' rfl
  have hbackslash : c ≠ '\\' := hne '\\' rfl
  have hnewline : c ≠ '\n' := hne '\n' rfl
  have hdouble : c ≠ '"' := hne '"' rfl
  have hsingle : c ≠ '\'' := hne '\'' rfl
  have hquote : isQuote c = false := by
    rw [isQuote, Bool.or_eq_false_iff, beq_eq_false_iff_ne, beq_eq_false_iff_ne]
    exact ⟨hdouble, hsingle⟩
  have hopen : c ≠ '(' ∧ opensGroup c = false := by
    rw [opensGroup, Bool.or_eq_false_iff, beq_eq_false_iff_ne, beq_eq_false_iff_ne]
    exact ⟨hne '(' rfl, hne '(' rfl, hne '[' rfl⟩
  have hclose : c ≠ ')' ∧ closesGroup c = false := by
    rw [closesGroup, Bool.or_eq_false_iff, beq_eq_false_iff_ne, beq_eq_false_iff_ne]
    exact ⟨hne ')' rfl, hne ')' rfl, hne ']' rfl⟩
  have henter : p.enter c = { p with mode := .live } := by
    simp [enter, hquote, hslash, hopen, hclose]
  obtain ⟨mode, groups, parens⟩ := p
  cases mode with
  | live => exact henter
  | slash => simp [step, settle, henter, hstar, hslash]
  | string double => cases double <;> simp [step, settle, hdouble, hsingle, hbackslash]
  | escape double => rfl
  | comment => simp [step, settle, hstar]
  | star => simp [step, settle, hstar, hslash]
  | line => simp [step, settle, hnewline]

end Spot

/-! ### The numbers of a text -/

theorem numbersFrom_plain {p : Spot} {pos : Nat} (h : p.isLive = true → numberOf (c :: rest) = []) :
    numbersFrom d p pos 0 (c :: rest) = numbersFrom d (p.step d c) (pos + 1) 0 rest := by
  rw [numbersFrom, if_neg]
  exact fun hnumber => hnumber.2 (h hnumber.1)

/-- The characters of a number already found are passed over. -/
theorem numbersFrom_skip {p : Spot} : ∀ {w : List Char} {pos : Nat}, (∀ c ∈ w, isNumberChar c = true) →
    numbersFrom d p.settle pos w.length (w ++ rest) = numbersFrom d p.settle (pos + w.length) 0 rest
  | [], _, _ => rfl
  | c :: w, pos, hw => by
    rw [List.forall_mem_cons] at hw
    rw [List.length_cons, List.cons_append, numbersFrom, Spot.step_of_isNumberChar hw.1, Spot.settle_settle,
      numbersFrom_skip hw.2]
    congr 1
    omega

/-- **A number is told where it begins**, and what comes after it follows. -/
theorem numbersFrom_number {p : Spot} {pos : Nat} (hlive : p.isLive = true) (hne : w ≠ [])
    (hw : numberOf (w ++ rest) = w) :
    numbersFrom d p pos 0 (w ++ rest) = (pos, w) :: numbersFrom d p.settle (pos + w.length) 0 rest := by
  obtain ⟨c, w, rfl⟩ := List.exists_cons_of_ne_nil hne
  have hchars : ∀ x ∈ c :: w, isNumberChar x = true := by
    rw [← hw]
    exact isNumberChar_of_numberOf
  rw [List.forall_mem_cons] at hchars
  rw [List.cons_append] at hw ⊢
  rw [numbersFrom, if_pos ⟨hlive, by rw [hw]; exact hne⟩, hw, Spot.step_of_isNumberChar hchars.1,
    List.length_cons, Nat.add_sub_cancel, numbersFrom_skip hchars.2]
  congr 2
  omega

theorem numbersFrom_dead_cons {p : Spot} (hlive : p.isLive = false) (hc : isNumberChar c = true) {pos : Nat} :
    numbersFrom d p pos 0 (c :: rest) = numbersFrom d p.settle (pos + 1) 0 rest := by
  rw [numbersFrom_plain, Spot.step_of_isNumberChar hc]
  intro h
  rw [hlive] at h
  cases h

/-- No number begins inside of strings, comments and parentheses. -/
theorem numbersFrom_dead {p : Spot} (hlive : p.isLive = false) {pos : Nat} (hne : w ≠ [])
    (hw : ∀ c ∈ w, isNumberChar c = true) :
    numbersFrom d p pos 0 (w ++ rest) = numbersFrom d p.settle (pos + w.length) 0 rest := by
  -- by induction on the word, behind its first character
  have hsettled {w : List Char} : ∀ {pos : Nat}, (∀ c ∈ w, isNumberChar c = true) →
      numbersFrom d p.settle pos 0 (w ++ rest) = numbersFrom d p.settle (pos + w.length) 0 rest := by
    induction w with
    | nil => exact fun _ => rfl
    | cons c w ih =>
      intro pos hw
      rw [List.forall_mem_cons] at hw
      rw [List.cons_append, numbersFrom_dead_cons (by rw [Spot.isLive_settle, hlive]) hw.1, Spot.settle_settle,
        ih hw.2, List.length_cons, Nat.add_assoc, Nat.add_comm 1]
  obtain ⟨c, w, rfl⟩ := List.exists_cons_of_ne_nil hne
  rw [List.forall_mem_cons] at hw
  rw [List.cons_append, numbersFrom_dead_cons hlive hw.1, hsettled hw.2, List.length_cons, Nat.add_assoc,
    Nat.add_comm 1]

end HouseStyle.Numbers
