import HouseStyle.Proofs.Stylesheet.Ahead
import Mathlib.Order.Monotone.Basic

/-!
# Scanning does not see inert characters

Letters, digits and dots mean nothing to the scanning of a stylesheet. Where a stretch of such
characters has become a single one, strings, comments, interpolations and heads end at the places
that stood there before.

* `isInert`: a character that no scan stops at.
* `Shortens`: a text in which stretches of inert characters have become single ones, with the place
  where each of its places stood.
* `scanFrom_origin`, `skipTrivia_origin`, `findColon?_origin`: what a scan of the shortened text
  finds stood where the scan of the text finds it.
-/

namespace HouseStyle.Stylesheet

open Cursor (find skipWhile)

variable {d : Dialect} {src src' : Array Char} {i j : Nat}

/-! ### Inert characters -/

/-- The characters, besides white space, that a scan of a stylesheet looks for. -/
def scanSigns : List Char :=
  ['"', '\'', '\\', '#', '\x7b', '\x7d', '(', ')', '[', ']', ';', ':', '/', '*', '@']

/-- Whether no scan of a stylesheet stops at a character. -/
def isInert (c : Char) : Bool :=
  !isStyleBlank c && !scanSigns.contains c

theorem ne_of_inert {c x : Char} (h : isInert c = true) (hx : isInert x = false) : c ≠ x := by
  rintro rfl
  rw [h] at hx
  cases hx

theorem isQuote_of_inert {c : Char} (h : isInert c = true) : isQuote c = false := by
  simp only [isQuote, Bool.or_eq_false_iff, beq_eq_false_iff_ne]
  exact ⟨ne_of_inert h (by decide), ne_of_inert h (by decide)⟩

theorem isStyleBlank_of_inert {c : Char} (h : isInert c = true) : isStyleBlank c = false := by
  rw [isInert, Bool.and_eq_true, Bool.not_eq_true'] at h
  exact h.1

theorem opensGroup_of_inert {c : Char} (h : isInert c = true) : opensGroup c = false := by
  simp only [opensGroup, Bool.or_eq_false_iff, beq_eq_false_iff_ne]
  exact ⟨ne_of_inert h (by decide), ne_of_inert h (by decide)⟩

theorem closesGroup_of_inert {c : Char} (h : isInert c = true) : closesGroup c = false := by
  simp only [closesGroup, Bool.or_eq_false_iff, beq_eq_false_iff_ne]
  exact ⟨ne_of_inert h (by decide), ne_of_inert h (by decide)⟩

theorem endsHead_of_inert {c : Char} (h : isInert c = true) : endsHead c = false := by
  simp only [endsHead, Bool.or_eq_false_iff, beq_eq_false_iff_ne]
  exact ⟨⟨ne_of_inert h (by decide), ne_of_inert h (by decide)⟩, ne_of_inert h (by decide)⟩

theorem not_inert_of_quote {c : Char} (h : isQuote c = true) : isInert c = false := by
  rw [isQuote, Bool.or_eq_true, beq_iff_eq, beq_iff_eq] at h
  rcases h with rfl | rfl <;> decide

theorem not_inert_of_blank {c : Char} (h : isStyleBlank c = true) : isInert c = false := by
  rw [isInert, h]
  rfl

/-! ### Stretches of inert characters -/

/-- The characters between two places are inert. -/
def InertBetween (src : Array Char) (i j : Nat) : Prop :=
  ∀ k, i ≤ k → k < j → ∃ c, src[k]? = some c ∧ isInert c = true

theorem InertBetween.tail (h : InertBetween src i j) : InertBetween src (i + 1) j :=
  fun k hk => h k (Nat.le_of_succ_le hk)

/-- What moves on at inert characters does not tell the ends of a stretch apart. -/
theorem InertBetween.skip {α : Type} {f : Nat → α} (h : InertBetween src i j) (hij : i ≤ j)
    (hf : ∀ k c, k < j → src[k]? = some c → isInert c = true → f k = f (k + 1)) : f i = f j := by
  induction hk : j - i generalizing i with
  | zero =>
    obtain rfl : i = j := by omega
    rfl
  | succ k ih =>
    obtain ⟨c, hc, hinert⟩ := h i (Nat.le_refl i) (by omega)
    rw [hf i c (by omega) hc hinert]
    exact ih h.tail (by omega) (by omega)

section

variable {k : Nat} {c : Char}

theorem closingQuote?_of_inert {quote : Char} (hq : isQuote quote = true) (hc : src[k]? = some c)
    (h : isInert c = true) : closingQuote? src quote k = closingQuote? src quote (k + 1) := by
  rw [closingQuote?_of_char hc, if_neg (ne_of_inert h (by decide)),
    if_neg (ne_of_inert h (not_inert_of_quote hq)), if_neg (ne_of_inert h (by decide))]

theorem closingComment?_of_end (h : src.size ≤ k + 1) : closingComment? src k = none := by
  rw [closingComment?, dif_neg (Nat.not_lt.2 h)]

theorem closingComment?_of_inert (hc : src[k]? = some c) (h : isInert c = true) :
    closingComment? src k = closingComment? src (k + 1) := by
  cases hnext : src[k + 1]? with
  | none =>
    have hend := Array.getElem?_eq_none_iff.1 hnext
    rw [closingComment?_of_end hend, closingComment?_of_end (Nat.le_succ_of_le hend)]
  | some e => rw [closingComment?_of_chars hc hnext, if_neg fun hx => ne_of_inert h (by decide) hx.1]

theorem closingBrace_of_inert {start depth : Nat} (hc : src[k]? = some c) (h : isInert c = true) :
    closingBrace src start depth k = closingBrace src start depth (k + 1) := by
  rw [closingBrace_of_char hc, if_neg (by rw [isQuote_of_inert h]; decide),
    if_neg (ne_of_inert h (by decide)), if_neg (ne_of_inert h (by decide))]

theorem find_of_inert {stop : Nat} {target : Char} (hk : k < stop) (ht : isInert target = false)
    (hc : src[k]? = some c) (h : isInert c = true) : find src target stop k = find src target stop (k + 1) := by
  rw [find, if_pos hk, if_neg]
  rw [hc]
  exact fun heq => ne_of_inert h ht (Option.some.inj heq)

theorem opensInterpolation_of_inert (hc : src[k]? = some c) (h : isInert c = true) :
    opensInterpolation src k = false := by
  rw [opensInterpolation, hc, Bool.and_eq_false_iff]
  exact .inl (beq_eq_false_iff_ne.2 fun heq => ne_of_inert h (by decide) (Option.some.inj heq))

theorem quotedEnd?_of_inert (hc : src[k]? = some c) (h : isInert c = true) : quotedEnd? src k = .ok none := by
  rw [quotedEnd?, hc]
  simp only [isQuote_of_inert h, opensInterpolation_of_inert hc h, Bool.false_eq_true, if_false]

theorem commentEnd?_of_inert {lines : Bool} (hc : src[k]? = some c) (h : isInert c = true) :
    commentEnd? lines src k = .ok none := by
  rw [commentEnd?, hc, if_neg]
  exact fun heq => ne_of_inert h (by decide) (Option.some.inj heq)

theorem scanFrom_of_inert {depth : Nat} (hc : src[k]? = some c) (h : isInert c = true) :
    scanFrom d src depth k = scanFrom d src depth (k + 1) := by
  have hnone : opaqueEnd? d src depth k = .ok none := by
    rw [opaqueEnd?_eq_bind, quotedEnd?_of_inert hc h]
    exact commentEnd?_of_inert hc h
  rw [scanFrom_of_char hc, hnone]
  simp only [Except.bind, opensGroup_of_inert h, closesGroup_of_inert h, endsHead_of_inert h,
    Bool.false_eq_true, and_false, if_false]

theorem skipTrivia_of_inert (hc : src[k]? = some c) (h : isInert c = true) : skipTrivia d src k = .ok k :=
  skipTrivia_of_plain hc (isStyleBlank_of_inert h) (ne_of_inert h (by decide))

theorem findColon?_of_inert {stop : Nat} (hk : k < stop) (hc : src[k]? = some c) (h : isInert c = true) :
    findColon? src stop k = findColon? src stop (k + 1) := by
  rw [findColon?_of_lt hk, opensInterpolation_of_inert hc h, if_neg (by decide), hc, if_neg]
  exact fun heq => ne_of_inert h (by decide) (Option.some.inj heq)

end

/-! ### Shortened texts -/

/-- The character at a place of a shortened text is the one that stood there. -/
structure Kept (src src' : Array Char) (origin : Nat → Nat) (p : Nat) : Prop where
  char : src'[p]? = src[origin p]?
  succ : origin (p + 1) = origin p + 1

/-- The character at a place of a shortened text has taken the place of a stretch. -/
structure Shortened (src src' : Array Char) (origin : Nat → Nat) (p : Nat) : Prop where
  char : ∃ c, src'[p]? = some c ∧ isInert c = true
  stretch : InertBetween src (origin p) (origin (p + 1))

/-- **A text in which stretches of inert characters have become single ones.** Each of its places
stood at one of the text before. -/
structure Shortens (src src' : Array Char) (origin : Nat → Nat) : Prop where
  zero : origin 0 = 0
  size : origin src'.size = src.size
  lt : ∀ p, origin p < origin (p + 1)
  step : ∀ p < src'.size, Kept src src' origin p ∨ Shortened src src' origin p

namespace Shortens

variable {origin : Nat → Nat} {p q : Nat} (h : Shortens src src' origin)

include h

theorem strictMono : StrictMono origin :=
  strictMono_nat_of_lt_succ h.lt

theorem le_iff : origin p ≤ origin q ↔ p ≤ q :=
  h.strictMono.le_iff_le

theorem lt_iff : origin p < origin q ↔ p < q :=
  h.strictMono.lt_iff_lt

theorem lt_size_iff : origin p < src.size ↔ p < src'.size := by
  rw [← h.size, h.lt_iff]

theorem size_le_iff : src.size ≤ origin p ↔ src'.size ≤ p := by
  rw [← h.size, h.le_iff]

/-- A character that means something stands where it stood. -/
theorem char_iff {x : Char} (hx : isInert x = false) : src[origin p]? = some x ↔ src'[p]? = some x := by
  by_cases hp : p < src'.size
  · rcases h.step p hp with hkept | hshort
    · rw [hkept.char]
    · obtain ⟨c, hc, hinert⟩ := hshort.char
      obtain ⟨e, he, hinert'⟩ := hshort.stretch (origin p) (Nat.le_refl _) (h.lt p)
      rw [hc, he]
      exact ⟨fun heq => absurd (Option.some.inj heq) (ne_of_inert hinert' hx),
        fun heq => absurd (Option.some.inj heq) (ne_of_inert hinert hx)⟩
  · rw [Array.getElem?_eq_none (Nat.le_of_not_lt hp), Array.getElem?_eq_none (h.size_le_iff.2 (Nat.le_of_not_lt hp))]

theorem kept_of_char {x : Char} (hc : src'[p]? = some x) (hx : isInert x = false) : Kept src src' origin p := by
  rcases h.step p (Array.getElem?_eq_some_iff.1 hc).1 with hkept | hshort
  · exact hkept
  · obtain ⟨c, hc', hinert⟩ := hshort.char
    cases hc.symm.trans hc'
    exact absurd rfl (ne_of_inert hinert hx)

/-- A character that means something is passed over alike. -/
theorem succ_of_char {x : Char} (hc : src'[p]? = some x) (hx : isInert x = false) : origin (p + 1) = origin p + 1 :=
  (h.kept_of_char hc hx).succ

/-- A class of characters that mean something. -/
theorem any_iff {f : Char → Bool} (hf : ∀ c, f c = true → isInert c = false) :
    (src[origin p]?).any f = (src'[p]?).any f := by
  have hany {t : Array Char} {k : Nat} : (t[k]?).any f = true ↔ ∃ x, t[k]? = some x ∧ f x = true :=
    Option.any_eq_true _ _
  rw [Bool.eq_iff_iff, hany, hany]
  constructor
  · rintro ⟨x, hx, hfx⟩
    exact ⟨x, (h.char_iff (hf x hfx)).1 hx, hfx⟩
  · rintro ⟨x, hx, hfx⟩
    exact ⟨x, (h.char_iff (hf x hfx)).2 hx, hfx⟩

/-- What moves on at inert characters moves on alike over the character at a place. -/
theorem pass {α : Type} {f : Nat → α} (hp : p < src'.size)
    (hf : ∀ k c, k < origin (p + 1) → src[k]? = some c → isInert c = true → f k = f (k + 1)) :
    f (origin p + 1) = f (origin (p + 1)) := by
  rcases h.step p hp with hkept | hshort
  · rw [hkept.succ]
  · exact hshort.stretch.tail.skip (h.lt p) hf

end Shortens

/-- An answer about a shortened text, told of the text before. -/
def traced {α β : Type} (origin : Nat → Nat) (f : α → β) : Except ParseError α → Except ParseError β
  | .ok x => .ok (f x)
  | .error e => .error { e with offset := origin e.offset }

section

variable {α β γ δ : Type} {origin : Nat → Nat} {f : α → β}

@[simp] theorem traced_ok {x : α} : traced origin f (.ok x) = .ok (f x) := rfl

@[simp] theorem traced_error {e : ParseError} :
    traced origin f (.error e) = .error { e with offset := origin e.offset } := rfl

theorem traced_bind {x : Except ParseError α} {g : α → Except ParseError γ} {g' : β → Except ParseError δ}
    {k : γ → δ} (hg : ∀ a, x = .ok a → g' (f a) = traced origin k (g a)) :
    (traced origin f x).bind g' = traced origin k (x.bind g) := by
  cases x with
  | error e => rfl
  | ok a => exact hg a rfl

theorem traced_map {x : Except ParseError α} {g : α → γ} {g' : β → δ} {k : γ → δ}
    (hg : ∀ a, x = .ok a → g' (f a) = k (g a)) : (traced origin f x).map g' = traced origin k (x.map g) := by
  cases x with
  | error e => rfl
  | ok a => exact congrArg Except.ok (hg a rfl)

/-- An answer about the text before comes from one about the shortened text. -/
theorem of_traced_ok {x : Except ParseError α} {y : β} (h : traced origin f x = .ok y) :
    ∃ a, x = .ok a ∧ f a = y := by
  cases x with
  | error e => cases h
  | ok a => exact ⟨a, rfl, Except.ok.inj h⟩

end

/-! ### Strings, comments, interpolations -/

section

variable {origin : Nat → Nat} (h : Shortens src src' origin)

include h

theorem closingQuote?_origin {quote : Char} (hq : isQuote quote = true) (cursor : Nat) :
    closingQuote? src quote (origin cursor) = (closingQuote? src' quote cursor).map origin := by
  have hquote := not_inert_of_quote hq
  fun_induction closingQuote? src' quote cursor with
  | case1 cursor hlt hc ih =>
    have hchar : src'[cursor]? = some '\\' := by rw [Array.getElem?_eq_getElem hlt, hc]
    have hsucc := h.succ_of_char hchar (by decide)
    rw [closingQuote?_of_char ((h.char_iff (by decide)).2 hchar), if_pos rfl]
    -- the character after the backslash may stand for a stretch
    by_cases hnext : cursor + 1 < src'.size
    · rw [← ih, ← h.pass hnext fun k c _ => closingQuote?_of_inert hq, hsucc]
    · have hend : src.size ≤ origin (cursor + 1) := h.size_le_iff.2 (Nat.le_of_not_lt hnext)
      rw [closingQuote?, dif_neg (by omega), closingQuote?, dif_neg (by omega)]
      rfl
  | case2 cursor hlt hc hcq =>
    have hchar : src'[cursor]? = some quote := by rw [Array.getElem?_eq_getElem hlt, hcq]
    rw [hcq] at hc
    rw [closingQuote?_of_char ((h.char_iff hquote).2 hchar), if_neg hc, if_pos rfl, Option.map_some,
      h.succ_of_char hchar hquote]
  | case3 cursor hlt hc hcq hn =>
    have hchar : src'[cursor]? = some '\n' := by rw [Array.getElem?_eq_getElem hlt, hn]
    rw [hn] at hc hcq
    rw [closingQuote?_of_char ((h.char_iff (by decide)).2 hchar), if_neg hc, if_neg hcq, if_pos rfl]
    rfl
  | case4 cursor hlt hc hcq hn ih =>
    rcases h.step cursor hlt with hkept | hshort
    · have hchar := hkept.char
      rw [Array.getElem?_eq_getElem hlt] at hchar
      rw [closingQuote?_of_char hchar.symm, if_neg hc, if_neg hcq, if_neg hn, ← hkept.succ]
      exact ih
    · rw [hshort.stretch.skip (h.lt cursor).le fun k c _ => closingQuote?_of_inert hq]
      exact ih
  | case5 cursor hlt =>
    have := h.size_le_iff.2 (Nat.le_of_not_lt hlt)
    rw [closingQuote?, dif_neg (by omega)]
    rfl

theorem stringEnd_origin {quote : Char} {pos : Nat} (hc : src'[pos]? = some quote) (hq : isQuote quote = true) :
    stringEnd src quote (origin pos) = traced origin origin (stringEnd src' quote pos) := by
  unfold stringEnd
  rw [← h.succ_of_char hc (not_inert_of_quote hq), closingQuote?_origin h hq]
  cases closingQuote? src' quote (pos + 1) <;> rfl

theorem closingComment?_origin (cursor : Nat) :
    closingComment? src (origin cursor) = (closingComment? src' cursor).map origin := by
  fun_induction closingComment? src' cursor with
  | case1 cursor hlt hc =>
    have hstar : src'[cursor]? = some '*' := by rw [Array.getElem?_eq_getElem (Nat.lt_of_succ_lt hlt), hc.1]
    have hslash : src'[cursor + 1]? = some '/' := by rw [Array.getElem?_eq_getElem hlt, hc.2]
    have hsucc := h.succ_of_char hstar (by decide)
    have hslash' := (h.char_iff (by decide)).2 hslash
    rw [hsucc] at hslash'
    rw [closingComment?_of_chars ((h.char_iff (by decide)).2 hstar) hslash', if_pos ⟨rfl, rfl⟩, Option.map_some,
      h.succ_of_char hslash (by decide), hsucc]
  | case2 cursor hlt hc ih =>
    rcases h.step cursor (Nat.lt_of_succ_lt hlt) with hkept | hshort
    · have hchar := hkept.char
      rw [Array.getElem?_eq_getElem (Nat.lt_of_succ_lt hlt)] at hchar
      have hsize := h.lt_size_iff.2 hlt
      rw [hkept.succ] at hsize
      rw [closingComment?_of_chars hchar.symm (Array.getElem?_eq_getElem hsize), if_neg, ← hkept.succ]
      · exact ih
      · rintro ⟨hstar, hslash⟩
        -- the slash would stand in the shortened text too
        have hslash' : src[origin (cursor + 1)]? = some '/' := by
          rw [hkept.succ, Array.getElem?_eq_getElem hsize, hslash]
        rw [h.char_iff (by decide), Array.getElem?_eq_getElem hlt] at hslash'
        exact hc ⟨hstar, Option.some.inj hslash'⟩
    · rw [hshort.stretch.skip (h.lt cursor).le fun k c _ => closingComment?_of_inert]
      exact ih
  | case3 cursor hlt =>
    have hend : src.size ≤ origin (cursor + 1) := h.size_le_iff.2 (Nat.le_of_not_lt hlt)
    have hnone : closingComment? src (origin (cursor + 1)) = none := closingComment?_of_end (by omega)
    by_cases hlast : cursor < src'.size
    · rcases h.step cursor hlast with hkept | hshort
      · rw [closingComment?_of_end (by rw [← hkept.succ]; exact hend)]
        rfl
      · rw [hshort.stretch.skip (h.lt cursor).le fun k c _ => closingComment?_of_inert, hnone]
        rfl
    · have := h.size_le_iff.2 (Nat.le_of_not_lt hlast)
      rw [closingComment?_of_end (by omega)]
      rfl

theorem commentEnd_origin {pos : Nat} (hslash : src'[pos]? = some '/') (hstar : src'[pos + 1]? = some '*') :
    commentEnd src (origin pos) = traced origin origin (commentEnd src' pos) := by
  have hnext : origin (pos + 2) = origin pos + 2 := by
    rw [h.succ_of_char hstar (by decide), h.succ_of_char hslash (by decide)]
  unfold commentEnd
  rw [← hnext, closingComment?_origin h]
  cases closingComment? src' (pos + 2) <;> rfl

theorem opensInterpolation_origin (pos : Nat) :
    opensInterpolation src (origin pos) = opensInterpolation src' pos := by
  have hsign : src[origin pos]? = some '#' ↔ src'[pos]? = some '#' := h.char_iff (by decide)
  have hbrace : src[origin (pos + 1)]? = some '\x7b' ↔ src'[pos + 1]? = some '\x7b' := h.char_iff (by decide)
  unfold opensInterpolation
  rw [Bool.eq_iff_iff, Bool.and_eq_true, Bool.and_eq_true, beq_iff_eq, beq_iff_eq, beq_iff_eq, beq_iff_eq, hsign]
  refine and_congr_right fun hc => ?_
  rw [← hbrace, h.succ_of_char hc (by decide)]

theorem closingBrace_origin (pos depth cursor : Nat) :
    closingBrace src (origin pos) depth (origin cursor) =
      traced origin origin (closingBrace src' pos depth cursor) := by
  fun_induction closingBrace src' pos depth cursor with
  | case1 depth cursor hlt hq e hs =>
    have hchar := Array.getElem?_eq_getElem hlt
    rw [closingBrace_of_char ((h.char_iff (not_inert_of_quote hq)).2 hchar), if_pos hq,
      stringEnd_origin h hchar hq, hs]
    rfl
  | case2 depth cursor hlt hq next hs hb ih =>
    have hchar := Array.getElem?_eq_getElem hlt
    rw [closingBrace_of_char ((h.char_iff (not_inert_of_quote hq)).2 hchar), if_pos hq,
      stringEnd_origin h hchar hq, hs]
    exact ih
  | case3 depth cursor hlt hq hc ih =>
    have hchar : src'[cursor]? = some '\x7b' := by rw [Array.getElem?_eq_getElem hlt, hc]
    rw [closingBrace_of_char ((h.char_iff (by decide)).2 hchar), if_neg (by decide), if_pos rfl,
      ← h.succ_of_char hchar (by decide)]
    exact ih
  | case4 cursor hlt hq hc hb =>
    have hchar : src'[cursor]? = some '\x7d' := by rw [Array.getElem?_eq_getElem hlt, hb]
    rw [closingBrace_of_char ((h.char_iff (by decide)).2 hchar), if_neg (by decide), if_neg (by decide),
      if_pos rfl, if_pos rfl, ← h.succ_of_char hchar (by decide)]
    rfl
  | case5 depth cursor hlt hq hc hb hd ih =>
    have hchar : src'[cursor]? = some '\x7d' := by rw [Array.getElem?_eq_getElem hlt, hb]
    rw [closingBrace_of_char ((h.char_iff (by decide)).2 hchar), if_neg (by decide), if_neg (by decide),
      if_pos rfl, if_neg hd, ← h.succ_of_char hchar (by decide)]
    exact ih
  | case6 depth cursor hlt hq hc hb ih =>
    rcases h.step cursor hlt with hkept | hshort
    · have hchar := hkept.char
      rw [Array.getElem?_eq_getElem hlt] at hchar
      rw [closingBrace_of_char hchar.symm, if_neg hq, if_neg hc, if_neg hb, ← hkept.succ]
      exact ih
    · rw [hshort.stretch.skip (h.lt cursor).le fun k c _ => closingBrace_of_inert]
      exact ih
  | case7 depth cursor hlt =>
    have := h.size_le_iff.2 (Nat.le_of_not_lt hlt)
    rw [closingBrace, dif_neg (by omega)]
    rfl

theorem interpolationEnd_origin {pos : Nat} (hc : src'[pos]? = some '#') :
    interpolationEnd src (origin pos) = traced origin origin (interpolationEnd src' pos) := by
  unfold interpolationEnd
  rw [← h.succ_of_char hc (by decide)]
  exact closingBrace_origin h pos 0 (pos + 1)

theorem quotedEnd?_origin (pos : Nat) :
    quotedEnd? src (origin pos) = traced origin (Option.map origin) (quotedEnd? src' pos) := by
  cases hc : src'[pos]? with
  | none =>
    have hend := h.size_le_iff.2 (Array.getElem?_eq_none_iff.1 hc)
    rw [quotedEnd?, quotedEnd?, hc, Array.getElem?_eq_none hend]
    rfl
  | some c =>
    rcases h.step pos (Array.getElem?_eq_some_iff.1 hc).1 with hkept | hshort
    · have hchar := hkept.char
      rw [hc] at hchar
      simp only [quotedEnd?, hc, ← hchar, opensInterpolation_origin h]
      split
      · rw [stringEnd_origin h hc ‹_›]
        exact traced_map fun _ _ => rfl
      · split
        · rename_i ho
          rw [opensInterpolation, Bool.and_eq_true, beq_iff_eq] at ho
          rw [interpolationEnd_origin h ho.1]
          exact traced_map fun _ _ => rfl
        · rfl
    · obtain ⟨e, he, hinert⟩ := hshort.char
      obtain ⟨e', he', hinert'⟩ := hshort.stretch (origin pos) (Nat.le_refl _) (h.lt pos)
      rw [quotedEnd?_of_inert he hinert, quotedEnd?_of_inert he' hinert']
      rfl

/-! ### Comments, heads, trivia -/

theorem find_origin {target : Char} (ht : isInert target = false) {stop : Nat} (hstop : stop ≤ src'.size)
    (cursor : Nat) : find src target (origin stop) (origin cursor) = origin (find src' target stop cursor) := by
  fun_induction find src' target stop cursor with
  | case1 cursor hlt hc => rw [find, if_pos (h.lt_iff.2 hlt), if_pos ((h.char_iff ht).2 hc)]
  | case2 cursor hlt hc ih =>
    rcases h.step cursor (Nat.lt_of_lt_of_le hlt hstop) with hkept | hshort
    · rw [find, if_pos (h.lt_iff.2 hlt), if_neg (mt (h.char_iff ht).1 hc), ← hkept.succ]
      exact ih
    · have hle : origin (cursor + 1) ≤ origin stop := h.le_iff.2 hlt
      rw [hshort.stretch.skip (h.lt cursor).le fun k c hk => find_of_inert (by omega) ht]
      exact ih
  | case3 cursor hlt => rw [find, if_neg (mt h.lt_iff.1 hlt)]

theorem commentEnd?_origin (lines : Bool) (pos : Nat) :
    commentEnd? lines src (origin pos) = traced origin (Option.map origin) (commentEnd? lines src' pos) := by
  have hslash : src[origin pos]? = some '/' ↔ src'[pos]? = some '/' := h.char_iff (by decide)
  unfold commentEnd?
  by_cases hc : src'[pos]? = some '/'
  · have hstar : src[origin (pos + 1)]? = some '*' ↔ src'[pos + 1]? = some '*' := h.char_iff (by decide)
    have hslash' : src[origin (pos + 1)]? = some '/' ↔ src'[pos + 1]? = some '/' := h.char_iff (by decide)
    rw [if_pos (hslash.2 hc), if_pos hc, ← h.succ_of_char hc (by decide)]
    simp only [hstar, hslash']
    split
    · rw [commentEnd_origin h hc ‹_›]
      exact traced_map fun _ _ => rfl
    · split
      · rw [traced_ok, Option.map_some, ← find_origin h (by decide) (Nat.le_refl _), h.size]
      · rfl
  · rw [if_neg (mt hslash.1 hc), if_neg hc]
    rfl

theorem opaqueEnd?_origin (depth pos : Nat) :
    opaqueEnd? d src depth (origin pos) = traced origin (Option.map origin) (opaqueEnd? d src' depth pos) := by
  rw [opaqueEnd?_eq_bind, opaqueEnd?_eq_bind, quotedEnd?_origin h]
  refine traced_bind fun stop? _ => ?_
  cases stop? with
  | some stop => rfl
  | none => exact commentEnd?_origin h _ pos

/-- **A head ends where it ended.** -/
theorem scanFrom_origin (depth pos : Nat) : scanFrom d src depth (origin pos) =
    traced origin (fun (stop, c) => (origin stop, c)) (scanFrom d src' depth pos) := by
  have hchar {pos : Nat} (hlt : pos < src'.size) (hkept : Kept src src' origin pos) :
      src[origin pos]? = some src'[pos] := hkept.char.symm.trans (Array.getElem?_eq_getElem hlt)
  -- a character that is not inert was kept
  have hkept {pos : Nat} (hlt : pos < src'.size) (hne : ¬ isInert src'[pos] = true) : Kept src src' origin pos :=
    h.kept_of_char (Array.getElem?_eq_getElem hlt) (Bool.eq_false_iff.2 hne)
  have hplain {depth pos : Nat} (hlt : pos < src'.size) (hi : isInert src'[pos] = true) :
      opaqueEnd? d src' depth pos = .ok none := by
    rw [opaqueEnd?_eq_bind, quotedEnd?_of_inert (Array.getElem?_eq_getElem hlt) hi]
    exact commentEnd?_of_inert (Array.getElem?_eq_getElem hlt) hi
  fun_induction scanFrom d src' depth pos with
  | case1 depth pos hlt e hn =>
    have hk := hkept hlt fun hi => by rw [hplain hlt hi] at hn; cases hn
    rw [scanFrom_of_char (hchar hlt hk), opaqueEnd?_origin h, hn]
    rfl
  | case2 depth pos hlt next hn hb ih =>
    have hk := hkept hlt fun hi => by rw [hplain hlt hi] at hn; cases hn
    rw [scanFrom_of_char (hchar hlt hk), opaqueEnd?_origin h, hn]
    exact ih
  | case3 depth pos hlt hn hg ih =>
    have hk := hkept hlt fun hi => by rw [opensGroup_of_inert hi] at hg; cases hg
    rw [scanFrom_of_char (hchar hlt hk), opaqueEnd?_origin h, hn]
    simp only [traced_ok, Option.map_none, Except.bind, if_pos hg, ← hk.succ]
    exact ih
  | case4 depth pos hlt hn hg hg' ih =>
    have hk := hkept hlt fun hi => by rw [closesGroup_of_inert hi] at hg'; cases hg'
    rw [scanFrom_of_char (hchar hlt hk), opaqueEnd?_origin h, hn]
    simp only [traced_ok, Option.map_none, Except.bind, if_neg hg, if_pos hg', ← hk.succ]
    exact ih
  | case5 depth pos hlt hn hg hg' hend =>
    have hk := hkept hlt fun hi => by rw [endsHead_of_inert hi] at hend; cases hend.2
    rw [scanFrom_of_char (hchar hlt hk), opaqueEnd?_origin h, hn]
    simp only [traced_ok, Option.map_none, Except.bind, if_neg hg, if_neg hg', if_pos hend]
  | case6 depth pos hlt hn hg hg' hend ih =>
    rcases h.step pos hlt with hk | hshort
    · rw [scanFrom_of_char (hchar hlt hk), opaqueEnd?_origin h, hn]
      simp only [traced_ok, Option.map_none, Except.bind, if_neg hg, if_neg hg', if_neg hend, ← hk.succ]
      exact ih
    · rw [hshort.stretch.skip (h.lt pos).le fun k c _ => scanFrom_of_inert]
      exact ih
  | case7 depth pos hlt =>
    have hend := h.size_le_iff.2 (Nat.le_of_not_lt hlt)
    rw [scanFrom, dif_neg (Nat.not_lt.2 hend), ← h.size]
    rfl

theorem scan_origin (pos : Nat) : scan d src (origin pos) =
    traced origin (fun (stop, c) => (origin stop, c)) (scan d src' pos) :=
  scanFrom_origin h 0 pos

/-- **Trivia ends where it ended.** -/
theorem skipTrivia_origin (pos : Nat) :
    skipTrivia d src (origin pos) = traced origin origin (skipTrivia d src' pos) := by
  -- a character that is white space or begins a comment was kept
  have hblank {pos : Nat} (hlt : pos < src'.size) (hc : isStyleBlank src'[pos] = true) :
      src[origin pos]? = some src'[pos] ∧ origin (pos + 1) = origin pos + 1 :=
    ⟨(h.char_iff (not_inert_of_blank hc)).2 (Array.getElem?_eq_getElem hlt),
      h.succ_of_char (Array.getElem?_eq_getElem hlt) (not_inert_of_blank hc)⟩
  have hother {pos : Nat} (hlt : pos < src'.size) (hc : ¬ isStyleBlank src'[pos] = true) :
      ∃ c, src[origin pos]? = some c ∧ ¬ isStyleBlank c = true := by
    have hsize := h.lt_size_iff.2 hlt
    have hany := h.any_iff (p := pos) fun _ => not_inert_of_blank
    rw [Array.getElem?_eq_getElem hsize, Array.getElem?_eq_getElem hlt, Option.any_some, Option.any_some] at hany
    exact ⟨_, Array.getElem?_eq_getElem hsize, by rw [hany]; exact hc⟩
  fun_induction skipTrivia d src' pos with
  | case1 pos hlt hc ih =>
    obtain ⟨hchar, hsucc⟩ := hblank hlt hc
    rw [skipTrivia_of_char hchar, if_pos hc, ← hsucc]
    exact ih
  | case2 pos hlt hc e hn =>
    obtain ⟨_, hchar, hsolid⟩ := hother hlt hc
    rw [skipTrivia_of_char hchar, if_neg hsolid, commentEnd?_origin h, hn]
    rfl
  | case3 pos hlt hc next hn hb ih =>
    obtain ⟨_, hchar, hsolid⟩ := hother hlt hc
    rw [skipTrivia_of_char hchar, if_neg hsolid, commentEnd?_origin h, hn]
    exact ih
  | case4 pos hlt hc hn =>
    obtain ⟨_, hchar, hsolid⟩ := hother hlt hc
    rw [skipTrivia_of_char hchar, if_neg hsolid, commentEnd?_origin h, hn]
    rfl
  | case5 pos hlt => rw [skipTrivia_of_end (h.size_le_iff.2 (Nat.le_of_not_lt hlt)), traced_ok]

/-! ### White space and colons -/

theorem skipWhile_origin (stop cursor : Nat) :
    skipWhile isStyleBlank src (origin stop) (origin cursor) = origin (skipWhile isStyleBlank src' stop cursor) := by
  have hany (k : Nat) : (src[origin k]?).any isStyleBlank = (src'[k]?).any isStyleBlank :=
    h.any_iff fun _ => not_inert_of_blank
  fun_induction skipWhile isStyleBlank src' stop cursor with
  | case1 cursor hc ih =>
    obtain ⟨c, hchar, hblank⟩ := (Option.any_eq_true _ _).1 hc.2
    rw [skipWhile, if_pos ⟨h.lt_iff.2 hc.1, by rw [hany]; exact hc.2⟩,
      ← h.succ_of_char hchar (not_inert_of_blank hblank)]
    exact ih
  | case2 cursor hc =>
    rw [skipWhile, if_neg]
    rw [hany, h.lt_iff]
    exact hc

theorem trimEnd_origin (start stop : Nat) :
    trimEnd src (origin start) (origin stop) = origin (trimEnd src' start stop) := by
  induction stop with
  | zero => rw [h.zero, trimEnd, trimEnd, h.zero]
  | succ m ih =>
    obtain ⟨k, hk⟩ := Nat.exists_eq_add_one.2 (Nat.lt_of_le_of_lt (Nat.zero_le _) (h.lt m))
    have hkm : origin m ≤ k := by have := h.lt m; omega
    by_cases hblank : (src'[m]?).any isStyleBlank = true
    · -- white space was kept
      obtain ⟨c, hchar, hc⟩ := (Option.any_eq_true _ _).1 hblank
      have hchar' : src[origin m]? = some c := (h.char_iff (not_inert_of_blank hc)).2 hchar
      rw [h.succ_of_char hchar (not_inert_of_blank hc), trimEnd, trimEnd, hchar', hchar]
      simp only [h.le_iff]
      split
      · exact ih
      · rw [h.succ_of_char hchar (not_inert_of_blank hc)]
    · -- what stands before the end is no white space
      have hlast : ¬ (src[k]?).any isStyleBlank = true := by
        by_cases hm : m < src'.size
        · rcases h.step m hm with hkept | hshort
          · have hsucc := hkept.succ
            obtain rfl : k = origin m := by omega
            rwa [← hkept.char]
          · obtain ⟨c, hc, hinert⟩ := hshort.stretch k hkm (by omega)
            rw [hc, Option.any_some, isStyleBlank_of_inert hinert]
            decide
        · have := h.size_le_iff.2 (Nat.le_of_not_lt hm)
          rw [Array.getElem?_eq_none (by omega)]
          decide
      rw [hk, trimEnd, if_neg fun hx => hlast hx.2, trimEnd, if_neg fun hx => hblank hx.2, hk]

theorem findColon?_origin {stop : Nat} (hstop : stop ≤ src'.size) (pos : Nat) :
    findColon? src (origin stop) (origin pos) = traced origin (Option.map origin) (findColon? src' stop pos) := by
  have hsign {pos : Nat} (ho : opensInterpolation src' pos = true) : src'[pos]? = some '#' := by
    rw [opensInterpolation, Bool.and_eq_true, beq_iff_eq] at ho
    exact ho.1
  fun_induction findColon? src' stop pos with
  | case1 pos hlt ho e hn =>
    rw [findColon?_of_lt (h.lt_iff.2 hlt), opensInterpolation_origin h, if_pos ho,
      interpolationEnd_origin h (hsign ho), hn]
    rfl
  | case2 pos hlt ho next hn hb ih =>
    rw [findColon?_of_lt (h.lt_iff.2 hlt), opensInterpolation_origin h, if_pos ho,
      interpolationEnd_origin h (hsign ho), hn]
    exact ih
  | case3 pos hlt ho hc =>
    rw [findColon?_of_lt (h.lt_iff.2 hlt), opensInterpolation_origin h, if_neg ho,
      if_pos ((h.char_iff (by decide)).2 hc)]
    rfl
  | case4 pos hlt ho hc ih =>
    rcases h.step pos (Nat.lt_of_lt_of_le hlt hstop) with hkept | hshort
    · rw [findColon?_of_lt (h.lt_iff.2 hlt), opensInterpolation_origin h, if_neg ho,
        if_neg (mt (h.char_iff (by decide)).1 hc), ← hkept.succ]
      exact ih
    · have hle : origin (pos + 1) ≤ origin stop := h.le_iff.2 hlt
      rw [hshort.stretch.skip (h.lt pos).le fun k c hk => findColon?_of_inert (by omega)]
      exact ih
  | case5 pos hlt =>
    rw [findColon?, dif_neg (mt h.lt_iff.1 hlt)]
    rfl

end

end HouseStyle.Stylesheet
