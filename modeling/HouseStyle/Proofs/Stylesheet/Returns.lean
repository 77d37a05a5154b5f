import HouseStyle.Proofs.Stylesheet.Closing
import HouseStyle.Proofs.Stylesheet.Shortening
import Mathlib.Data.List.Count
import Mathlib.Data.Option.Basic

/-!
# Scanning a text with carriage returns

A carriage return is white space to the scanning of a stylesheet. Where each line feed of a text has
been given one in front, comments, interpolations and heads end at the places that stood there
before. Strings do too, unless they go on over a line feed: a backslash takes one character with it,
which is then the carriage return, and the line feed behind it ends the search for the closing quote.

* `withReturns`: a text whose lines end in carriage return and line feed, and `placeWithReturns`, where
  its places went.
* `Crosses`: a string that goes on over a line feed.
* `Follows`: an answer about the text with carriage returns that follows from one about the text.
* `scanFrom_widened`, `skipTrivia_widened`, `findColon?_widened`: every scan follows.
-/

namespace HouseStyle.Stylesheet

open Cursor (find skipWhile)

variable {d : Dialect} {src src' : Array Char} {place : Nat → Nat}

/-! ### Texts with carriage returns -/

/-- A character, with a carriage return in front if it is a line feed. -/
def withReturn (c : Char) : List Char :=
  if c = '\n' then ['\r', '\n'] else [c]

/-- A text with a carriage return in front of each line feed. -/
def withReturns (src : Array Char) : Array Char :=
  (src.toList.flatMap withReturn).toArray

/-- Where a place of a text goes when each line feed is given a carriage return. -/
def placeWithReturns (src : Array Char) (p : Nat) : Nat :=
  p + (src.toList.take p).count '\n'

/-- **A text whose line feeds were given a carriage return**, with the place where each of its places
went. -/
structure Widens (src src' : Array Char) (place : Nat → Nat) : Prop where
  zero : place 0 = 0
  size : place src.size = src'.size
  lt : ∀ p, place p < place (p + 1)
  kept : ∀ p c, src[p]? = some c → c ≠ '\n' → src'[place p]? = some c ∧ place (p + 1) = place p + 1
  feed : ∀ p, src[p]? = some '\n' →
    src'[place p]? = some '\r' ∧ src'[place p + 1]? = some '\n' ∧ place (p + 1) = place p + 2

theorem length_flatMap_withReturn (cs : List Char) :
    (cs.flatMap withReturn).length = cs.length + cs.count '\n' := by
  induction cs with
  | nil => rfl
  | cons c cs ih =>
    rw [List.flatMap_cons, List.length_append, ih, List.length_cons, List.count_cons, withReturn]
    by_cases hc : c = '\n' <;> simp [hc] <;> omega

/-- The characters from a place on went to the place that is told. -/
theorem getElem?_withReturns {p : Nat} {c : Char} (h : src[p]? = some c) {k : Nat} (hk : k < (withReturn c).length) :
    (withReturns src)[placeWithReturns src p + k]? = (withReturn c)[k]? := by
  rw [← Array.getElem?_toList] at h
  obtain ⟨hlt, rfl⟩ := List.getElem?_eq_some_iff.1 h
  have hplace : placeWithReturns src p = ((src.toList.take p).flatMap withReturn).length := by
    rw [length_flatMap_withReturn, List.length_take, Nat.min_eq_left hlt.le, placeWithReturns]
  have hsplit : (withReturns src).toList = (src.toList.take p).flatMap withReturn ++
      (withReturn src.toList[p] ++ (src.toList.drop (p + 1)).flatMap withReturn) := by
    rw [← List.flatMap_cons, ← List.drop_eq_getElem_cons hlt, ← List.flatMap_append, List.take_append_drop]
    rfl
  rw [← Array.getElem?_toList, hsplit, hplace, List.getElem?_append_right (Nat.le_add_right _ _),
    Nat.add_sub_cancel_left, List.getElem?_append_left hk]

theorem placeWithReturns_succ {p : Nat} {c : Char} (h : src[p]? = some c) :
    placeWithReturns src (p + 1) = placeWithReturns src p + (withReturn c).length := by
  rw [← Array.getElem?_toList] at h
  rw [placeWithReturns, placeWithReturns, List.take_add_one, h, Option.toList_some, List.count_append, withReturn]
  by_cases hc : c = '\n' <;> simp [hc] <;> omega

theorem widens_withReturns (src : Array Char) : Widens src (withReturns src) (placeWithReturns src) where
  zero := rfl
  size := by
    rw [placeWithReturns, ← Array.length_toList, List.take_length, ← length_flatMap_withReturn]
    rfl
  lt p := by
    have hle := (List.take_prefix_take_left (l := src.toList) (Nat.le_add_right p 1)).sublist.count_le '\n'
    rw [placeWithReturns, placeWithReturns]
    omega
  kept p c hc hne := by
    have hreturn : withReturn c = [c] := if_neg hne
    have hchar := getElem?_withReturns hc (k := 0) (by rw [hreturn]; exact Nat.one_pos)
    rw [hreturn] at hchar
    refine ⟨hchar, ?_⟩
    rw [placeWithReturns_succ hc, hreturn]
    rfl
  feed p hc :=
    ⟨getElem?_withReturns hc (k := 0) (by decide), getElem?_withReturns hc (k := 1) (by decide),
      placeWithReturns_succ hc⟩

theorem ne_of_blank {c x : Char} (h : isStyleBlank c = true) (hx : isStyleBlank x = false) : c ≠ x := by
  rintro rfl
  rw [h] at hx
  cases hx

namespace Widens

variable {p q : Nat} (h : Widens src src' place)

include h

theorem strictMono : StrictMono place :=
  strictMono_nat_of_lt_succ h.lt

theorem le_iff : place p ≤ place q ↔ p ≤ q :=
  h.strictMono.le_iff_le

theorem lt_iff : place p < place q ↔ p < q :=
  h.strictMono.lt_iff_lt

theorem size_le_iff : src'.size ≤ place p ↔ src.size ≤ p := by
  rw [← h.size, h.le_iff]

theorem char_none (hc : src[p]? = none) : src'[place p]? = none :=
  Array.getElem?_eq_none (h.size_le_iff.2 (Array.getElem?_eq_none_iff.1 hc))

/-- The character at a place, for what does not tell a carriage return from a line feed. -/
theorem any {f : Char → Bool} (hf : f '\r' = f '\n') (p : Nat) : (src'[place p]?).any f = (src[p]?).any f := by
  cases hc : src[p]? with
  | none => rw [h.char_none hc]
  | some c =>
    by_cases hfeed : c = '\n'
    · subst hfeed
      rw [(h.feed p hc).1]
      exact hf
    · rw [(h.kept p c hc hfeed).1]

/-- A character that is no white space stands where it stood. -/
theorem char_iff {x : Char} (hx : isStyleBlank x = false) : src'[place p]? = some x ↔ src[p]? = some x := by
  have hne {c : Char} (hc : isStyleBlank c = true) : (c == x) = false := beq_eq_false_iff_ne.2 (ne_of_blank hc hx)
  have hany := h.any (f := (· == x)) (by rw [hne (by decide), hne (by decide)]) p
  rw [Bool.eq_iff_iff, Option.any_eq_true, Option.any_eq_true] at hany
  simpa only [beq_iff_eq, exists_eq_right] using hany

theorem succ_of_char {c : Char} (hc : src[p]? = some c) (hn : c ≠ '\n') : place (p + 1) = place p + 1 :=
  (h.kept p c hc hn).2

/-- What moves on at white space moves on over a line feed and its carriage return. -/
theorem pass {α : Type} {f : Nat → α} (hc : src[p]? = some '\n')
    (hf : ∀ k c, k < place (p + 1) → src'[k]? = some c → isStyleBlank c = true → f k = f (k + 1)) :
    f (place p) = f (place (p + 1)) := by
  obtain ⟨hreturn, hfeed, hsucc⟩ := h.feed p hc
  rw [hf _ _ (by omega) hreturn (by decide), hf _ _ (by omega) hfeed (by decide), hsucc]

end Widens

/-! ### Answers that follow -/

/-- The string that starts at a place goes on over a line feed before it ends. -/
def Crosses (src : Array Char) (pos : Nat) : Prop :=
  ∃ quote stop k, src[pos]? = some quote ∧ isQuote quote = true ∧
    closingQuote? src quote (pos + 1) = some stop ∧ pos < k ∧ k < stop ∧ src[k]? = some '\n'

/-- **An answer about a text with carriage returns that follows from one about the text**: related
answers, the same fault where its place went, or the fault of a string that crosses a line feed. -/
inductive Follows {α β : Type} (src : Array Char) (place : Nat → Nat) (R : α → β → Prop) :
    Except ParseError α → Except ParseError β → Prop
  | ok {a : α} {b : β} (related : R a b) : Follows src place R (.ok a) (.ok b)
  | error (e : ParseError) : Follows src place R (.error e) (.error { e with offset := place e.offset })
  | cut {x : Except ParseError α} {pos : Nat} (crosses : Crosses src pos) :
      Follows src place R x (.error ⟨place pos, .unterminatedString⟩)

section

variable {α β γ δ : Type} {R : α → β → Prop} {S : γ → δ → Prop}
  {x : Except ParseError α} {y : Except ParseError β}

theorem Follows.bind {f : α → Except ParseError γ} {g : β → Except ParseError δ} (h : Follows src place R x y)
    (hfg : ∀ a b, x = .ok a → R a b → Follows src place S (f a) (g b)) :
    Follows src place S (x.bind f) (y.bind g) := by
  cases h with
  | ok related => exact hfg _ _ rfl related
  | error e => exact .error e
  | cut crosses => exact .cut crosses

theorem Follows.of_error {e : ParseError} {g : β → Except ParseError δ} (h : Follows src place R x y)
    (hx : x = .error e) : Follows src place S (.error e) (y.bind g) := by
  subst hx
  cases h with
  | error e => exact .error e
  | cut crosses => exact .cut crosses

theorem Follows.of_ok {a : α} {z : Except ParseError γ} {g : β → Except ParseError δ}
    (h : Follows src place R x y) (hx : x = .ok a) (hg : ∀ b, R a b → Follows src place S z (g b)) :
    Follows src place S z (y.bind g) := by
  subst hx
  cases h with
  | ok related => exact hg _ related
  | cut crosses => exact .cut crosses

theorem Follows.map {f : α → γ} {g : β → δ} (h : Follows src place R x y) (hfg : ∀ a b, R a b → S (f a) (g b)) :
    Follows src place S (x.map f) (y.map g) := by
  cases h with
  | ok related => exact .ok (hfg _ _ related)
  | error e => exact .error e
  | cut crosses => exact .cut crosses

end

/-- A place of the text with carriage returns where one of the text went, or the line feed behind the
carriage return there. -/
def Lands (src : Array Char) (place : Nat → Nat) (a b : Nat) : Prop :=
  b = place a ∨ (src[a]? = some '\n' ∧ b = place a + 1)

/-- What moves on at white space does not tell the two apart. -/
theorem Lands.eq_of_blank {α : Type} {f : Nat → α} {a b : Nat} (hlands : Lands src place a b)
    (h : Widens src src' place)
    (hf : ∀ k c, src'[k]? = some c → isStyleBlank c = true → f k = f (k + 1)) : f b = f (place a) := by
  rcases hlands with rfl | ⟨hc, rfl⟩
  · rfl
  · exact (hf _ _ (h.feed a hc).1 (by decide)).symm

/-! ### Strings, comments, interpolations -/

section

variable {k : Nat} {c : Char}

theorem isQuote_of_blank (h : isStyleBlank c = true) : isQuote c = false := by
  simp only [isStyleBlank, Bool.or_eq_true, beq_iff_eq] at h
  rcases h with (((rfl | rfl) | rfl) | rfl) | rfl <;> decide

theorem closingComment?_of_blank (hc : src[k]? = some c) (h : isStyleBlank c = true) :
    closingComment? src k = closingComment? src (k + 1) := by
  cases hnext : src[k + 1]? with
  | none =>
    have hend := Array.getElem?_eq_none_iff.1 hnext
    rw [closingComment?_of_end hend, closingComment?_of_end (Nat.le_succ_of_le hend)]
  | some e => rw [closingComment?_of_chars hc hnext, if_neg fun hx => ne_of_blank h (by decide) hx.1]

theorem closingBrace_of_blank {start depth : Nat} (hc : src[k]? = some c) (h : isStyleBlank c = true) :
    closingBrace src start depth k = closingBrace src start depth (k + 1) := by
  rw [closingBrace_of_char hc, if_neg (by rw [isQuote_of_blank h]; decide),
    if_neg (ne_of_blank h (by decide)), if_neg (ne_of_blank h (by decide))]

theorem quotedEnd?_of_blank (hc : src[k]? = some c) (h : isStyleBlank c = true) : quotedEnd? src k = .ok none := by
  have hplain : opaqueEnd? .css src 0 k = .ok none := opaqueEnd?_of_blank hc h
  rw [opaqueEnd?] at hplain
  split at hplain
  · cases hplain
  · cases hplain
  · assumption

theorem opensInterpolation_of_blank (hc : src[k]? = some c) (h : isStyleBlank c = true) :
    opensInterpolation src k = false := by
  rw [opensInterpolation, hc, Bool.and_eq_false_iff]
  exact .inl (beq_eq_false_iff_ne.2 fun heq => ne_of_blank h (by decide) (Option.some.inj heq))

theorem find_of_blank {target : Char} {stop : Nat} (hk : k < stop) (ht : isStyleBlank target = false)
    (hc : src[k]? = some c) (h : isStyleBlank c = true) : find src target stop k = find src target stop (k + 1) := by
  rw [find, if_pos hk, if_neg]
  rw [hc]
  exact fun heq => ne_of_blank h ht (Option.some.inj heq)

theorem findColon?_of_blank {stop : Nat} (hk : k < stop) (hc : src[k]? = some c) (h : isStyleBlank c = true) :
    findColon? src stop k = findColon? src stop (k + 1) := by
  rw [findColon?_of_lt hk, opensInterpolation_of_blank hc h, if_neg (by decide), hc, if_neg]
  exact fun heq => ne_of_blank h (by decide) (Option.some.inj heq)

theorem scanFrom_of_blank {depth : Nat} (hc : src[k]? = some c) (h : isStyleBlank c = true) :
    scanFrom d src depth k = scanFrom d src depth (k + 1) := by
  obtain ⟨hopens, hcloses⟩ := not_group_of_blank h
  have hends : endsHead c = false := by
    simp only [endsHead, Bool.or_eq_false_iff, beq_eq_false_iff_ne]
    exact ⟨⟨ne_of_blank h (by decide), ne_of_blank h (by decide)⟩, ne_of_blank h (by decide)⟩
  rw [scanFrom_of_char hc, opaqueEnd?_of_blank hc h]
  simp only [Except.bind, hopens, hcloses, hends, Bool.false_eq_true, and_false, if_false]

theorem skipTrivia_of_blank (hc : src[k]? = some c) (h : isStyleBlank c = true) :
    skipTrivia d src k = skipTrivia d src (k + 1) := by
  rw [skipTrivia_of_char hc, if_pos h]

end

section

variable (h : Widens src src' place)

include h

/-- The search for a closing quote ends where it ended, unless it went on over a line feed. -/
theorem closingQuote?_widened {quote : Char} (hq : isQuote quote = true) (cursor : Nat) :
    closingQuote? src' quote (place cursor) = (closingQuote? src quote cursor).map place ∨
      (closingQuote? src' quote (place cursor) = none ∧ ∃ stop k,
        closingQuote? src quote cursor = some stop ∧ cursor ≤ k ∧ k < stop ∧ src[k]? = some '\n') := by
  have hfeedquote : '\n' ≠ quote := by
    rintro rfl
    cases hq
  have hreturn : '\r' ≠ quote := by
    rintro rfl
    cases hq
  -- what holds from a place on holds from one before
  have hback {i j : Nat} (hij : i ≤ j) {found : Option Nat} (hx : ∃ stop k,
      found = some stop ∧ j ≤ k ∧ k < stop ∧ src[k]? = some '\n') :
      ∃ stop k, found = some stop ∧ i ≤ k ∧ k < stop ∧ src[k]? = some '\n' := by
    obtain ⟨stop, k, hfound, hjk, hk, hc⟩ := hx
    exact ⟨stop, k, hfound, Nat.le_trans hij hjk, hk, hc⟩
  fun_induction closingQuote? src quote cursor with
  | case1 cursor hlt hc ih =>
    have hchar : src[cursor]? = some '\\' := by rw [Array.getElem?_eq_getElem hlt, hc]
    obtain ⟨hchar', hsucc⟩ := h.kept _ _ hchar (by decide)
    rw [closingQuote?_of_char hchar', if_pos rfl]
    cases hnext : src[cursor + 1]? with
    | none =>
      have hend := Array.getElem?_eq_none_iff.1 hnext
      have hend' := h.size_le_iff.2 hend
      rw [closingQuote?, dif_neg (by omega), closingQuote?, dif_neg (by omega)]
      exact .inl rfl
    | some c =>
      by_cases hfeed : c = '\n'
      · -- the backslash takes the carriage return, and the line feed ends the search
        subst hfeed
        obtain ⟨-, hfeed', -⟩ := h.feed _ hnext
        have hnone : closingQuote? src' quote (place cursor + 2) = none := by
          rw [show place cursor + 2 = place (cursor + 1) + 1 by omega, closingQuote?_of_char hfeed',
            if_neg (by decide), if_neg hfeedquote, if_pos rfl]
        cases hstop : closingQuote? src quote (cursor + 2) with
        | none => exact .inl hnone
        | some stop =>
          have hbounds := closingQuote?_bounds hstop
          exact .inr ⟨hnone, stop, cursor + 1, rfl, Nat.le_succ _, by omega, hnext⟩
      · rw [show place cursor + 2 = place (cursor + 2) by rw [h.succ_of_char hnext hfeed, hsucc]]
        exact ih.imp_right fun hx => ⟨hx.1, hback (Nat.le_add_right _ _) hx.2⟩
  | case2 cursor hlt hc hcq =>
    have hchar : src[cursor]? = some quote := by rw [Array.getElem?_eq_getElem hlt, hcq]
    rw [hcq] at hc
    obtain ⟨hchar', hsucc⟩ := h.kept _ _ hchar hfeedquote.symm
    rw [closingQuote?_of_char hchar', if_neg hc, if_pos rfl, Option.map_some, hsucc]
    exact .inl rfl
  | case3 cursor hlt hc hcq hn =>
    have hchar : src[cursor]? = some '\n' := by rw [Array.getElem?_eq_getElem hlt, hn]
    obtain ⟨hreturn', hfeed', -⟩ := h.feed _ hchar
    rw [closingQuote?_of_char hreturn', if_neg (by decide), if_neg hreturn, if_neg (by decide),
      closingQuote?_of_char hfeed', if_neg (by decide), if_neg hfeedquote, if_pos rfl]
    exact .inl rfl
  | case4 cursor hlt hc hcq hn ih =>
    obtain ⟨hchar', hsucc⟩ := h.kept _ _ (Array.getElem?_eq_getElem hlt) hn
    rw [closingQuote?_of_char hchar', if_neg hc, if_neg hcq, if_neg hn, ← hsucc]
    exact ih.imp_right fun hx => ⟨hx.1, hback (Nat.le_succ _) hx.2⟩
  | case5 cursor hlt =>
    have hend := h.size_le_iff.2 (Nat.le_of_not_lt hlt)
    rw [closingQuote?, dif_neg (by omega)]
    exact .inl rfl

theorem stringEnd_widened {quote : Char} {pos : Nat} (hc : src[pos]? = some quote) (hq : isQuote quote = true) :
    Follows src place (fun a b => b = place a) (stringEnd src quote pos) (stringEnd src' quote (place pos)) := by
  have hsucc := h.succ_of_char hc (by rintro rfl; cases hq)
  unfold stringEnd
  rw [← hsucc]
  rcases closingQuote?_widened h hq (pos + 1) with heq | ⟨hnone, stop, k, hstop, hle, hlt, hfeed⟩
  · rw [heq]
    cases closingQuote? src quote (pos + 1) with
    | none => exact .error ⟨pos, .unterminatedString⟩
    | some stop => exact .ok rfl
  · rw [hnone]
    exact .cut ⟨quote, stop, k, hc, hq, hstop, hle, hlt, hfeed⟩

theorem closingComment?_widened (cursor : Nat) :
    closingComment? src' (place cursor) = (closingComment? src cursor).map place := by
  fun_induction closingComment? src cursor with
  | case1 cursor hlt hc =>
    have hstar : src[cursor]? = some '*' := by rw [Array.getElem?_eq_getElem (Nat.lt_of_succ_lt hlt), hc.1]
    have hslash : src[cursor + 1]? = some '/' := by rw [Array.getElem?_eq_getElem hlt, hc.2]
    obtain ⟨hstar', hsucc⟩ := h.kept _ _ hstar (by decide)
    obtain ⟨hslash', hsucc'⟩ := h.kept _ _ hslash (by decide)
    rw [hsucc] at hslash'
    rw [closingComment?_of_chars hstar' hslash', if_pos ⟨rfl, rfl⟩, Option.map_some, hsucc', hsucc]
  | case2 cursor hlt hc ih =>
    have hchar := Array.getElem?_eq_getElem (Nat.lt_of_succ_lt hlt)
    by_cases hfeed : src[cursor] = '\n'
    · rw [hfeed] at hchar
      rw [h.pass hchar fun _ _ _ => closingComment?_of_blank, ih]
    · obtain ⟨hchar', hsucc⟩ := h.kept _ _ hchar hfeed
      have hlt' : place cursor + 1 < src'.size := by
        rw [← hsucc, ← h.size, h.lt_iff]
        exact hlt
      have hslash := h.char_iff (p := cursor + 1) (x := '/') (by decide)
      rw [hsucc, Array.getElem?_eq_getElem hlt', Array.getElem?_eq_getElem hlt, Option.some.injEq,
        Option.some.injEq] at hslash
      rw [closingComment?_of_chars hchar' (Array.getElem?_eq_getElem hlt'),
        if_neg fun hx => hc ⟨hx.1, hslash.1 hx.2⟩, ← hsucc, ih]
  | case3 cursor hlt =>
    have hend := h.size_le_iff.2 (Nat.le_of_not_lt hlt)
    rw [Option.map_none]
    cases hc : src[cursor]? with
    | none =>
      have := h.size_le_iff.2 (Array.getElem?_eq_none_iff.1 hc)
      rw [closingComment?_of_end (by omega)]
    | some c =>
      by_cases hfeed : c = '\n'
      · subst hfeed
        rw [h.pass hc fun _ _ _ => closingComment?_of_blank, closingComment?_of_end (by omega)]
      · rw [h.succ_of_char hc hfeed] at hend
        rw [closingComment?_of_end hend]

theorem commentEnd_widened {pos : Nat} (hslash : src[pos]? = some '/') (hstar : src[pos + 1]? = some '*') :
    Follows src place (fun a b => b = place a) (commentEnd src pos) (commentEnd src' (place pos)) := by
  have hnext : place (pos + 2) = place pos + 2 := by
    rw [h.succ_of_char hstar (by decide), h.succ_of_char hslash (by decide)]
  unfold commentEnd
  rw [← hnext, closingComment?_widened h]
  cases closingComment? src (pos + 2) with
  | none => exact .error ⟨pos, .unterminatedComment⟩
  | some stop => exact .ok rfl

theorem opensInterpolation_widened (pos : Nat) :
    opensInterpolation src' (place pos) = opensInterpolation src pos := by
  have hbrace : src'[place (pos + 1)]? = some '\x7b' ↔ src[pos + 1]? = some '\x7b' :=
    h.char_iff (by decide)
  unfold opensInterpolation
  rw [Bool.eq_iff_iff, Bool.and_eq_true, Bool.and_eq_true, beq_iff_eq, beq_iff_eq, beq_iff_eq, beq_iff_eq,
    h.char_iff (by decide)]
  refine and_congr_right fun hc => ?_
  rw [← hbrace, h.succ_of_char hc (by decide)]

theorem closingBrace_widened (pos depth cursor : Nat) :
    Follows src place (fun a b => b = place a) (closingBrace src pos depth cursor)
      (closingBrace src' (place pos) depth (place cursor)) := by
  -- a mark that braces or strings begin or end with
  have hmark {cursor : Nat} {x : Char} (hlt : cursor < src.size) (hc : src[cursor] = x) (hx : x ≠ '\n') :
      src'[place cursor]? = some x ∧ place (cursor + 1) = place cursor + 1 :=
    h.kept _ _ (by rw [Array.getElem?_eq_getElem hlt, hc]) hx
  have hquote {c : Char} (hq : isQuote c = true) : c ≠ '\n' := by
    rintro rfl
    cases hq
  fun_induction closingBrace src pos depth cursor with
  | case1 depth cursor hlt hq e hs =>
    rw [closingBrace_of_char (hmark hlt rfl (hquote hq)).1, if_pos hq]
    exact (stringEnd_widened h (Array.getElem?_eq_getElem hlt) hq).of_error hs
  | case2 depth cursor hlt hq next hs hb ih =>
    rw [closingBrace_of_char (hmark hlt rfl (hquote hq)).1, if_pos hq]
    refine (stringEnd_widened h (Array.getElem?_eq_getElem hlt) hq).of_ok hs ?_
    rintro _ rfl
    exact ih
  | case3 depth cursor hlt hq hc ih =>
    obtain ⟨hchar, hsucc⟩ := hmark hlt hc (by decide)
    rw [closingBrace_of_char hchar, if_neg (by decide), if_pos rfl, ← hsucc]
    exact ih
  | case4 cursor hlt hq hc hb =>
    obtain ⟨hchar, hsucc⟩ := hmark hlt hb (by decide)
    rw [closingBrace_of_char hchar, if_neg (by decide), if_neg (by decide), if_pos rfl, if_pos rfl, ← hsucc]
    exact .ok rfl
  | case5 depth cursor hlt hq hc hb hd ih =>
    obtain ⟨hchar, hsucc⟩ := hmark hlt hb (by decide)
    rw [closingBrace_of_char hchar, if_neg (by decide), if_neg (by decide), if_pos rfl, if_neg hd, ← hsucc]
    exact ih
  | case6 depth cursor hlt hq hc hb ih =>
    by_cases hfeed : src[cursor] = '\n'
    · rw [h.pass (by rw [Array.getElem?_eq_getElem hlt, hfeed]) fun _ _ _ => closingBrace_of_blank]
      exact ih
    · obtain ⟨hchar, hsucc⟩ := hmark hlt rfl hfeed
      rw [closingBrace_of_char hchar, if_neg hq, if_neg hc, if_neg hb, ← hsucc]
      exact ih
  | case7 depth cursor hlt =>
    have := h.size_le_iff.2 (Nat.le_of_not_lt hlt)
    rw [closingBrace, dif_neg (by omega)]
    exact .error ⟨pos, .unterminatedInterpolation⟩

theorem interpolationEnd_widened {pos : Nat} (hc : opensInterpolation src pos = true) :
    Follows src place (fun a b => b = place a) (interpolationEnd src pos) (interpolationEnd src' (place pos)) := by
  rw [opensInterpolation, Bool.and_eq_true, beq_iff_eq] at hc
  unfold interpolationEnd
  rw [← h.succ_of_char hc.1 (by decide)]
  exact closingBrace_widened h pos 0 (pos + 1)

theorem quotedEnd?_widened (pos : Nat) :
    Follows src place (fun a b => b = a.map place) (quotedEnd? src pos) (quotedEnd? src' (place pos)) := by
  cases hc : src[pos]? with
  | none =>
    rw [quotedEnd?, quotedEnd?, hc, h.char_none hc]
    exact .ok rfl
  | some c =>
    by_cases hfeed : c = '\n'
    · subst hfeed
      rw [quotedEnd?_of_blank hc (by decide), quotedEnd?_of_blank (h.feed _ hc).1 (by decide)]
      exact .ok rfl
    · simp only [quotedEnd?, hc, (h.kept _ _ hc hfeed).1, opensInterpolation_widened h]
      split
      · exact (stringEnd_widened h hc ‹_›).map fun _ _ hb => congrArg some hb
      · split
        · exact (interpolationEnd_widened h ‹_›).map fun _ _ hb => congrArg some hb
        · exact .ok rfl

/-! ### Comments, heads, trivia -/

theorem find_widened {target : Char} (ht : isStyleBlank target = false) {stop : Nat} (hstop : stop ≤ src.size)
    (cursor : Nat) : find src' target (place stop) (place cursor) = place (find src target stop cursor) := by
  fun_induction find src target stop cursor with
  | case1 cursor hlt hc => rw [find, if_pos (h.lt_iff.2 hlt), if_pos ((h.char_iff ht).2 hc)]
  | case2 cursor hlt hc ih =>
    have hsize := Nat.lt_of_lt_of_le hlt hstop
    have hchar := Array.getElem?_eq_getElem hsize
    have hnext : place (cursor + 1) ≤ place stop := h.le_iff.2 hlt
    by_cases hfeed : src[cursor] = '\n'
    · rw [hfeed] at hchar
      rw [h.pass hchar fun k c hk => find_of_blank (by omega) ht, ih]
    · rw [find, if_pos (h.lt_iff.2 hlt), if_neg (mt (h.char_iff ht).1 hc), ← h.succ_of_char hchar hfeed, ih]
  | case3 cursor hlt => rw [find, if_neg (mt h.lt_iff.1 hlt)]

/-- The end of a line is found at its line feed, behind the carriage return. -/
theorem findFeed_widened (cursor : Nat) :
    Lands src place (find src '\n' src.size cursor) (find src' '\n' src'.size (place cursor)) := by
  fun_induction find src '\n' src.size cursor with
  | case1 cursor hlt hc =>
    obtain ⟨hreturn, hfeed, hsucc⟩ := h.feed _ hc
    have hlt' := (Array.getElem?_eq_some_iff.1 hfeed).1
    rw [find, if_pos (by omega), if_neg (by rw [hreturn]; decide), find, if_pos hlt', if_pos hfeed]
    exact .inr ⟨hc, rfl⟩
  | case2 cursor hlt hc ih =>
    obtain ⟨hchar, hsucc⟩ := h.kept _ _ (Array.getElem?_eq_getElem hlt) fun hfeed =>
      hc (by rw [Array.getElem?_eq_getElem hlt, hfeed])
    have hnext : find src' '\n' src'.size (place cursor) = find src' '\n' src'.size (place (cursor + 1)) := by
      rw [find, if_pos (by rw [← h.size]; exact h.lt_iff.2 hlt), if_neg, hsucc]
      rwa [hchar, ← Array.getElem?_eq_getElem hlt]
    rw [hnext]
    exact ih
  | case3 cursor hlt =>
    rw [find, if_neg (by rw [← h.size]; exact mt h.lt_iff.1 hlt), ← h.size]
    exact .inl rfl

theorem commentEnd?_widened (lines : Bool) (pos : Nat) :
    Follows src place (Option.Rel (Lands src place)) (commentEnd? lines src pos)
      (commentEnd? lines src' (place pos)) := by
  have hslash : src'[place pos]? = some '/' ↔ src[pos]? = some '/' := h.char_iff (by decide)
  unfold commentEnd?
  by_cases hc : src[pos]? = some '/'
  · have hstar : src'[place (pos + 1)]? = some '*' ↔ src[pos + 1]? = some '*' := h.char_iff (by decide)
    have hslash' : src'[place (pos + 1)]? = some '/' ↔ src[pos + 1]? = some '/' :=
      h.char_iff (by decide)
    rw [if_pos (hslash.2 hc), if_pos hc, ← h.succ_of_char hc (by decide)]
    simp only [hstar, hslash']
    split
    · exact (commentEnd_widened h hc ‹_›).map fun _ _ hb => .some (.inl hb)
    · split
      · exact .ok (.some (findFeed_widened h pos))
      · exact .ok .none
  · rw [if_neg (mt hslash.1 hc), if_neg hc]
    exact .ok .none

theorem opaqueEnd?_widened (depth pos : Nat) :
    Follows src place (Option.Rel (Lands src place)) (opaqueEnd? d src depth pos)
      (opaqueEnd? d src' depth (place pos)) := by
  rw [opaqueEnd?_eq_bind, opaqueEnd?_eq_bind]
  refine (quotedEnd?_widened h pos).bind ?_
  rintro (_ | stop) _ - rfl
  · exact commentEnd?_widened h _ pos
  · exact .ok (.some (.inl rfl))

/-- **A head ends where it ended**, unless one of its strings crosses a line feed. -/
theorem scanFrom_widened (depth pos : Nat) :
    Follows src place (fun a b => b = (place a.1, a.2)) (scanFrom d src depth pos)
      (scanFrom d src' depth (place pos)) := by
  have hskips (depth : Nat) : ∀ k c, src'[k]? = some c → isStyleBlank c = true →
      scanFrom d src' depth k = scanFrom d src' depth (k + 1) := fun _ _ => scanFrom_of_blank
  -- a line feed begins nothing that is passed over as a whole, and no head ends there
  have hplain {depth pos : Nat} (hlt : pos < src.size) (hfeed : src[pos] = '\n') :
      opaqueEnd? d src depth pos = .ok none :=
    opaqueEnd?_of_blank (by rw [Array.getElem?_eq_getElem hlt, hfeed]) (by decide)
  have hkept {pos : Nat} (hlt : pos < src.size) (hfeed : src[pos] ≠ '\n') :
      src'[place pos]? = some src[pos] ∧ place (pos + 1) = place pos + 1 :=
    h.kept _ _ (Array.getElem?_eq_getElem hlt) hfeed
  fun_induction scanFrom d src depth pos with
  | case1 depth pos hlt e hn =>
    obtain ⟨hchar, -⟩ := hkept hlt fun hfeed => by rw [hplain hlt hfeed] at hn; cases hn
    rw [scanFrom_of_char hchar]
    exact (opaqueEnd?_widened h depth pos).of_error hn
  | case2 depth pos hlt next hn hb ih =>
    obtain ⟨hchar, -⟩ := hkept hlt fun hfeed => by rw [hplain hlt hfeed] at hn; cases hn
    rw [scanFrom_of_char hchar]
    refine (opaqueEnd?_widened h depth pos).of_ok hn ?_
    rintro _ ⟨hlands⟩
    simp only [hlands.eq_of_blank h (hskips depth)]
    exact ih
  | case3 depth pos hlt hn hg ih =>
    obtain ⟨hchar, hsucc⟩ := hkept hlt fun hfeed => by rw [hfeed] at hg; cases hg
    rw [scanFrom_of_char hchar]
    refine (opaqueEnd?_widened h depth pos).of_ok hn ?_
    rintro _ ⟨⟩
    simp only [if_pos hg, ← hsucc]
    exact ih
  | case4 depth pos hlt hn hg hg' ih =>
    obtain ⟨hchar, hsucc⟩ := hkept hlt fun hfeed => by rw [hfeed] at hg'; cases hg'
    rw [scanFrom_of_char hchar]
    refine (opaqueEnd?_widened h depth pos).of_ok hn ?_
    rintro _ ⟨⟩
    simp only [if_neg hg, if_pos hg', ← hsucc]
    exact ih
  | case5 depth pos hlt hn hg hg' hend =>
    obtain ⟨hchar, -⟩ := hkept hlt fun hfeed => by rw [hfeed] at hend; cases hend.2
    rw [scanFrom_of_char hchar]
    refine (opaqueEnd?_widened h depth pos).of_ok hn ?_
    rintro _ ⟨⟩
    simp only [if_neg hg, if_neg hg', if_pos hend]
    exact .ok rfl
  | case6 depth pos hlt hn hg hg' hend ih =>
    by_cases hfeed : src[pos] = '\n'
    · rw [h.pass (by rw [Array.getElem?_eq_getElem hlt, hfeed]) fun k c _ => hskips depth k c]
      exact ih
    · obtain ⟨hchar, hsucc⟩ := hkept hlt hfeed
      rw [scanFrom_of_char hchar]
      refine (opaqueEnd?_widened h depth pos).of_ok hn ?_
      rintro _ ⟨⟩
      simp only [if_neg hg, if_neg hg', if_neg hend, ← hsucc]
      exact ih
  | case7 depth pos hlt =>
    have hend := h.size_le_iff.2 (Nat.le_of_not_lt hlt)
    rw [scanFrom, dif_neg (Nat.not_lt.2 hend)]
    exact .ok (by rw [h.size])

theorem scan_widened (pos : Nat) :
    Follows src place (fun a b => b = (place a.1, a.2)) (scan d src pos) (scan d src' (place pos)) :=
  scanFrom_widened h 0 pos

/-- **Trivia ends where it ended.** -/
theorem skipTrivia_widened (pos : Nat) :
    Follows src place (fun a b => b = place a) (skipTrivia d src pos) (skipTrivia d src' (place pos)) := by
  have hkept {pos : Nat} (hlt : pos < src.size) (hc : ¬ isStyleBlank src[pos] = true) :
      src'[place pos]? = some src[pos] :=
    (h.kept _ _ (Array.getElem?_eq_getElem hlt) fun hfeed => hc (by rw [hfeed]; decide)).1
  fun_induction skipTrivia d src pos with
  | case1 pos hlt hc ih =>
    by_cases hfeed : src[pos] = '\n'
    · rw [h.pass (by rw [Array.getElem?_eq_getElem hlt, hfeed]) fun _ _ _ => skipTrivia_of_blank]
      exact ih
    · obtain ⟨hchar, hsucc⟩ := h.kept _ _ (Array.getElem?_eq_getElem hlt) hfeed
      rw [skipTrivia_of_char hchar, if_pos hc, ← hsucc]
      exact ih
  | case2 pos hlt hc e hn =>
    rw [skipTrivia_of_char (hkept hlt hc), if_neg hc]
    exact (commentEnd?_widened h _ pos).of_error hn
  | case3 pos hlt hc next hn hb ih =>
    rw [skipTrivia_of_char (hkept hlt hc), if_neg hc]
    refine (commentEnd?_widened h _ pos).of_ok hn ?_
    rintro _ ⟨hlands⟩
    simp only [hlands.eq_of_blank h fun _ _ => skipTrivia_of_blank]
    exact ih
  | case4 pos hlt hc hn =>
    rw [skipTrivia_of_char (hkept hlt hc), if_neg hc]
    refine (commentEnd?_widened h _ pos).of_ok hn ?_
    rintro _ ⟨⟩
    exact .ok rfl
  | case5 pos hlt =>
    rw [skipTrivia_of_end (h.size_le_iff.2 (Nat.le_of_not_lt hlt))]
    exact .ok rfl

/-! ### White space, names, colons -/

theorem skipWhile_widened {p : Char → Bool} (hp : p '\r' = p '\n') (stop cursor : Nat) :
    skipWhile p src' (place stop) (place cursor) = place (skipWhile p src stop cursor) := by
  fun_induction skipWhile p src stop cursor with
  | case1 cursor hc ih =>
    obtain ⟨c, hchar, hpc⟩ := (Option.any_eq_true _ _).1 hc.2
    have hnext : place (cursor + 1) ≤ place stop := h.le_iff.2 hc.1
    rw [skipWhile, if_pos ⟨h.lt_iff.2 hc.1, by rw [h.any hp]; exact hc.2⟩]
    by_cases hfeed : c = '\n'
    · subst hfeed
      obtain ⟨-, hfeed', hsucc⟩ := h.feed _ hchar
      rw [skipWhile, if_pos ⟨by omega, by rw [hfeed']; exact hpc⟩, ← ih, hsucc]
    · rw [← h.succ_of_char hchar hfeed, ih]
  | case2 cursor hc =>
    rw [skipWhile, if_neg]
    rw [h.any hp, h.lt_iff]
    exact hc

theorem trimEnd_widened (start stop : Nat) :
    trimEnd src' (place start) (place stop) = place (trimEnd src start stop) := by
  induction stop with
  | zero => rw [h.zero, trimEnd, trimEnd, h.zero]
  | succ m ih =>
    by_cases hle : m + 1 ≤ start
    · rw [trimEnd_of_le hle, trimEnd_of_le (h.le_iff.2 hle)]
    have hstart : start ≤ m := by omega
    have hstart' := h.le_iff.2 hstart
    rw [trimEnd]
    cases hc : src[m]? with
    | none =>
      obtain ⟨k, hk⟩ := Nat.exists_eq_add_one.2 (Nat.lt_of_le_of_lt (Nat.zero_le _) (h.lt m))
      have hend := h.size_le_iff.2 (Array.getElem?_eq_none_iff.1 hc)
      have hlast : src'[k]? = none := Array.getElem?_eq_none (by have := h.lt m; omega)
      rw [if_neg fun hx => Bool.false_ne_true hx.2, hk, trimEnd, hlast, if_neg fun hx => Bool.false_ne_true hx.2]
    | some c =>
      by_cases hfeed : c = '\n'
      · subst hfeed
        obtain ⟨hreturn', hfeed', hsucc⟩ := h.feed _ hc
        rw [hsucc, trimEnd, hfeed', if_pos ⟨by omega, by decide⟩, trimEnd, hreturn', if_pos ⟨hstart', by decide⟩,
          if_pos ⟨hstart, by decide⟩, ih]
      · obtain ⟨hchar, hsucc⟩ := h.kept _ _ hc hfeed
        rw [hsucc, trimEnd, hchar]
        by_cases hblank : isStyleBlank c = true
        · rw [if_pos ⟨hstart', hblank⟩, if_pos ⟨hstart, hblank⟩, ih]
        · rw [if_neg fun hx => hblank hx.2, if_neg fun hx => hblank hx.2, hsucc]

theorem findColon?_widened {stop : Nat} (hstop : stop ≤ src.size) (pos : Nat) :
    Follows src place (fun a b => b = a.map place) (findColon? src stop pos)
      (findColon? src' (place stop) (place pos)) := by
  fun_induction findColon? src stop pos with
  | case1 pos hlt ho e hn =>
    rw [findColon?_of_lt (h.lt_iff.2 hlt), opensInterpolation_widened h, if_pos ho]
    exact (interpolationEnd_widened h ho).of_error hn
  | case2 pos hlt ho next hn hb ih =>
    rw [findColon?_of_lt (h.lt_iff.2 hlt), opensInterpolation_widened h, if_pos ho]
    refine (interpolationEnd_widened h ho).of_ok hn ?_
    rintro _ rfl
    exact ih
  | case3 pos hlt ho hc =>
    rw [findColon?_of_lt (h.lt_iff.2 hlt), opensInterpolation_widened h, if_neg ho,
      if_pos ((h.char_iff (by decide)).2 hc)]
    exact .ok rfl
  | case4 pos hlt ho hc ih =>
    have hsize := Nat.lt_of_lt_of_le hlt hstop
    have hchar := Array.getElem?_eq_getElem hsize
    have hnext : place (pos + 1) ≤ place stop := h.le_iff.2 hlt
    by_cases hfeed : src[pos] = '\n'
    · rw [hfeed] at hchar
      rw [h.pass hchar fun k c hk => findColon?_of_blank (by omega)]
      exact ih
    · rw [findColon?_of_lt (h.lt_iff.2 hlt), opensInterpolation_widened h, if_neg ho,
        if_neg (mt (h.char_iff (by decide)).1 hc), ← h.succ_of_char hchar hfeed]
      exact ih
  | case5 pos hlt =>
    rw [findColon?, dif_neg (mt h.lt_iff.1 hlt)]
    exact .ok rfl

end

end HouseStyle.Stylesheet
