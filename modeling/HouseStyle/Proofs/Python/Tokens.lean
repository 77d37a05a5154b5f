import HouseStyle.Proofs.Text.Pieces
import HouseStyle.Python.Lexer
import Mathlib.Data.List.Find
import Mathlib.Data.List.Infix

/-!
# Tokens stand in the text

Every step of the lexer goes on inside of the text, and the text of a token is what stands between its
two offsets. Tokens that have no width, which end lines and blocks, have an empty text. No token begins
before the one before it ends.

* `Token.Stands`, `InRow`: what holds of each token, and of all of them together.
* `lexerStep_stands`: one step.
* `tokenize_stands`, `tokenize_inRow`: **all tokens of a text**, by induction on the steps.
-/

namespace HouseStyle.Python

open Cursor (skipWhile le_skipWhile)

variable {src : Array Char} {s s' : LexerState} {pos stop : Nat} {tokens more : List Token}
  {next : Option LexerState}

/-- The spelling of a literal: it does not begin with a line feed, and it ends with a quote. -/
structure IsQuoted (cs : List Char) : Prop where
  first : cs.head? ≠ some '\n'
  last : cs.getLast? = some '"' ∨ cs.getLast? = some '\''

/-- Where the opening quote of a literal stands: letters stand before it, and the string that it opens ends where
the token does. -/
structure Token.Opens (src : Array Char) (t : Token) (k : Nat) (quote : Char) : Prop where
  le : t.start ≤ k
  letters : ∀ i, t.start ≤ i → i < k → src[i]? ≠ some '"' ∧ src[i]? ≠ some '\''
  opening : src[k]? = some quote
  isQuote : quote = '"' ∨ quote = '\''
  ends : stringEnd? src quote k = some t.stop

/-- A token is the text between its two offsets; a name stands on one line. -/
structure Token.Stands (src : Array Char) (t : Token) : Prop where
  ordered : t.start ≤ t.stop
  inside : t.stop ≤ src.size
  text : t.text = Cursor.text src t.start t.stop
  quoted : t.kind = .string → IsQuoted t.text.toList
  named : t.kind = .name → OneLine t.text
  opened : t.kind = .string → ∃ k quote, t.Opens src k quote

theorem Token.Stands.tokenAt {kind : TokenKind} (hkind : kind ≠ .string ∧ kind ≠ .name) (h : pos ≤ stop)
    (hstop : stop ≤ src.size) : (tokenAt src kind pos stop).Stands src :=
  ⟨h, hstop, rfl, fun heq => absurd heq hkind.1, fun heq => absurd heq hkind.2, fun heq => absurd heq hkind.1⟩

/-- A token without a width. -/
theorem Token.Stands.here {kind : TokenKind} (hkind : kind ≠ .string) (h : pos ≤ src.size) :
    Token.Stands src ⟨kind, "", pos, pos⟩ :=
  ⟨Nat.le_refl _, h, by simp [Cursor.text], fun heq => absurd heq hkind, fun _ => show OneLine "" by decide,
    fun heq => absurd heq hkind⟩

/-- A name is made of characters that begin or continue names, of which a line feed is none. -/
theorem Token.Stands.name {c : Char} {rest : List Char} (h : pos ≤ stop) (hstop : stop ≤ src.size)
    (htext : (src.extract pos stop).toList = c :: rest)
    (hname : (Identifier.isStart c && rest.all Identifier.isContinue) = true) :
    (Python.tokenAt src .name pos stop).Stands src := by
  obtain ⟨hstart, hrest⟩ := Bool.and_eq_true_iff.1 hname
  refine ⟨h, hstop, rfl, nofun, fun _ hfeed => ?_, nofun⟩
  rw [Python.tokenAt, Cursor.text, String.toList_ofList, htext] at hfeed
  rcases List.mem_cons.1 hfeed with rfl | hfeed
  · exact absurd hstart (by decide)
  · exact absurd (List.all_eq_true.1 hrest _ hfeed) (by decide)

/-! ### Tokens in a row -/

/-- Tokens between two offsets, each of which begins where the one before it has ended. -/
structure InRow (first last : Nat) (tokens : List Token) : Prop where
  le : first ≤ last
  first_le : ∀ t ∈ tokens, first ≤ t.start
  le_last : ∀ t ∈ tokens, t.stop ≤ last
  ordered : tokens.Pairwise fun a b => a.stop ≤ b.start

namespace InRow

variable {first middle last : Nat}

protected theorem nil (h : first ≤ last) : InRow first last [] :=
  ⟨h, nofun, nofun, .nil⟩

protected theorem single {t : Token} (hfirst : first ≤ t.start) (h : t.start ≤ t.stop) (hlast : t.stop ≤ last) :
    InRow first last [t] :=
  ⟨Nat.le_trans hfirst (Nat.le_trans h hlast), List.forall_mem_singleton.2 hfirst, List.forall_mem_singleton.2 hlast,
    List.pairwise_singleton _ _⟩

/-- Tokens without a width at one place. -/
protected theorem here (h : ∀ t ∈ tokens, t.start = pos ∧ t.stop = pos) : InRow pos pos tokens where
  le := Nat.le_refl _
  first_le t ht := Nat.le_of_eq (h t ht).1.symm
  le_last t ht := Nat.le_of_eq (h t ht).2
  ordered := List.pairwise_of_forall_mem_list fun a ha b hb => Nat.le_of_eq ((h a ha).2.trans (h b hb).1.symm)

protected theorem append (h : InRow first middle tokens) (hmore : InRow middle last more) :
    InRow first last (tokens ++ more) where
  le := Nat.le_trans h.le hmore.le
  first_le := List.forall_mem_append.2 ⟨h.first_le, fun t ht => Nat.le_trans h.le (hmore.first_le t ht)⟩
  le_last := List.forall_mem_append.2 ⟨fun t ht => Nat.le_trans (h.le_last t ht) hmore.le, hmore.le_last⟩
  ordered := List.pairwise_append.2 ⟨h.ordered, hmore.ordered,
    fun a ha b hb => Nat.le_trans (h.le_last a ha) (hmore.first_le b hb)⟩

/-- A row that begins earlier. -/
theorem of_le (hle : first ≤ middle) (h : InRow middle last tokens) : InRow first last tokens :=
  (InRow.nil hle).append h

/-- Two tokens of a row are the same one, or one stands before the other. -/
theorem eq_or_apart (h : InRow first last tokens) {x y : Token} (hx : x ∈ tokens) (hy : y ∈ tokens) :
    x = y ∨ x.stop ≤ y.start ∨ y.stop ≤ x.start := by
  obtain ⟨i, hi, rfl⟩ := List.getElem_of_mem hx
  obtain ⟨j, hj, rfl⟩ := List.getElem_of_mem hy
  rcases Nat.lt_trichotomy i j with hlt | rfl | hlt
  · exact .inr (.inl (List.pairwise_iff_getElem.1 h.ordered i j hi hj hlt))
  · exact .inl rfl
  · exact .inr (.inr (List.pairwise_iff_getElem.1 h.ordered j i hj hi hlt))

end InRow

/-- The offset up to which a step has read. -/
def stepEnd (src : Array Char) (next : Option LexerState) : Nat :=
  (next.map LexerState.pos).getD src.size

/-- What a step yields that begins at an offset: tokens that stand in the text, and a state inside of it. -/
structure Lexed (src : Array Char) (pos : Nat) (tokens : List Token) (next : Option LexerState) : Prop where
  stand : ∀ t ∈ tokens, t.Stands src
  row : InRow pos (stepEnd src next) tokens
  inside : stepEnd src next ≤ src.size

theorem Lexed.silent (hpos : pos ≤ s'.pos) (h : s'.pos ≤ src.size) : Lexed src pos [] (some s') :=
  ⟨nofun, .nil hpos, h⟩

/-- A step that reads the text up to where it goes on as one token. -/
theorem Lexed.token {kind : TokenKind} (hkind : kind ≠ .string ∧ kind ≠ .name) (h : pos ≤ stop) (hstop : stop ≤ src.size)
    (hs' : s'.pos = stop) : Lexed src pos [tokenAt src kind pos stop] (some s') := by
  subst hs'
  exact ⟨List.forall_mem_singleton.2 (.tokenAt hkind h hstop), .single (Nat.le_refl _) h (Nat.le_refl _), hstop⟩

theorem Lexed.prepend {middle : Nat} (h : Lexed src middle more next) (htokens : ∀ t ∈ tokens, t.Stands src)
    (hrow : InRow pos middle tokens) : Lexed src pos (tokens ++ more) next :=
  ⟨List.forall_mem_append.2 ⟨htokens, h.stand⟩, hrow.append h.row, h.inside⟩

/-! ### Where steps go on -/

theorem lt_size_of_char {c : Char} (h : src[pos]? = some c) : pos < src.size :=
  (Array.getElem?_eq_some_iff.1 h).1

theorem lt_size_of_any {p : Char → Bool} (h : (src[pos]?).any p = true) : pos < src.size := by
  obtain ⟨c, hc, -⟩ := (Option.any_eq_true _ _).1 h
  exact lt_size_of_char hc

theorem skipWhile_le_size {p : Char → Bool} (h : pos ≤ src.size) : skipWhile p src src.size pos ≤ src.size := by
  fun_induction skipWhile p src src.size pos with
  | case1 pos hc ih => exact ih hc.1
  | case2 pos hc => exact h

theorem breakEnd?_bounds (h : breakEnd? src pos = some stop) : pos < stop ∧ stop ≤ src.size := by
  unfold breakEnd? at h
  split at h
  · cases h
    exact ⟨Nat.lt_succ_self _, lt_size_of_char ‹_›⟩
  · split at h <;> cases h
    · exact ⟨by omega, lt_size_of_char ‹_›⟩
    · exact ⟨Nat.lt_succ_self _, lt_size_of_char ‹_›⟩
  · cases h

theorem measureIndent_bounds (fuel wide narrow : Nat) (h : pos ≤ src.size) :
    pos ≤ (measureIndent src fuel pos wide narrow).1 ∧ (measureIndent src fuel pos wide narrow).1 ≤ src.size := by
  fun_induction measureIndent src fuel pos wide narrow with
  | case1 => exact ⟨Nat.le_refl _, h⟩
  | case2 pos wide narrow fuel hc ih => exact (ih (lt_size_of_char hc)).imp_left Nat.le_of_succ_le
  | case3 pos wide narrow fuel hc ih => exact (ih (lt_size_of_char hc)).imp_left Nat.le_of_succ_le
  | case4 pos wide narrow fuel hc ih => exact (ih (lt_size_of_char hc)).imp_left Nat.le_of_succ_le
  | case5 => exact ⟨Nat.le_refl _, h⟩

theorem tripleQuoteAt_le {quote : Char} (h : tripleQuoteAt src quote pos = true) : pos + 3 ≤ src.size := by
  simp only [tripleQuoteAt, Bool.and_eq_true, beq_iff_eq] at h
  exact lt_size_of_char h.2

/-! ### Numbers -/

theorem digitsEnd_bounds (base fuel : Nat) (h : pos ≤ src.size) :
    pos ≤ digitsEnd src base fuel pos ∧ digitsEnd src base fuel pos ≤ src.size := by
  fun_induction digitsEnd src base fuel pos with
  | case1 => exact ⟨Nat.le_refl _, h⟩
  | case2 pos fuel hdigit ih =>
    have := ih (lt_size_of_any hdigit)
    omega
  | case3 pos fuel hdigit hmark ih =>
    have := ih (lt_size_of_any hmark.2)
    omega
  | case4 => exact ⟨Nat.le_refl _, h⟩

theorem decimalEnd_bounds (h : pos ≤ src.size) : pos ≤ decimalEnd src pos ∧ decimalEnd src pos ≤ src.size := by
  unfold decimalEnd
  split
  · exact digitsEnd_bounds _ _ h
  · exact ⟨Nat.le_refl _, h⟩

theorem exponentEnd_bounds (h : pos ≤ src.size) : pos ≤ exponentEnd src pos ∧ exponentEnd src pos ≤ src.size := by
  -- the digits begin after a sign, if there is one
  have hdigits {start : Nat} (hle : pos ≤ start) :
      pos ≤ (if (src[start]?).any Char.isDigit then decimalEnd src start else pos) ∧
        (if (src[start]?).any Char.isDigit then decimalEnd src start else pos) ≤ src.size := by
    split
    · have := decimalEnd_bounds (Nat.le_of_lt (lt_size_of_any ‹_›))
      omega
    · exact ⟨Nat.le_refl _, h⟩
  unfold exponentEnd
  split
  · exact hdigits (by split <;> omega)
  · exact ⟨Nat.le_refl _, h⟩

theorem imaginaryEnd_bounds (h : pos ≤ src.size) : pos ≤ imaginaryEnd src pos ∧ imaginaryEnd src pos ≤ src.size := by
  unfold imaginaryEnd
  split
  · rename_i hmark
    exact ⟨Nat.le_succ _, hmark.elim lt_size_of_char lt_size_of_char⟩
  · exact ⟨Nat.le_refl _, h⟩

theorem numberTail_bounds (h : pos ≤ src.size) : pos ≤ numberTail src pos ∧ numberTail src pos ≤ src.size := by
  simp only [numberTail]
  split
  · rename_i hpoint
    have hfraction := @decimalEnd_bounds src (pos + 1) (lt_size_of_char hpoint)
    have hexponent := exponentEnd_bounds hfraction.2
    have := imaginaryEnd_bounds hexponent.2
    omega
  · have hexponent := exponentEnd_bounds h
    have := imaginaryEnd_bounds hexponent.2
    omega

theorem basedEnd?_bounds {base : Nat} (h : basedEnd? src base pos = some stop) : pos ≤ stop ∧ stop ≤ src.size := by
  have hdigits {first : Nat} (hle : pos ≤ first) (h : (if (src[first]?).any (isDigitOf base) then
      if (src[digitsEnd src base (src.size - first) first]?).any Char.isDigit then none
      else some (digitsEnd src base (src.size - first) first) else none) = some stop) : pos ≤ stop ∧ stop ≤ src.size := by
    split at h
    · have := digitsEnd_bounds base (src.size - first) (Nat.le_of_lt (lt_size_of_any ‹_›))
      split at h <;> cases h
      omega
    · cases h
  exact hdigits (by split <;> omega) h

theorem numberEnd?_bounds (hpos : pos ≤ src.size) (h : numberEnd? src pos = some stop) :
    pos ≤ stop ∧ stop ≤ src.size := by
  have hbased {base : Nat} (hb : basedEnd? src base (pos + 2) = some stop) : pos ≤ stop ∧ stop ≤ src.size := by
    have := basedEnd?_bounds hb
    omega
  have hwhole := decimalEnd_bounds hpos
  have htail := numberTail_bounds hwhole.2
  unfold numberEnd? at h
  split at h
  iterate 6 exact hbased h
  · simp only at h
    split at h
    · cases h
    · split at h <;> cases h
      omega

/-! ### Strings -/

/-- A backslash and what it stands before are passed over. -/
theorem le_afterEscape (pos : Nat) : pos ≤ (breakEnd? src (pos + 1)).getD (pos + 2) := by
  cases hb : breakEnd? src (pos + 1) with
  | none => exact Nat.le_add_right _ _
  | some next =>
    have := (breakEnd?_bounds hb).1
    rw [Option.getD_some]
    omega

theorem stringTail?_bounds {quote : Char} {triple : Bool} {fuel : Nat}
    (h : stringTail? src quote triple fuel pos = some stop) : pos ≤ stop ∧ stop ≤ src.size := by
  induction fuel generalizing pos with
  | zero => cases h
  | succ fuel ih =>
    have hgo {pos' : Nat} (hle : pos ≤ pos') (h : stringTail? src quote triple fuel pos' = some stop) :
        pos ≤ stop ∧ stop ≤ src.size :=
      ⟨Nat.le_trans hle (ih h).1, (ih h).2⟩
    unfold stringTail? at h
    split at h
    · cases h
    · rename_i c hc
      have hlt := lt_size_of_char hc
      split at h
      · exact hgo (le_afterEscape pos) h
      split at h
      · split at h
        · cases h
          omega
        split at h
        · cases h
          have := tripleQuoteAt_le ‹_›
          omega
        · exact hgo (Nat.le_succ pos) h
      split at h
      · cases h
      · exact hgo (Nat.le_succ pos) h

/-- A string ends with its quote. -/
theorem stringTail?_last {quote : Char} {triple : Bool} {fuel : Nat}
    (h : stringTail? src quote triple fuel pos = some stop) : src[stop - 1]? = some quote := by
  induction fuel generalizing pos with
  | zero => cases h
  | succ fuel ih =>
    unfold stringTail? at h
    split at h
    · cases h
    · rename_i c hc
      split at h
      · exact ih h
      split at h
      · rename_i hquote
        split at h
        · cases h
          rw [Nat.add_sub_cancel, hc, hquote]
        split at h
        · rename_i htriple
          cases h
          simp only [tripleQuoteAt, Bool.and_eq_true, beq_iff_eq] at htriple
          exact htriple.2
        · exact ih h
      split at h
      · cases h
      · exact ih h

theorem stringEnd?_spec {quote : Char} (h : stringEnd? src quote pos = some stop) :
    pos < stop ∧ stop ≤ src.size ∧ src[stop - 1]? = some quote := by
  unfold stringEnd? at h
  split at h
  all_goals
    have := stringTail?_bounds h
    exact ⟨by omega, this.2, stringTail?_last h⟩

/-- A string goes on behind its opening quotes. -/
theorem stringTail?_lt {quote : Char} {triple : Bool} {fuel : Nat}
    (h : stringTail? src quote triple fuel pos = some stop) : pos + (if triple then 3 else 1) ≤ stop := by
  induction fuel generalizing pos with
  | zero => cases h
  | succ fuel ih =>
    have hescape := @le_afterEscape src pos
    unfold stringTail? at h
    split at h
    · cases h
    · split at h
      · exact Nat.le_trans (Nat.add_le_add_right hescape _) (ih h)
      · grind

/-- What is written at an offset, seen character by character. -/
theorem extract_map_eq_iff (f : Char → Char) (w : List Char) :
    (src.extract pos (pos + w.length)).toList.map f = w ↔ ∀ i < w.length, (src[pos + i]?).map f = w[i]? := by
  have hget (i : Nat) : ((src.extract pos (pos + w.length)).toList.map f)[i]? =
      if i < w.length then (src[pos + i]?).map f else none := by
    rw [List.getElem?_map, Array.getElem?_toList, Array.getElem?_extract]
    by_cases hi : i < w.length
    · rw [if_pos hi]
      split
      · rfl
      · rw [Array.getElem?_eq_none (by omega)]
    · rw [if_neg hi, if_neg (by omega), Option.map_none]
  constructor
  · intro heq i hi
    have := hget i
    rwa [heq, if_pos hi, eq_comm] at this
  · intro hall
    refine List.ext_getElem? fun i => ?_
    rw [hget]
    split
    · exact hall i ‹_›
    · rw [List.getElem?_eq_none (by omega)]

/-- Letters of a string are no quotes. -/
theorem letters_of_stringMark? {mark : List Char} (hmark : stringMark? src pos = some mark) :
    ∀ i, pos ≤ i → i < pos + mark.length → src[i]? ≠ some '"' ∧ src[i]? ≠ some '\'' := by
  have hfound := List.find?_some hmark
  have hmem := List.mem_of_find?_eq_some hmark
  have hletters : (stringMarks.all fun mark => mark.all fun x => '"'.toLower != x && '\''.toLower != x) = true := by
    decide
  rw [Bool.and_eq_true, beq_iff_eq, extract_map_eq_iff] at hfound
  intro i hi hlt
  have hchar := hfound.1 (i - pos) (by omega)
  rw [Nat.add_sub_cancel' hi, List.getElem?_eq_getElem (by omega)] at hchar
  obtain ⟨c, hc, hlower⟩ := Option.map_eq_some_iff.1 hchar
  have hletter := List.all_eq_true.1 (List.all_eq_true.1 hletters mark hmem) _
    (List.getElem_mem (by omega : i - pos < mark.length))
  rw [Bool.and_eq_true, bne_iff_ne, bne_iff_ne] at hletter
  obtain ⟨hdouble, hsingle⟩ := hletter
  constructor
  · intro heq
    cases hc.symm.trans heq
    exact hdouble hlower
  · intro heq
    cases hc.symm.trans heq
    exact hsingle hlower

/-- A literal from its first character to its closing quote. -/
theorem Token.Stands.literal {quote : Char} {k : Nat} (hfirst : src[pos]? ≠ some '\n')
    (hopens : (Python.tokenAt src .string pos stop).Opens src k quote) :
    (Python.tokenAt src .string pos stop).Stands src := by
  obtain ⟨hlt, hsize, hlast⟩ := stringEnd?_spec hopens.ends
  have hlt : pos < stop := Nat.lt_of_le_of_lt hopens.le hlt
  have hsize : stop ≤ src.size := hsize
  have htext : (Cursor.text src pos stop).toList = (src.extract pos stop).toList := String.toList_ofList
  refine ⟨Nat.le_of_lt hlt, hsize, rfl, fun _ => ⟨?_, ?_⟩, nofun, fun _ => ⟨k, quote, hopens⟩⟩
  · rw [Python.tokenAt, htext, List.head?_eq_getElem?, Array.getElem?_toList, Array.getElem?_extract,
      if_pos (by omega)]
    exact hfirst
  · rw [Python.tokenAt, htext, List.getLast?_eq_getElem?, Array.getElem?_toList, Array.getElem?_extract,
      Array.length_toList, Array.size_extract, if_pos (by omega),
      show pos + (min stop src.size - pos - 1) = stop - 1 by omega]
    rcases hopens.isQuote with rfl | rfl
    · exact .inl hlast
    · exact .inr hlast

theorem formatTextEnd?_bounds {formats : List FormatString} {f : FormatString} {fuel : Nat} {named : Bool}
    (h : formatTextEnd? src formats f fuel named pos = some stop) : stop ≤ src.size := by
  induction fuel generalizing named pos with
  | zero => cases h
  | succ fuel ih =>
    unfold formatTextEnd? at h
    cases hc : src[pos]? with
    | none =>
      rw [hc] at h
      cases h
    | some c =>
      have := lt_size_of_char hc
      grind

theorem closesAt_le {f : FormatString} (h : f.closesAt src pos = true) : pos + f.quoteLength ≤ src.size := by
  unfold FormatString.closesAt at h
  unfold FormatString.quoteLength
  split at h
  · rw [if_pos ‹_›]
    exact tripleQuoteAt_le h
  · rw [if_neg ‹_›]
    exact lt_size_of_char (beq_iff_eq.1 h)

/-! ### Steps -/

/-- Whatever an operator changes, it is read. -/
theorem operatorStep_stands (h : operatorStep src s = some (tokens, next)) : Lexed src s.pos tokens next := by
  have hemit {length : Nat} {s' : LexerState} (hlength : s.pos + length ≤ src.size) (hs' : s'.pos = s.pos + length)
      (h : some ([tokenAt src .operator s.pos (s.pos + length)], some s') = some (tokens, next)) :
      Lexed src s.pos tokens next := by
    cases h
    exact .token (by decide) (Nat.le_add_right _ _) hlength hs'
  cases hc : src[s.pos]? with
  | none =>
    simp only [operatorStep, hc] at h
    cases h
  | some c =>
    have hlt := lt_size_of_char hc
    simp only [operatorStep, hc] at h
    split at h
    · exact hemit hlt rfl h
    split at h
    · split at h
      · cases h
      · split at h
        · exact hemit hlt rfl h
        · cases h
    split at h
    · exact hemit hlt rfl h
    split at h
    · rename_i o ho
      -- all of the operator stands there
      have hlength : min (s.pos + o.length) src.size - s.pos = o.length := by
        have := List.find?_some ho
        rw [beq_iff_eq] at this
        rw [← Array.size_extract, ← Array.length_toList, this]
      exact hemit (by omega) rfl h
    · split at h
      · exact hemit hlt rfl h
      · cases h

theorem nameStep_stands (hpos : s.pos ≤ src.size) (h : nameStep src s = some (tokens, next)) :
    Lexed src s.pos tokens next := by
  simp only [nameStep] at h
  split at h
  · cases h
  · rename_i htext
    split at h <;> cases h
    have hle : s.pos ≤ skipWhile isNameLike src src.size s.pos := le_skipWhile
    have hsize := skipWhile_le_size (p := isNameLike) hpos
    exact ⟨List.forall_mem_singleton.2 (.name hle hsize htext ‹_›), .single (Nat.le_refl _) hle (Nat.le_refl _), hsize⟩

theorem stringStep_stands {mark : List Char} (hfirst : src[s.pos]? ≠ some '\n')
    (hletters : ∀ i, s.pos ≤ i → i < s.pos + mark.length → src[i]? ≠ some '"' ∧ src[i]? ≠ some '\'')
    (hquotes : ∀ quote ∈ src[s.pos + mark.length]?, quote = '"' ∨ quote = '\'')
    (h : stringStep src s mark = some (tokens, next)) : Lexed src s.pos tokens next := by
  simp only [stringStep] at h
  split at h
  · cases h
  · rename_i quote hquote
    have hlt := lt_size_of_char hquote
    split at h
    · cases h
      refine .token (by decide) (by omega) ?_ rfl
      unfold FormatString.quoteLength
      split
      · exact tripleQuoteAt_le ‹_›
      · exact hlt
    · obtain ⟨stop, hstop, ⟨⟩⟩ := Option.map_eq_some_iff.1 h
      obtain ⟨hlt, hsize, -⟩ := stringEnd?_spec hstop
      have hstart : s.pos < stop := by omega
      refine ⟨List.forall_mem_singleton.2 ?_, .single (Nat.le_refl _) (Nat.le_of_lt hstart) (Nat.le_refl _), hsize⟩
      exact .literal hfirst ⟨Nat.le_add_right _ _, hletters, hquote, hquotes quote hquote, hstop⟩

theorem continuationStep_stands (h : continuationStep src s = some (tokens, next)) : Lexed src s.pos tokens next := by
  simp only [continuationStep] at h
  split at h
  · have hlt := (breakEnd?_bounds ‹_›).1
    split at h <;> cases h
    exact .silent (Nat.le_of_succ_le (Nat.le_of_lt hlt)) (Nat.le_of_lt ‹_›)
  · cases h

/-- The tokens that end a text have no width. -/
theorem mem_finalTokens {t : Token} (ht : t ∈ finalTokens src s) :
    ∃ kind ≠ TokenKind.string, t = ⟨kind, "", src.size, src.size⟩ := by
  simp only [finalTokens, List.mem_append, List.mem_map, List.mem_singleton] at ht
  rcases ht with (ht | ⟨_, -, rfl⟩) | rfl
  · split at ht
    · cases ht
    · exact ⟨_, by decide, List.mem_singleton.1 ht⟩
  · exact ⟨_, by decide, rfl⟩
  · exact ⟨_, by decide, rfl⟩

theorem finalTokens_lexed (hpos : s.pos ≤ src.size) : Lexed src s.pos (finalTokens src s) none := by
  refine ⟨fun t ht => ?_, .of_le hpos (.here fun t ht => ?_), Nat.le_refl _⟩
  · obtain ⟨kind, hkind, rfl⟩ := mem_finalTokens ht
    exact .here hkind (Nat.le_refl _)
  · obtain ⟨kind, hkind, rfl⟩ := mem_finalTokens ht
    exact ⟨rfl, rfl⟩

/-- Letters that mark a string stand before a quote. -/
theorem stringMark?_quote {mark : List Char} (h : stringMark? src pos = some mark) :
    ∀ quote ∈ src[pos + mark.length]?, quote = '"' ∨ quote = '\'' := by
  have := List.find?_some h
  simp only [Bool.and_eq_true, Bool.or_eq_true, beq_iff_eq] at this
  intro quote hquote
  exact this.2.imp (fun hnext => Option.some.inj (hquote.symm.trans hnext))
    fun hnext => Option.some.inj (hquote.symm.trans hnext)

theorem plainStep_stands (hpos : s.pos ≤ src.size) (h : plainStep src s = some (tokens, next)) :
    Lexed src s.pos tokens next := by
  simp only [plainStep] at h
  split at h
  · cases h
    exact finalTokens_lexed hpos
  rename_i c hc
  split at h
  · obtain ⟨hlt, hle⟩ := breakEnd?_bounds ‹_›
    split at h <;> cases h
    · exact .silent (Nat.le_of_lt hlt) hle
    · exact .token (by decide) (Nat.le_of_lt hlt) hle rfl
  rename_i hbreak
  have hfirst : src[s.pos]? ≠ some '\n' := fun hfeed => by
    rw [breakEnd?, hfeed] at hbreak
    cases hbreak
  split at h
  · exact continuationStep_stands h
  split at h
  · refine stringStep_stands hfirst ?_ ?_ h
    · exact fun i hi hlt => absurd hlt (Nat.not_lt.2 hi)
    · intro quote hquote
      cases hc.symm.trans hquote
      assumption
  split at h
  · obtain ⟨stop, hstop, ⟨⟩⟩ := Option.map_eq_some_iff.1 h
    obtain ⟨hle, hsize⟩ := numberEnd?_bounds hpos hstop
    exact .token (by decide) hle hsize rfl
  split at h
  · split at h
    · exact stringStep_stands hfirst (letters_of_stringMark? ‹_›) (stringMark?_quote ‹_›) h
    · exact nameStep_stands hpos h
  · exact operatorStep_stands h

/-- The tokens that close blocks have no width. -/
theorem mem_closeBlocks {wide narrow : Nat} {indents left : List (Nat × Nat)}
    (h : closeBlocks pos wide narrow indents = some (tokens, left)) : ∀ t ∈ tokens, t = ⟨.dedent, "", pos, pos⟩ := by
  induction indents generalizing tokens with
  | nil =>
    unfold closeBlocks at h
    split at h <;> cases h
    exact nofun
  | cons block rest ih =>
    unfold closeBlocks at h
    split at h
    · obtain ⟨⟨closed, left'⟩, hrest, ⟨⟩⟩ := Option.map_eq_some_iff.1 h
      exact List.forall_mem_cons.2 ⟨rfl, ih hrest⟩
    · split at h <;> cases h
      exact nofun

/-- Where a line begins, all tokens stand behind its white space. -/
theorem startLine_lexed (hpos : s.pos ≤ src.size) (h : startLine src s = some (tokens, s')) :
    Lexed src s.pos tokens (some s') := by
  obtain ⟨hge, hle⟩ := measureIndent_bounds (src.size - s.pos) 0 0 hpos
  simp only [startLine] at h
  split at h
  · cases h
    exact .silent hge hle
  split at h
  · split at h <;> cases h
    exact ⟨List.forall_mem_singleton.2 (.here (by decide) hle), .single hge (Nat.le_refl _) (Nat.le_refl _), hle⟩
  · obtain ⟨⟨closed, left⟩, hclosed, ⟨⟩⟩ := Option.map_eq_some_iff.1 h
    have hmem := mem_closeBlocks hclosed
    refine ⟨fun t ht => ?_, .of_le hge (.here fun t ht => ?_), hle⟩
    · rw [hmem t ht]
      exact .here (by decide) hle
    · rw [hmem t ht]
      exact ⟨rfl, rfl⟩

theorem codeStep_stands (hpos : s.pos ≤ src.size) (h : codeStep src s = some (tokens, next)) :
    Lexed src s.pos tokens next := by
  simp only [codeStep] at h
  obtain ⟨⟨pre, s'⟩, hstart, h⟩ := Option.bind_eq_some_iff.1 h
  obtain ⟨⟨more, next'⟩, hplain, ⟨⟩⟩ := Option.map_eq_some_iff.1 h
  have hpre : Lexed src s.pos pre (some s') := by
    split at hstart
    · exact startLine_lexed hpos hstart
    · cases hstart
      exact .silent (Nat.le_refl _) hpos
  refine (plainStep_stands ?inside hplain).prepend hpre.stand (List.append_nil pre ▸ hpre.row.append (.nil ?after))
  -- white space and a comment end inside of the text
  case inside =>
    split
    · exact skipWhile_le_size (skipWhile_le_size hpre.inside)
    · exact skipWhile_le_size hpre.inside
  case after =>
    split
    · exact Nat.le_trans le_skipWhile le_skipWhile
    · exact le_skipWhile

/-- **What a step of the lexer yields stands in the text.** -/
theorem lexerStep_stands (hpos : s.pos ≤ src.size) (h : lexerStep src s = some (tokens, next)) :
    Lexed src s.pos tokens next := by
  unfold lexerStep at h
  split at h
  · exact codeStep_stands hpos h
  split at h
  · exact codeStep_stands hpos h
  split at h
  · cases h
  · rename_i hstop
    simp only at h
    split at h
    · cases h
      exact .token (by decide) (Nat.le_of_lt ‹_›) (formatTextEnd?_bounds hstop) rfl
    split at h
    · cases h
      exact .token (by decide) (Nat.le_add_right _ _) (closesAt_le ‹_›) rfl
    · exact plainStep_stands hpos h

theorem tokensFrom_stands {fuel : Nat} {done ts : Array Token} (hdone : ∀ t ∈ done, t.Stands src)
    (hrow : InRow 0 s.pos done.toList) (hpos : s.pos ≤ src.size) (h : tokensFrom src fuel s done = some ts) :
    (∀ t ∈ ts, t.Stands src) ∧ InRow 0 src.size ts.toList := by
  induction fuel generalizing s done with
  | zero => cases h
  | succ fuel ih =>
    unfold tokensFrom at h
    have hadd {tokens : List Token} {next : Option LexerState} (hstep : lexerStep src s = some (tokens, next)) :
        (∀ t ∈ done ++ tokens, t.Stands src) ∧ InRow 0 (stepEnd src next) (done ++ tokens).toList := by
      have hlexed := lexerStep_stands hpos hstep
      rw [Array.toList_appendList]
      refine ⟨fun t ht => ?_, hrow.append hlexed.row⟩
      rw [← Array.mem_toList_iff, Array.toList_appendList, List.mem_append, Array.mem_toList_iff] at ht
      exact ht.elim (hdone t) (hlexed.stand t)
    split at h
    · cases h
    · cases h
      exact hadd ‹_›
    · rename_i hstep
      exact ih (hadd hstep).1 (hadd hstep).2 (lexerStep_stands hpos hstep).inside h

/-- **The tokens of a text stand in it.** -/
theorem tokenize_stands {ts : Array Token} (h : tokenize src = some ts) : ∀ t ∈ ts, t.Stands src :=
  (tokensFrom_stands (by simp) (.nil (Nat.le_refl _)) (Nat.zero_le _) h).1

/-- **The tokens of a text stand in a row.** -/
theorem tokenize_inRow {ts : Array Token} (h : tokenize src = some ts) : InRow 0 src.size ts.toList :=
  (tokensFrom_stands (by simp) (.nil (Nat.le_refl _)) (Nat.zero_le _) h).2

end HouseStyle.Python
