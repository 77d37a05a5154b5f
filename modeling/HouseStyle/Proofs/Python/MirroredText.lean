import HouseStyle.Proofs.Python.Respelling

/-!
# Texts that are cut alike

A text in which literals stand between other quotes is cut into tokens at the same places, provided that the
quotes of a literal do not run together with those behind it, and that no literal is read in the text of a format string.

* `Token.Kept`: what may become of a token; `quotesApart`: what is asked of a text.
* `Respells.stringStep_eq`, `Respells.lexerStep_eq`: one step of the lexer.
* `Respells.tokenize_eq`: **all steps**, by induction.
-/

namespace HouseStyle.Python

open Cursor (skipWhile)

/-! ### Tokens that are kept -/

/-- A stretch holds the same characters in both texts. -/
def Unchanged (src src' : Array Char) (start stop : Nat) : Prop :=
  ∀ i, start ≤ i → i < stop → src'[i]? = src[i]?

/-- **A literal between other quotes**: behind its letters `q` stood and `p` stands, which does not occur between
the quotes. -/
structure Reclosed (src src' : Array Char) (start stop k : Nat) (q p : Char) : Prop where
  le : start ≤ k
  lt : k + 1 < stop
  letters : ∀ i, start ≤ i → i < k → (src[i]?).any isDelimiter = false
  isQuote : isDelimiter q = true
  opened : src[k]? = some q
  opens : src'[k]? = some p
  closes : src'[stop - 1]? = some p
  body : ∀ i, k < i → i + 1 < stop → src'[i]? = src[i]? ∧ src'[i]? ≠ some p
  single : tripleQuoteAt src q k = false

/-- **A token whose text is kept**, but for the quotes of a literal. -/
inductive Token.Kept (src src' : Array Char) (t : Token) : Prop
  | same (h : Unchanged src src' t.start t.stop)
  | reclosed {k : Nat} {q p : Char} (kind : t.kind = .string) (h : Reclosed src src' t.start t.stop k q p)

theorem Token.Kept.unchanged {src src' : Array Char} {t : Token} (h : t.Kept src src') (hkind : t.kind ≠ .string) :
    Unchanged src src' t.start t.stop := by
  cases h with
  | same h => exact h
  | reclosed kind h => exact absurd kind hkind

/-- The token at the same place of another text. -/
def Token.inText (src : Array Char) (t : Token) : Token :=
  tokenAt src t.kind t.start t.stop

theorem text_self (src : Array Char) (pos : Nat) : Cursor.text src pos pos = "" := by
  simp [Cursor.text]

/-- A token that stands in a text is the one at its place. -/
theorem Token.Stands.inText_eq {src : Array Char} {t : Token} (h : t.Stands src) : t.inText src = t := by
  cases t
  rw [Token.inText, Python.tokenAt, ← h.text]

/-! ### Quotes that stay apart -/

/-- A quote and one more are not followed by the other one: then the second one would close a string, and with
other quotes around that, three of them would stand in a row. -/
def opensApart (src : Array Char) (k : Nat) : Bool :=
  !(src[k + 1]? == src[k]? && (src[k + 2]?).any isDelimiter && src[k + 2]? != src[k]?)

/-- Where the quote of a literal stands: behind its letters. -/
def quoteOf (src : Array Char) (t : Token) : Nat :=
  skipWhile (fun c => !isDelimiter c) src t.stop t.start

/-- The quotes of a literal or of the opening of a format string are not followed by the other one. -/
def Token.opensApart (src : Array Char) (t : Token) : Bool :=
  !(t.kind == .string || t.kind == .formatOpen) || Python.opensApart src (quoteOf src t)

/-- Whether the next character belongs to the text of a format string. -/
def LexerState.inFormatText (s : LexerState) : Bool :=
  s.formats.head?.any fun f => !f.inExpression

/-- Whether a token can be told from its neighbours also with other quotes. A literal in the text of a format string
cannot: its quotes stand there since they would close the format string around. -/
def Token.isApart (src : Array Char) (s : LexerState) (t : Token) : Bool :=
  t.opensApart src && !(t.kind == .string && s.inFormatText)

/-- Whether all tokens from a state on can be told from their neighbours. -/
def apartFrom (src : Array Char) : Nat → LexerState → Bool
  | 0, _ => true
  | fuel + 1, s =>
    match lexerStep src s with
    | none => true
    | some (tokens, next) => tokens.all (Token.isApart src s) && next.all (apartFrom src fuel)

/-- **Whether the literals of a text can be told from their neighbours**, whatever their quotes are. -/
def quotesApart (src : Array Char) : Bool :=
  apartFrom src (src.size + 2) .initial

/-- A step whose tokens are kept, and can be told from their neighbours. -/
structure KeptStep (src src' : Array Char) (s : LexerState) (tokens : List Token) (next : Option LexerState) : Prop where
  step : lexerStep src s = some (tokens, next)
  kept : ∀ t ∈ tokens, t.Kept src src'
  apart : ∀ t ∈ tokens, t.isApart src s = true

/-- A step that yields the tokens at the same places of another text, which can be told from their neighbours. -/
structure Repeats (src' : Array Char) (tokens : List Token) (next : Option LexerState) (step' : LexerStep) : Prop where
  step : step' = some (tokens.map (Token.inText src'), next)
  apart : ∀ t ∈ tokens, (t.inText src').opensApart src' = true

/-- Only literals and openings of format strings have quotes that could run together with others. -/
theorem Repeats.of_plain {src' : Array Char} {tokens : List Token} {next : Option LexerState} {step' : LexerStep}
    (hstep : step' = some (tokens.map (Token.inText src'), next))
    (hkinds : ∀ t ∈ tokens, t.kind ≠ .string ∧ t.kind ≠ .formatOpen) : Repeats src' tokens next step' := by
  refine ⟨hstep, fun t ht => ?_⟩
  obtain ⟨hstring, hopen⟩ := hkinds t ht
  simp [Token.opensApart, Token.inText, tokenAt, hstring, hopen]

theorem Repeats.of_skip {src' : Array Char} {next : Option LexerState} : Repeats src' [] next (some ([], next)) :=
  .of_plain rfl (List.forall_mem_nil _)

theorem Repeats.of_tokenAt {src src' : Array Char} {kind : TokenKind} {start stop : Nat} {next : Option LexerState}
    (hkind : kind ≠ .string ∧ kind ≠ .formatOpen) :
    Repeats src' [tokenAt src kind start stop] next (some ([tokenAt src' kind start stop], next)) :=
  .of_plain rfl (List.forall_mem_singleton.2 hkind)

theorem FormatString.quoteLength_pos (f : FormatString) : 0 < f.quoteLength := by
  unfold quoteLength
  split <;> decide

namespace Respells

variable {src src' : Array Char} {i k pos start stop : Nat} {p q : Char} {s : LexerState} {tokens : List Token}
  {next : Option LexerState} {f : FormatString} {formats : List FormatString} {named : Bool}

section

variable (h : Respells src src')

include h

theorem isDelimiter_iff (i : Nat) : (src'[i]?).any isDelimiter = (src[i]?).any isDelimiter :=
  h.any_eq invariant_isDelimiter i

theorem extract_eq (hsame : Unchanged src src' start stop) : src'.extract start stop = src.extract start stop := by
  refine Array.ext_getElem? fun i => ?_
  rw [Array.getElem?_extract, Array.getElem?_extract, h.size]
  split
  · exact hsame _ (by omega) (by omega)
  · rfl

theorem quoteOf_eq (t : Token) : quoteOf src' (t.inText src') = quoteOf src t := by
  have hp : Invariant fun c => !isDelimiter c := fun c c' hkin =>
    congrArg not (invariant_isDelimiter c c' hkin)
  exact h.skipWhile_eq hp t.stop t.start

/-- **Three quotes in a row**, if the quotes of a string stand apart: they are told alike in both texts. -/
theorem opening_eq (hq : src[k]? = some q) (hp : src'[k]? = some p) (hquote : isDelimiter q = true)
    (hapart : opensApart src k = true) (hback : src'[k + 1]? = some p → src[k + 1]? = some q)
    (htriple : tripleQuoteAt src q k = true → tripleQuoteAt src' p k = true) :
    tripleQuoteAt src' p k = tripleQuoteAt src q k ∧ opensApart src' k = true := by
  have hthird := h.isDelimiter_iff (k + 2)
  have hp' : isDelimiter p = true := by
    have := h.isDelimiter_iff k
    rwa [hq, hp, Option.any_some, Option.any_some, hquote] at this
  simp only [tripleQuoteAt, opensApart, hq, hp, beq_self_eq_true, Bool.true_and] at hapart htriple ⊢
  grind

/-! ### Literals -/

omit h in
theorem any_isDelimiter_eq_false {o : Option Char} : o.any isDelimiter = false ↔ o ≠ some '"' ∧ o ≠ some '\'' := by
  cases o <;> simp [isDelimiter]

omit h in
/-- Three quotes in a row within a stretch. -/
theorem tripleQuoteAt_eq (hstart : start ≤ k) (hstop : k + 3 ≤ stop)
    (hback : ∀ i, start ≤ i → i < stop → src'[i]? = some p → src[i]? = some q)
    (hthere : ∀ i, start ≤ i → i < stop → src[i]? = some q → src'[i]? = some p) :
    tripleQuoteAt src' p k = tripleQuoteAt src q k := by
  have hiff {i : Nat} (hi : start ≤ i) (hi' : i < stop) : (src'[i]? == some p) = (src[i]? == some q) := by
    rw [Bool.eq_iff_iff, beq_iff_eq, beq_iff_eq]
    exact ⟨hback i hi hi', hthere i hi hi'⟩
  rw [tripleQuoteAt, tripleQuoteAt, hiff hstart (by omega), hiff (by omega) (by omega), hiff (by omega) (by omega)]

/-- What a literal holds is passed over as before: its new quote `p` stands only where `q` stood, and at its end. -/
theorem stringTail?_eq {triple : Bool} {fuel : Nat}
    (hback : ∀ i, pos ≤ i → i < stop → src'[i]? = some p → src[i]? = some q) (hlast : src'[stop - 1]? = some p)
    (htriple : triple = true → ∀ i, pos ≤ i → i < stop → src[i]? = some q → src'[i]? = some p)
    (hstop : stringTail? src q triple fuel pos = some stop) : stringTail? src' p triple fuel pos = some stop := by
  induction fuel generalizing pos with
  | zero => cases hstop
  | succ fuel ih =>
    -- what is behind is passed over by induction
    have hgo {pos' : Nat} (hle : pos ≤ pos') (hstop' : stringTail? src q triple fuel pos' = some stop) :
        stringTail? src' p triple fuel pos' = some stop :=
      ih (fun i hi => hback i (Nat.le_trans hle hi)) (fun ht i hi => htriple ht i (Nat.le_trans hle hi)) hstop'
    have hlt := stringTail?_lt hstop
    have hpos : pos < stop := by split at hlt <;> omega
    have hbreak := h.breakEnd?_eq (pos + 1)
    unfold stringTail? at hstop ⊢
    cases hc : src[pos]? with
    | none =>
      rw [hc] at hstop
      cases hstop
    | some c =>
      obtain ⟨c', hc', hkin⟩ := h.exists_char hc
      have hslash := hkin.eq_iff (x := '\\') rfl
      have hfeed := hkin.eq_iff (x := '\n') rfl
      have hreturn := hkin.eq_iff (x := '\r') rfl
      rw [hc] at hstop
      rw [hc']
      dsimp only at hstop ⊢
      simp only [hslash, hfeed, hreturn, hbreak]
      split at hstop
      · rw [if_pos ‹_›]
        exact hgo (le_afterEscape pos) hstop
      rw [if_neg ‹_›]
      by_cases hopen : c = q
      · subst hopen
        rw [if_pos rfl] at hstop
        split at hstop
        · cases hstop
          rw [Nat.add_sub_cancel, hc'] at hlast
          rw [if_pos (Option.some.inj hlast), if_pos ‹_›]
        · rename_i hthree
          rw [Bool.not_eq_true', Bool.not_eq_false] at hthree
          rw [hthree, if_pos rfl] at hlt
          have hthere : c' = p := Option.some.inj (hc'.symm.trans (htriple hthree pos (Nat.le_refl _) (by omega) hc))
          rw [if_pos hthere, if_neg (by rw [hthree]; decide), tripleQuoteAt_eq (Nat.le_refl pos) hlt hback (htriple hthree)]
          split at hstop
          · rw [if_pos ‹_›]
            exact hstop
          · rw [if_neg ‹_›]
            exact hgo (Nat.le_succ pos) hstop
      · have hother : c' ≠ p := by
          rintro rfl
          have := hback pos (Nat.le_refl pos) hpos hc'
          exact hopen (Option.some.inj (hc.symm.trans this))
        rw [if_neg hopen] at hstop
        rw [if_neg hother]
        split at hstop
        · cases hstop
        · rw [if_neg ‹_›]
          exact hgo (Nat.le_succ pos) hstop

/-- **A literal that is kept ends where it ended**, and its quotes stand apart from what follows. -/
theorem stringEnd?_eq (hq : src[k]? = some q) (hp : src'[k]? = some p) (hquote : isDelimiter q = true)
    (hapart : opensApart src k = true)
    (hkept : Unchanged src src' k stop ∨ Reclosed src src' k stop k q p)
    (hstop : stringEnd? src q k = some stop) :
    stringEnd? src' p k = some stop ∧ opensApart src' k = true := by
  obtain ⟨hlt, -, hlast⟩ := stringEnd?_spec hstop
  rcases hkept with hsame | hclosed
  · obtain rfl : p = q := Option.some.inj (hp.symm.trans ((hsame k (Nat.le_refl k) hlt).trans hq))
    unfold stringEnd? at hstop ⊢
    have hopening (hnext : k + 1 < stop) (hthree : tripleQuoteAt src p k = true → k + 3 ≤ stop) :=
      h.opening_eq hq hp hquote hapart (fun hnext' => (hsame _ (Nat.le_succ k) hnext) ▸ hnext') fun ht => by
        rw [tripleQuoteAt_eq (Nat.le_refl k) (hthree ht) (fun i hi hi' heq => (hsame i hi hi') ▸ heq)
          fun i hi hi' heq => (hsame i hi hi').trans heq]
        exact ht
    have htail {triple : Bool} {pos : Nat} (hpos : k ≤ pos) (ht : stringTail? src p triple (src.size - k) pos = some stop) :
        stringTail? src' p triple (src'.size - k) pos = some stop := by
      rw [h.size]
      exact h.stringTail?_eq (fun i hi hi' heq => (hsame i (Nat.le_trans hpos hi) hi') ▸ heq)
        ((hsame _ (by omega) (by omega)).trans hlast)
        (fun _ i hi hi' heq => (hsame i (Nat.le_trans hpos hi) hi').trans heq) ht
    split at hstop
    · have hlong := stringTail?_lt hstop
      rw [if_pos rfl] at hlong
      obtain ⟨hthree, hstays⟩ := hopening (by omega) fun _ => by omega
      rw [hthree, if_pos ‹_›]
      exact ⟨htail (by omega) hstop, hstays⟩
    · have hlong := stringTail?_lt hstop
      rw [if_neg (by decide)] at hlong
      obtain ⟨hthree, hstays⟩ := hopening (by omega) fun ht => absurd ht ‹_›
      rw [hthree, if_neg ‹_›]
      exact ⟨htail (by omega) hstop, hstays⟩
  · -- the new quote stands at both ends only
    have hback (i : Nat) (hi : k + 1 ≤ i) (hi' : i < stop) (heq : src'[i]? = some p) : src[i]? = some q := by
      rcases Nat.lt_or_ge (i + 1) stop with hin | hend
      · exact absurd heq (hclosed.body i hi hin).2
      · rw [show i = stop - 1 by omega]
        exact hlast
    have hone : ¬ tripleQuoteAt src q k = true := by
      rw [hclosed.single]
      decide
    obtain ⟨hthree, hstays⟩ := h.opening_eq hq hp hquote hapart (hback _ (Nat.le_refl _) hclosed.lt)
      fun ht => absurd ht hone
    unfold stringEnd? at hstop ⊢
    rw [if_neg hone] at hstop
    rw [hthree, if_neg hone, h.size]
    exact ⟨h.stringTail?_eq hback hclosed.closes nofun hstop, hstays⟩

omit h in
/-- The quote of a literal is the first one from its letters on. -/
theorem quoteOf_tokenAt {kind : TokenKind} (hle : start ≤ k) (hlt : k < stop)
    (hletters : ∀ i, start ≤ i → i < k → (src[i]?).any isDelimiter = false)
    (hquote : (src[k]?).any isDelimiter = true) : quoteOf src (tokenAt src kind start stop) = k := by
  refine skipWhile_eq_of hle hlt (fun i hi hi' => ?_) ?_
  · have hnone := hletters i hi hi'
    have hk := lt_size_of_any hquote
    rw [Array.getElem?_eq_getElem (by omega), Option.any_some] at hnone ⊢
    rw [hnone]
    rfl
  · obtain ⟨q, hq, hdelimiter⟩ := (Option.any_eq_true _ _).1 hquote
    rw [hq, Option.any_some, hdelimiter]
    rfl

/-- The step over a literal or the opening of a format string. -/
theorem stringStep_eq {mark : List Char}
    (hletters : ∀ i, s.pos ≤ i → i < s.pos + mark.length → (src[i]?).any isDelimiter = false)
    (hquote : (src[s.pos + mark.length]?).any isDelimiter = true) (hkept : ∀ t ∈ tokens, t.Kept src src')
    (hapart : ∀ t ∈ tokens, t.opensApart src = true)
    (hahead : ∀ s' ∈ next, s'.inFormatText = true → src'[s'.pos]? = src[s'.pos]?)
    (hstep : stringStep src s mark = some (tokens, next)) : Repeats src' tokens next (stringStep src' s mark) := by
  obtain ⟨q, hq, hdelimiter⟩ := (Option.any_eq_true _ _).1 hquote
  set k := s.pos + mark.length with hk
  have hle : s.pos ≤ k := Nat.le_add_right _ _
  obtain ⟨p, hp, -⟩ := h.exists_char hq
  unfold stringStep at hstep ⊢
  simp only [← hk, hq, hp] at hstep ⊢
  split at hstep
  · -- the opening of a format string is the same in both texts
    rw [if_pos ‹_›]
    have hopens {stop : Nat} (hlt : k < stop) (hthree : tripleQuoteAt src q k = true → k + 3 ≤ stop)
        (hhere : (tokenAt src .formatOpen s.pos stop).opensApart src = true)
        (hsame : Unchanged src src' s.pos stop)
        (hnext : tripleQuoteAt src q k = false → src'[k + 1]? = src[k + 1]?) :
        q = p ∧ tripleQuoteAt src' p k = tripleQuoteAt src q k ∧
          ((tokenAt src .formatOpen s.pos stop).inText src').opensApart src' = true := by
      have hplace : quoteOf src (tokenAt src .formatOpen s.pos stop) = k := quoteOf_tokenAt hle hlt hletters hquote
      rw [Token.opensApart, hplace] at hhere
      obtain rfl : q = p := Option.some.inj (hq.symm.trans ((hsame k hle hlt).symm.trans hp))
      have hfirst : src'[k + 1]? = src[k + 1]? := by
        cases ht : tripleQuoteAt src q k with
        | true => exact hsame _ (by omega) (by have := hthree ht; omega)
        | false => exact hnext ht
      obtain ⟨hthree', hstays⟩ := h.opening_eq hq hp hdelimiter hhere (fun heq => hfirst ▸ heq) fun ht => by
        rw [tripleQuoteAt_eq hle (hthree ht) (fun i hi hi' heq => (hsame i hi hi') ▸ heq)
          fun i hi hi' heq => (hsame i hi hi').trans heq]
        exact ht
      refine ⟨rfl, hthree', ?_⟩
      rw [Token.opensApart, h.quoteOf_eq, hplace, hstays, Bool.or_true]
    cases hstep
    have hsame := (hkept _ (List.mem_singleton_self _)).unchanged nofun
    have hthree (ht : tripleQuoteAt src q k = true) : k + 3 ≤ k + FormatString.quoteLength
        { quote := q, triple := tripleQuoteAt src q k, raw := mark.contains 'r', brackets := 0, specs := 0 } := by
      rw [FormatString.quoteLength, ht]
      exact Nat.le_refl _
    have hnext (ht : tripleQuoteAt src q k = false) : src'[k + 1]? = src[k + 1]? := by
      have := hahead _ rfl rfl
      simpa [FormatString.quoteLength, ht] using this
    have hlt : k < k + FormatString.quoteLength
        { quote := q, triple := tripleQuoteAt src q k, raw := mark.contains 'r', brackets := 0, specs := 0 } := by
      unfold FormatString.quoteLength
      split <;> omega
    obtain ⟨rfl, hthree', hstays⟩ := hopens hlt hthree (hapart _ (List.mem_singleton_self _)) hsame hnext
    rw [hthree']
    exact ⟨rfl, List.forall_mem_singleton.2 hstays⟩
  · rw [if_neg ‹_›]
    obtain ⟨stop, hstop, heq⟩ := Option.map_eq_some_iff.1 hstep
    cases heq
    obtain ⟨hlt, -, -⟩ := stringEnd?_spec hstop
    have hplace : quoteOf src (tokenAt src .string s.pos stop) = k := quoteOf_tokenAt hle hlt hletters hquote
    have hhere := hapart _ (List.mem_singleton_self _)
    rw [Token.opensApart, hplace] at hhere
    have hends : stringEnd? src' p k = some stop ∧ opensApart src' k = true := by
      refine h.stringEnd?_eq hq hp hdelimiter hhere ?_ hstop
      cases hkept _ (List.mem_singleton_self _) with
      | same hsame => exact .inl fun i hi hi' => hsame i (Nat.le_trans hle hi) hi'
      | @reclosed k' q' p' _ hclosed =>
        -- both are the first quote
        have hsamePlace : k' = k := by
          rcases Nat.lt_trichotomy k' k with hlt | heq | hlt
          · have := hletters k' hclosed.le hlt
            rw [hclosed.opened, Option.any_some, hclosed.isQuote] at this
            cases this
          · exact heq
          · have := hclosed.letters k hle hlt
            rw [hquote] at this
            cases this
        subst hsamePlace
        cases hq.symm.trans hclosed.opened
        cases hp.symm.trans hclosed.opens
        exact .inr { hclosed with le := Nat.le_refl _, letters := fun i hi hi' => absurd hi' (by omega) }
    rw [hends.1]
    refine ⟨rfl, List.forall_mem_singleton.2 ?_⟩
    rw [Token.opensApart, h.quoteOf_eq, hplace, hends.2, Bool.or_true]

end

/-! ### Texts of format strings -/

/-- What is done at a character of the text of a format string: the text ends there, or it goes on. -/
def formatTurn? (src : Array Char) (formats : List FormatString) (f : FormatString) (named : Bool) (pos : Nat) :
    Option (Option (Bool × Nat)) :=
  match src[pos]? with
  | none => none
  | some c =>
    if (c = '\n' ∨ c = '\r') ∧ !f.triple ∧ !f.inExpression then none
    else if c = '"' ∨ c = '\'' then
      if closesSome src formats pos then some none else some (some (named, pos + 1))
    else if c = '\\' then
      let next := src[pos + 1]?
      if next = some '{' ∨ next = some '}' then some (some (named, pos + 1))
      else if !f.raw ∧ next = some 'N' ∧ src[pos + 2]? = some '{' then some (some (true, pos + 3))
      else if f.raw ∧ next ≠ some '"' ∧ next ≠ some '\'' ∧ next ≠ some '\\' then some (some (named, pos + 1))
      else some (some (named, (breakEnd? src (pos + 1)).getD (pos + 2)))
    else if c = '{' then
      if !f.inSpec ∧ src[pos + 1]? = some '{' then some (some (named, pos + 2)) else some none
    else if c = '}' then
      if named then some (some (false, pos + 1))
      else if !f.inSpec ∧ src[pos + 1]? = some '}' then some (some (named, pos + 2))
      else some none
    else some (some (named, pos + 1))

theorem formatTextEnd?_succ (src : Array Char) (formats : List FormatString) (f : FormatString) (fuel : Nat)
    (named : Bool) (pos : Nat) : formatTextEnd? src formats f (fuel + 1) named pos =
      match formatTurn? src formats f named pos with
      | none => none
      | some none => some pos
      | some (some (named', pos')) => formatTextEnd? src formats f fuel named' pos' := by
  rw [formatTextEnd?, formatTurn?]
  cases src[pos]? with
  | none => rfl
  | some c =>
    dsimp only
    split_ifs <;> rfl

/-- A text goes on behind the character at hand. -/
theorem lt_of_formatTurn? {named' : Bool} {pos' : Nat} (hturn : formatTurn? src formats f named pos = some (some (named', pos'))) :
    pos < pos' := by
  have hescape : pos < (breakEnd? src (pos + 1)).getD (pos + 2) := by
    cases hb : breakEnd? src (pos + 1) with
    | none => exact Nat.lt_add_of_pos_right (by decide)
    | some next => exact Nat.lt_of_succ_lt (breakEnd?_bounds hb).1
  unfold formatTurn? at hturn
  split at hturn
  · cases hturn
  · dsimp only at hturn
    split_ifs at hturn
    all_goals cases hturn
    all_goals first
      | exact hescape
      | exact Nat.lt_add_of_pos_right (by decide)

/-- A text ends at a character that is no backslash, whether or not the name of a character is open. -/
theorem ends_of_formatTurn? (hturn : formatTurn? src formats f named pos = some none) :
    formatTurn? src formats f false pos = some none ∧ src[pos]? ≠ some '\\' := by
  unfold formatTurn? at hturn ⊢
  split at hturn
  · cases hturn
  · rename_i c hc
    rw [hc]
    dsimp only at hturn ⊢
    split_ifs at hturn ⊢
    all_goals cases hturn
    all_goals grind

/-- A text goes on, and ends where it would end at once. -/
theorem formatTextEnd?_ends {fuel : Nat} (hstop : formatTextEnd? src formats f fuel named pos = some stop) :
    pos ≤ stop ∧ formatTurn? src formats f false stop = some none := by
  induction fuel generalizing named pos with
  | zero => cases hstop
  | succ fuel ih =>
    rw [formatTextEnd?_succ] at hstop
    split at hstop
    · cases hstop
    · cases hstop
      exact ⟨Nat.le_refl _, (ends_of_formatTurn? ‹_›).1⟩
    · obtain ⟨hle, hends⟩ := ih hstop
      have hlt := lt_of_formatTurn? ‹_›
      exact ⟨by omega, hends⟩

/-- Where a text ends, it ends at once. -/
theorem formatTextEnd?_of_ends {fuel : Nat} (hends : formatTurn? src formats f false pos = some none) :
    formatTextEnd? src formats f (fuel + 1) false pos = some pos := by
  rw [formatTextEnd?_succ, hends]

/-- A character is told alike if it is the same, if quotes close a format string in both texts or in neither, and if
the same character stands behind a backslash. -/
theorem formatTurn?_eq (h : Respells src src') (hsame : src'[pos]? = src[pos]?)
    (hcloses : (src[pos]?).any isDelimiter = true → closesSome src' formats pos = closesSome src formats pos)
    (hnext : src[pos]? = some '\\' → src'[pos + 1]? = src[pos + 1]?) :
    formatTurn? src' formats f named pos = formatTurn? src formats f named pos := by
  unfold formatTurn?
  rw [hsame]
  cases hc : src[pos]? with
  | none => rfl
  | some c =>
    rw [hc] at hcloses hnext
    simp only [h.breakEnd?_eq, h.eq_some_iff (show isPlain '{' = true from rfl), h.eq_some_iff (show isPlain '}' = true from rfl)]
    split
    · rfl
    split
    · rw [hcloses (by simpa [isDelimiter] using ‹_›)]
    split
    · rw [hnext (congrArg some ‹_›)]
    · rfl

/-- A text ends at a quote that closes a format string, or at a brace. -/
theorem char_of_formatTurn? (hturn : formatTurn? src formats f named pos = some none) :
    ∃ c, src[pos]? = some c ∧ (isDelimiter c = true ∧ closesSome src formats pos = true ∨ c = '{' ∨ c = '}') := by
  unfold formatTurn? at hturn
  split at hturn
  · cases hturn
  · rename_i c hc
    refine ⟨c, hc, ?_⟩
    dsimp only at hturn
    split_ifs at hturn
    all_goals simp_all [isDelimiter]

/-- A text goes on at a quote that closes no format string. -/
theorem closesSome_of_formatTurn? {go : Bool × Nat} (hturn : formatTurn? src formats f named pos = some (some go))
    (hquote : (src[pos]?).any isDelimiter = true) : closesSome src formats pos = false := by
  obtain ⟨c, hc, hdelimiter⟩ := (Option.any_eq_true _ _).1 hquote
  have hdelimiter' : c = '"' ∨ c = '\'' := by simpa [isDelimiter] using hdelimiter
  unfold formatTurn? at hturn
  rw [hc] at hturn
  dsimp only at hturn
  split at hturn
  · cases hturn
  split at hturn
  · cases hturn
  · exact Bool.eq_false_iff.2 ‹_›

/-- The text of a format string ends where it ended: a quote that closed none closes none, and the one at its end
closes one. -/
theorem formatTextEnd?_eq (h : Respells src src') {fuel : Nat} (hsame : ∀ i, pos ≤ i → i ≤ stop → src'[i]? = src[i]?)
    (hopen : ∀ i, pos ≤ i → i < stop → (src[i]?).any isDelimiter = true → closesSome src formats i = false →
      closesSome src' formats i = false)
    (hcloses : (src[stop]?).any isDelimiter = true → closesSome src' formats stop = true)
    (hstop : formatTextEnd? src formats f fuel named pos = some stop) :
    formatTextEnd? src' formats f fuel named pos = some stop := by
  induction fuel generalizing named pos with
  | zero => cases hstop
  | succ fuel ih =>
    have hle := (formatTextEnd?_ends hstop).1
    have hturn := @formatTurn?_eq src src' pos f formats named h (hsame pos (Nat.le_refl _) hle)
    rw [formatTextEnd?_succ] at hstop ⊢
    split at hstop
    · cases hstop
    · rename_i hends
      cases hstop
      rw [hturn (fun hquote => ?_) fun hslash => absurd hslash (ends_of_formatTurn? hends).2, hends]
      obtain ⟨c, hc, ⟨-, hclosed⟩ | hbrace⟩ := char_of_formatTurn? hends
      · rw [hclosed, hcloses hquote]
      · rw [hc, Option.any_some] at hquote
        rcases hbrace with rfl | rfl <;> cases hquote
    · rename_i named' pos' hgo
      have hlt := lt_of_formatTurn? hgo
      have hle' := (formatTextEnd?_ends hstop).1
      rw [hturn (fun hquote => ?_) fun _ => hsame (pos + 1) (Nat.le_succ pos) (by omega), hgo]
      · exact ih (fun i hi => hsame i (by omega)) (fun i hi => hopen i (by omega)) hstop
      · have hnone := closesSome_of_formatTurn? hgo hquote
        rw [hnone, hopen pos (Nat.le_refl _) (by omega) hquote hnone]

/-! ### Steps -/

section

variable (h : Respells src src')

include h

/-- An operator is the one character or the word that it was. -/
theorem operatorStep_eq (hkept : ∀ t ∈ tokens, t.Kept src src') (hstep : operatorStep src s = some (tokens, next)) :
    Repeats src' tokens next (operatorStep src' s) := by
  have hfind : (longOperators.find? fun o => (src'.extract s.pos (s.pos + o.length)).toList == o) =
      longOperators.find? fun o => (src.extract s.pos (s.pos + o.length)).toList == o := by
    refine List.find?_congr fun o ho => ?_
    have hplain : ∀ x ∈ o, isPlain x = true := by
      have htable : (longOperators.all fun o => o.all isPlain) = true := by decide
      exact List.all_eq_true.1 (List.all_eq_true.1 htable o ho)
    have hword := h.extract_iff (f := id) (w := o) (fun x hx => invariant_of_plain (hplain x hx)) s.pos
    rw [List.map_id, List.map_id] at hword
    rw [Bool.eq_iff_iff, beq_iff_eq, beq_iff_eq, hword]
  -- the first character of an operator is kept
  have hemit {length : Nat} {s' : LexerState} (hlength : 0 < length)
      (hstep : some ([tokenAt src .operator s.pos (s.pos + length)], some s') = some (tokens, next)) :
      src'[s.pos]? = src[s.pos]? := by
    cases hstep
    exact (hkept _ (List.mem_singleton_self _)).unchanged nofun s.pos (Nat.le_refl _) (Nat.lt_add_of_pos_right hlength)
  have hplain {length : Nat} {s' : LexerState}
      (hstep : some ([tokenAt src .operator s.pos (s.pos + length)], some s') = some (tokens, next)) :
      Repeats src' tokens next (some ([tokenAt src' .operator s.pos (s.pos + length)], some s')) := by
    cases hstep
    exact .of_tokenAt (by decide)
  unfold operatorStep at hstep ⊢
  dsimp only at hstep ⊢
  rw [hfind]
  cases hc : src[s.pos]? with
  | none =>
    rw [hc] at hstep
    cases hstep
  | some c =>
    rw [hc] at hstep hemit
    dsimp only at hstep
    split at hstep
    · rw [hemit Nat.one_pos hstep]
      dsimp only
      rw [if_pos ‹_›]
      exact hplain hstep
    split at hstep
    · split at hstep
      · cases hstep
      split at hstep
      · rw [hemit Nat.one_pos hstep]
        dsimp only
        rw [if_neg ‹_›, if_pos ‹_›, if_pos ‹_›]
        exact hplain hstep
      · cases hstep
    split at hstep
    · rw [hemit Nat.one_pos hstep]
      dsimp only
      rw [if_neg ‹_›, if_neg ‹_›, if_pos ‹_›]
      exact hplain hstep
    split at hstep
    · rename_i o ho
      have hlength : 0 < o.length := by
        have hall : ∀ o ∈ longOperators, 0 < o.length := by decide
        exact hall o (List.mem_of_find?_eq_some ho)
      rw [hemit hlength hstep]
      dsimp only
      rw [if_neg ‹_›, if_neg ‹_›, if_neg ‹_›]
      exact hplain hstep
    · rename_i ho
      split at hstep
      · rw [hemit Nat.one_pos hstep]
        dsimp only
        rw [if_neg ‹_›, if_neg ‹_›, if_neg ‹_›, if_pos ‹_›]
        exact hplain hstep
      · cases hstep

/-- A name is the word that it was. -/
theorem nameStep_eq (hkept : ∀ t ∈ tokens, t.Kept src src') (hstep : nameStep src s = some (tokens, next)) :
    Repeats src' tokens next (nameStep src' s) := by
  unfold nameStep at hstep ⊢
  rw [h.size, h.skipWhile_eq invariant_isNameLike]
  dsimp only at hstep ⊢
  split at hstep
  · cases hstep
  · rename_i c rest htext
    split at hstep <;> cases hstep
    have hsame : Unchanged src src' s.pos (skipWhile isNameLike src src.size s.pos) :=
      (hkept _ (List.mem_singleton_self _)).unchanged nofun
    rw [h.extract_eq hsame, htext]
    dsimp only
    rw [if_pos ‹_›]
    exact .of_tokenAt (by decide)

theorem continuationStep_eq : continuationStep src' s = continuationStep src s := by
  unfold continuationStep
  rw [h.breakEnd?_eq, h.size]

theorem finalTokens_eq : finalTokens src' s = (finalTokens src s).map (Token.inText src') := by
  simp only [finalTokens, List.map_append, List.map_map, List.map_singleton, apply_ite (List.map (Token.inText src')),
    List.map_nil, Token.inText, tokenAt, text_self, h.size, Function.comp_def]

/-- The step at a character that is neither blank nor in a comment. -/
theorem plainStep_eq (hkept : ∀ t ∈ tokens, t.Kept src src') (hapart : ∀ t ∈ tokens, t.opensApart src = true)
    (hahead : ∀ s' ∈ next, s'.inFormatText = true → src'[s'.pos]? = src[s'.pos]?)
    (hstep : plainStep src s = some (tokens, next)) : Repeats src' tokens next (plainStep src' s) := by
  unfold plainStep at hstep ⊢
  cases hc : src[s.pos]? with
  | none =>
    have hc' : src'[s.pos]? = none := by
      rw [← Option.isNone_iff_eq_none, h.isNone_eq, hc, Option.isNone_none]
    rw [hc] at hstep
    rw [hc']
    cases hstep
    refine .of_plain (by rw [h.finalTokens_eq]) fun t ht => ?_
    simp only [finalTokens, List.mem_append, List.mem_map, List.mem_singleton] at ht
    rcases ht with (ht | ⟨_, -, rfl⟩) | rfl
    · split at ht
      · cases ht
      · rw [List.mem_singleton.1 ht]
        simp
    · simp
    · simp
  | some c =>
    obtain ⟨c', hc', hkin⟩ := h.exists_char hc
    have hslash := hkin.eq_iff (x := '\\') rfl
    have hdelimiter : (c' = '"' ∨ c' = '\'') ↔ (c = '"' ∨ c = '\'') := by
      have := invariant_isDelimiter c c' hkin
      rw [Bool.eq_iff_iff] at this
      simpa [isDelimiter] using this
    have hdot : (c' == '.') = (c == '.') := invariant_of_plain (x := '.') rfl c c' hkin
    rw [hc] at hstep
    rw [hc']
    dsimp only at hstep ⊢
    simp only [h.breakEnd?_eq, h.any_eq invariant_isDigit, h.numberEnd?_eq, h.stringMark?_eq, h.continuationStep_eq,
      invariant_isDigit c c' hkin, invariant_isNameLike c c' hkin, hslash, hdelimiter, hdot]
    split at hstep
    · split at hstep <;> cases hstep
      · rw [if_pos ‹_›]
        exact .of_skip
      · rw [if_neg ‹_›]
        exact .of_tokenAt (by decide)
    split at hstep
    · rw [if_pos ‹_›]
      unfold continuationStep at hstep ⊢
      split at hstep
      · split at hstep <;> cases hstep
        rw [if_pos ‹_›]
        exact .of_skip
      · cases hstep
    rw [if_neg ‹_›]
    split at hstep
    · rw [if_pos ‹_›]
      refine h.stringStep_eq (fun i hi hlt => absurd hlt (by simpa using hi)) ?_ hkept hapart hahead hstep
      simpa [hc, isDelimiter] using ‹c = '"' ∨ c = '\''›
    rw [if_neg ‹_›]
    split at hstep
    · rw [if_pos ‹_›]
      obtain ⟨stop, hstop, heq⟩ := Option.map_eq_some_iff.1 hstep
      cases heq
      rw [hstop]
      exact .of_tokenAt (by decide)
    rw [if_neg ‹_›]
    split at hstep
    · rw [if_pos ‹_›]
      split at hstep
      · rename_i mark hmark
        refine h.stringStep_eq (fun i hi hlt => ?_) ?_ hkept hapart hahead hstep
        · exact any_isDelimiter_eq_false.2 (letters_of_stringMark? hmark i hi hlt)
        have hfound := List.find?_some hmark
        rw [Bool.and_eq_true, Bool.or_eq_true, beq_iff_eq, beq_iff_eq, beq_iff_eq] at hfound
        rcases hfound.2 with hfound | hfound <;> rw [hfound] <;> rfl
      · exact h.nameStep_eq hkept hstep
    · rw [if_neg ‹_›]
      exact h.operatorStep_eq hkept hstep

omit h in
/-- Where a line begins, only blocks open and close. -/
theorem kind_of_startLine {s' : LexerState} (hstart : startLine src s = some (tokens, s')) :
    ∀ t ∈ tokens, t.kind = .indent ∨ t.kind = .dedent := by
  simp only [startLine] at hstart
  split at hstart
  · cases hstart
    exact List.forall_mem_nil _
  split at hstart
  · split at hstart <;> cases hstart
    exact List.forall_mem_singleton.2 (.inl rfl)
  · obtain ⟨⟨closed, left⟩, hclosed, ⟨⟩⟩ := Option.map_eq_some_iff.1 hstart
    intro t ht
    rw [mem_closeBlocks hclosed t ht]
    exact .inr rfl

/-- The step outside of the texts of format strings. -/
theorem codeStep_eq (hpos : s.pos ≤ src.size) (hkept : ∀ t ∈ tokens, t.Kept src src')
    (hapart : ∀ t ∈ tokens, t.opensApart src = true)
    (hahead : ∀ s' ∈ next, s'.inFormatText = true → src'[s'.pos]? = src[s'.pos]?)
    (hstep : codeStep src s = some (tokens, next)) : Repeats src' tokens next (codeStep src' s) := by
  have hblank : Invariant fun c => c == ' ' || c == '\t' || c == '\x0c' := invariant_of_table (by decide +kernel) rfl
  have hcomment : Invariant fun c => c != '\n' && c != '\r' := invariant_of_table (by decide +kernel) rfl
  have hhash := h.eq_some_iff (x := '#') rfl
  unfold codeStep at hstep ⊢
  simp only [h.startLine_eq, h.skipWhile_eq hblank, h.skipWhile_eq hcomment, h.size, hhash]
  obtain ⟨⟨pre, s'⟩, hstart, hstep⟩ := Option.bind_eq_some_iff.1 hstep
  obtain ⟨⟨more, next'⟩, hplain, heq⟩ := Option.map_eq_some_iff.1 hstep
  cases heq
  rw [List.forall_mem_append] at hkept hapart
  have hmore := h.plainStep_eq hkept.2 hapart.2 hahead hplain
  -- what stands before the line is the same
  have hpre : ∀ t ∈ pre, t.inText src' = t ∧ (t.kind = .indent ∨ t.kind = .dedent) := by
    intro t ht
    split at hstart
    · have hstands := (startLine_lexed (h.size ▸ hpos) ((h.startLine_eq s).trans hstart)).stand t ht
      exact ⟨hstands.inText_eq, kind_of_startLine hstart t ht⟩
    · cases hstart
      cases ht
  have hpreMap : pre.map (Token.inText src') = pre := by
    conv_rhs => rw [← List.map_id pre]
    exact List.map_congr_left fun t ht => (hpre t ht).1
  rw [hstart, Option.bind_some, hmore.step]
  refine ⟨by rw [List.map_append, hpreMap]; rfl, List.forall_mem_append.2 ⟨fun t ht => ?_, hmore.apart⟩⟩
  rcases (hpre t ht).2 with hkind | hkind <;> simp [Token.opensApart, Token.inText, tokenAt, hkind]

omit h in
theorem closesAt_eq (hsame : Unchanged src src' pos (pos + f.quoteLength)) : f.closesAt src' pos = f.closesAt src pos := by
  unfold FormatString.quoteLength at hsame
  unfold FormatString.closesAt
  split
  · rw [if_pos ‹_›] at hsame
    exact tripleQuoteAt_eq (Nat.le_refl pos) (Nat.le_refl _) (fun i hi hi' heq => (hsame i hi hi') ▸ heq)
      fun i hi hi' heq => (hsame i hi hi').trans heq
  · rw [if_neg ‹_›] at hsame
    rw [hsame pos (Nat.le_refl pos) (Nat.lt_succ_self pos)]

omit h in
/-- At a quote stands a literal. -/
theorem tokens_of_quote {c : Char} (hc : src[s.pos]? = some c) (hdelimiter : isDelimiter c = true)
    (hstep : plainStep src s = some (tokens, next)) : ∃ stop, tokens = [tokenAt src .string s.pos stop] := by
  have hdelimiter' : c = '"' ∨ c = '\'' := by simpa [isDelimiter] using hdelimiter
  have hbreak : breakEnd? src s.pos = none := by
    unfold breakEnd?
    rw [hc]
    rcases hdelimiter' with rfl | rfl <;> rfl
  have hslash : c ≠ '\\' := by rcases hdelimiter' with rfl | rfl <;> decide
  unfold plainStep at hstep
  rw [hc] at hstep
  dsimp only at hstep
  rw [hbreak] at hstep
  dsimp only at hstep
  rw [if_neg hslash, if_pos hdelimiter'] at hstep
  unfold stringStep at hstep
  simp only [List.length_nil, Nat.add_zero, hc, List.contains_nil, Bool.false_eq_true, if_false] at hstep
  obtain ⟨stop, -, heq⟩ := Option.map_eq_some_iff.1 hstep
  cases heq
  exact ⟨stop, rfl⟩

/-- Where the text of a format string ends, the same character stands. A quote there closes the innermost one. -/
theorem text_of_ends {rest : List FormatString} (hs : KeptStep src src' s tokens next) (hformats : s.formats = f :: rest)
    (hf : f.inExpression = false) (hends : formatTurn? src s.formats f false s.pos = some none) :
    src'[s.pos]? = src[s.pos]? ∧ ((src[s.pos]?).any isDelimiter = true →
      f.closesAt src s.pos = true ∧ f.closesAt src' s.pos = true) := by
  obtain ⟨c, hc, hchar⟩ := char_of_formatTurn? hends
  have hfuel : src.size + 1 - s.pos = src.size - s.pos + 1 := by
    have := lt_size_of_char hc
    omega
  have hstep := hs.step
  unfold lexerStep at hstep
  rw [hformats] at hends hstep
  simp only [hf, Bool.false_eq_true, hfuel, formatTextEnd?_of_ends hends, Nat.lt_irrefl, if_false] at hstep
  split at hstep
  · -- the quotes at its end are a token
    cases hstep
    have hsame : Unchanged src src' s.pos (s.pos + f.quoteLength) :=
      (hs.kept _ (List.mem_singleton_self _)).unchanged nofun
    exact ⟨hsame s.pos (Nat.le_refl _) (Nat.lt_add_of_pos_right f.quoteLength_pos), fun _ =>
      ⟨‹_›, (closesAt_eq hsame).trans ‹_›⟩⟩
  · rcases hchar with ⟨hdelimiter, -⟩ | hbrace
    · -- a literal would stand in the text
      obtain ⟨stop, rfl⟩ := tokens_of_quote hc hdelimiter hstep
      have hapart := hs.apart _ (List.mem_singleton_self _)
      simp [Token.isApart, LexerState.inFormatText, hformats, hf, tokenAt] at hapart
    · have hplain : isPlain c = true := by rcases hbrace with rfl | rfl <;> rfl
      refine ⟨by rw [hc, h.eq_some_iff hplain, hc], fun hquote => ?_⟩
      rw [hc, Option.any_some] at hquote
      rcases hbrace with rfl | rfl <;> cases hquote

/-- The text of a format string begins with the same character. -/
theorem text_first (hs : KeptStep src src' s tokens next) (hin : s.inFormatText = true) :
    src'[s.pos]? = src[s.pos]? := by
  obtain ⟨f, hhead, hf⟩ := (Option.any_eq_true _ _).1 hin
  obtain ⟨rest, hformats⟩ := List.head?_eq_some_iff.1 hhead
  rw [Bool.not_eq_true'] at hf
  have hstep := hs.step
  unfold lexerStep at hstep
  rw [hformats] at hstep
  simp only [hf] at hstep
  rw [if_neg (by decide)] at hstep
  split at hstep
  · cases hstep
  · rename_i stop hstop
    obtain ⟨hle, hends⟩ := formatTextEnd?_ends hstop
    split at hstep
    · cases hstep
      exact (hs.kept _ (List.mem_singleton_self _)).unchanged nofun s.pos (Nat.le_refl _) ‹_›
    · obtain rfl : stop = s.pos := by omega
      rw [← hformats] at hends
      exact (h.text_of_ends hs hformats hf hends).1

omit h in
/-- A quote in a text that closes no format string closes none in the other text. -/
theorem closesSome_eq_false (hmem : f ∈ formats) (hsame : ∀ i, start ≤ i → i ≤ stop → src'[i]? = src[i]?)
    (hquote : (src[stop]?).any isDelimiter = true → f.closesAt src stop = true ∧ f.closesAt src' stop = true)
    (hstart : start ≤ i) (hstop : i < stop) (hdelimiter : (src[i]?).any isDelimiter = true)
    (hnone : closesSome src formats i = false) : closesSome src' formats i = false := by
  have hnot (g : FormatString) (hg : g ∈ formats) : g.closesAt src i = false :=
    Bool.eq_false_iff.2 fun hclosed => Bool.eq_false_iff.1 hnone (List.any_eq_true.2 ⟨g, hg, hclosed⟩)
  refine Bool.eq_false_iff.2 fun hsome => ?_
  obtain ⟨g, hg, hclosed⟩ := List.any_eq_true.1 hsome
  have hgnot := hnot g hg
  have hfnot := hnot f hmem
  unfold FormatString.closesAt at hclosed hgnot
  split at hclosed
  · rw [if_pos ‹_›] at hgnot
    simp only [tripleQuoteAt, Bool.and_eq_true, beq_iff_eq] at hclosed
    obtain ⟨⟨hfirst, hsecond⟩, hthird⟩ := hclosed
    rw [hsame i hstart (by omega)] at hfirst
    rw [hsame (i + 1) (by omega) (by omega)] at hsecond
    rcases Nat.lt_or_eq_of_le (show i + 1 ≤ stop from hstop) with hin | rfl
    · rw [hsame (i + 2) (by omega) (by omega)] at hthird
      simp [tripleQuoteAt, hfirst, hsecond, hthird] at hgnot
    · -- the second quote ends the text, and closes the innermost format string
      rw [hfirst] at hdelimiter
      have hend := (hquote (by rw [hsecond]; exact hdelimiter)).1
      unfold FormatString.closesAt at hend hfnot
      split at hend
      · simp only [tripleQuoteAt, Bool.and_eq_true, beq_iff_eq] at hend
        have hsameQuote : g.quote = f.quote := Option.some.inj (hsecond.symm.trans hend.1.1)
        have hnext : src[i + 2]? = some g.quote := by rw [hsameQuote]; exact hend.1.2
        simp [tripleQuoteAt, hfirst, hsecond, hnext] at hgnot
      · rw [if_neg ‹_›] at hfnot
        have hsameQuote : g.quote = f.quote := Option.some.inj (hsecond.symm.trans (beq_iff_eq.1 hend))
        simp [hfirst, hsameQuote] at hfnot
  · rw [if_neg ‹_›] at hgnot
    rw [hsame i hstart (by omega), hgnot] at hclosed
    cases hclosed

/-- Where a brace stands, no quote closes a format string. -/
theorem closesAt_of_plain {c : Char} (hplain : isPlain c = true) (hc : src[pos]? = some c) (f : FormatString) :
    f.closesAt src' pos = f.closesAt src pos := by
  have hc' := (h.eq_some_iff hplain pos).2 hc
  unfold FormatString.closesAt tripleQuoteAt
  by_cases hquote : c = f.quote
  · have hthere (i : Nat) : (src'[i]? == some f.quote) = (src[i]? == some f.quote) := by
      rw [Bool.eq_iff_iff, beq_iff_eq, beq_iff_eq, h.eq_some_iff (hquote ▸ hplain)]
    simp only [hthere]
  · have hother : (c == f.quote) = false := beq_false_of_ne hquote
    simp [hc, hc', hother]

/-- **A step whose tokens are kept is repeated in the other text.** -/
theorem lexerStep_eq (hpos : s.pos ≤ src.size) (hs : KeptStep src src' s tokens next)
    (hnext : ∀ s' ∈ next, ∃ tokens' next', KeptStep src src' s' tokens' next') :
    Repeats src' tokens next (lexerStep src' s) := by
  have hapart : ∀ t ∈ tokens, t.opensApart src = true :=
    fun t ht => (Bool.and_eq_true_iff.1 (hs.apart t ht)).1
  have hahead : ∀ s' ∈ next, s'.inFormatText = true → src'[s'.pos]? = src[s'.pos]? := by
    intro s' hs' hin
    obtain ⟨tokens', next', hkept'⟩ := hnext s' hs'
    exact h.text_first hkept' hin
  have hstep := hs.step
  unfold lexerStep at hstep ⊢
  split at hstep
  · exact h.codeStep_eq hpos hs.kept hapart hahead hstep
  rename_i f rest hformats
  split at hstep
  · rw [if_pos ‹_›]
    exact h.codeStep_eq hpos hs.kept hapart hahead hstep
  rename_i hf
  rw [Bool.not_eq_true] at hf
  rw [if_neg (by rw [hf]; decide)]
  split at hstep
  · cases hstep
  rename_i stop hstop
  obtain ⟨hle, hends⟩ := formatTextEnd?_ends hstop
  -- the stretch up to the end of the text is the same, and so is the quote there
  have hstays : (∀ i, s.pos ≤ i → i ≤ stop → src'[i]? = src[i]?) ∧
      ((src[stop]?).any isDelimiter = true → f.closesAt src stop = true ∧ f.closesAt src' stop = true) := by
    by_cases hlt : s.pos < stop
    · rw [if_pos hlt] at hstep
      cases hstep
      obtain ⟨tokens', next', hs'⟩ := hnext _ rfl
      have hend := h.text_of_ends hs' hformats hf hends
      have hsame : Unchanged src src' s.pos stop := (hs.kept _ (List.mem_singleton_self _)).unchanged nofun
      refine ⟨fun i hi hi' => ?_, hend.2⟩
      rcases Nat.lt_or_eq_of_le hi' with hin | rfl
      · exact hsame i hi hin
      · exact hend.1
    · obtain rfl : stop = s.pos := by omega
      have hend := h.text_of_ends hs hformats hf hends
      refine ⟨fun i hi hi' => ?_, hend.2⟩
      obtain rfl : i = s.pos := by omega
      exact hend.1
  obtain ⟨hsame, hquote⟩ := hstays
  have hmem : f ∈ s.formats := by
    rw [hformats]
    exact List.mem_cons_self
  have hstop' : formatTextEnd? src' s.formats f (src'.size + 1 - s.pos) false s.pos = some stop := by
    rw [h.size]
    refine formatTextEnd?_eq h hsame (fun i hi hi' hdelimiter hnone => ?_) (fun hdelimiter => ?_) hstop
    · exact closesSome_eq_false hmem hsame hquote hi hi' hdelimiter hnone
    · exact List.any_eq_true.2 ⟨f, hmem, (hquote hdelimiter).2⟩
  rw [hstop']
  dsimp only
  split at hstep
  · cases hstep
    rw [if_pos ‹_›]
    exact .of_tokenAt (by decide)
  rw [if_neg ‹_›]
  obtain rfl : stop = s.pos := by omega
  split at hstep
  · cases hstep
    have hclose : Unchanged src src' s.pos (s.pos + f.quoteLength) :=
      (hs.kept _ (List.mem_singleton_self _)).unchanged nofun
    rw [if_pos ((closesAt_eq hclose).trans ‹_›)]
    exact .of_tokenAt (by decide)
  · rename_i hclosed
    -- a replacement field begins or a bracket closes
    obtain ⟨c, hc, ⟨hdelimiter, -⟩ | hbrace⟩ := char_of_formatTurn? hends
    · exact absurd (hquote (by rw [hc]; exact hdelimiter)).1 hclosed
    · have hplain : isPlain c = true := by rcases hbrace with rfl | rfl <;> rfl
      rw [if_neg (by rw [h.closesAt_of_plain hplain hc]; exact hclosed)]
      exact h.plainStep_eq hs.kept hapart hahead hstep

end

end Respells

/-! ### Runs -/

section

variable {src src' : Array Char} {s : LexerState} {done ts : Array Token} {fuel : Nat}

/-- Tokens that are cut stay. -/
theorem mem_of_tokensFrom (hrun : tokensFrom src fuel s done = some ts) : ∀ t ∈ done, t ∈ ts := by
  induction fuel generalizing s done with
  | zero => cases hrun
  | succ fuel ih =>
    intro t ht
    unfold tokensFrom at hrun
    have hmem (tokens : List Token) : t ∈ done ++ tokens := by
      rw [← Array.mem_toList_iff, Array.toList_appendList]
      exact List.mem_append_left _ (Array.mem_toList_iff.2 ht)
    split at hrun
    · cases hrun
    · cases hrun
      exact hmem _
    · exact ih hrun t (hmem _)

/-- A run begins with a step, and goes on from the next state. -/
theorem step_of_tokensFrom (hrun : tokensFrom src fuel s done = some ts) (hkept : ∀ t ∈ ts, t.Kept src src')
    (hapart : apartFrom src fuel s = true) :
    ∃ rest tokens next, fuel = rest + 1 ∧ KeptStep src src' s tokens next ∧
      ∀ s' ∈ next, tokensFrom src rest s' (done ++ tokens) = some ts ∧ apartFrom src rest s' = true := by
  cases fuel with
  | zero => cases hrun
  | succ rest =>
    unfold tokensFrom at hrun
    unfold apartFrom at hapart
    have hkeep {tokens : List Token} (hall : ∀ t ∈ done ++ tokens, t ∈ ts) : ∀ t ∈ tokens, t.Kept src src' := by
      intro t ht
      refine hkept t (hall t ?_)
      rw [← Array.mem_toList_iff, Array.toList_appendList]
      exact List.mem_append_right _ ht
    split at hrun
    · cases hrun
    · rename_i tokens hstep
      cases hrun
      rw [hstep] at hapart
      refine ⟨rest, tokens, none, rfl, ⟨hstep, hkeep fun _ h => h, ?_⟩, nofun⟩
      exact List.all_eq_true.1 (Bool.and_eq_true_iff.1 hapart).1
    · rename_i tokens s' hstep
      rw [hstep] at hapart
      obtain ⟨htokens, hnext⟩ := Bool.and_eq_true_iff.1 hapart
      refine ⟨rest, tokens, some s', rfl, ⟨hstep, hkeep (mem_of_tokensFrom hrun), List.all_eq_true.1 htokens⟩, ?_⟩
      rintro _ ⟨⟩
      exact ⟨hrun, hnext⟩

/-- **A run whose tokens are kept is repeated in the other text**, by induction on its steps. -/
theorem Respells.tokensFrom_eq (h : Respells src src') (hpos : s.pos ≤ src.size)
    (hrun : tokensFrom src fuel s done = some ts) (hkept : ∀ t ∈ ts, t.Kept src src')
    (hapart : apartFrom src fuel s = true) :
    tokensFrom src' fuel s (done.map (Token.inText src')) = some (ts.map (Token.inText src')) ∧
      apartFrom src' fuel s = true := by
  induction fuel generalizing s done with
  | zero => cases hrun
  | succ fuel ih =>
    obtain ⟨rest, tokens, next, hfuel, hs, hgo⟩ := step_of_tokensFrom hrun hkept hapart
    obtain rfl : fuel = rest := Nat.succ.inj hfuel
    have hrepeats := h.lexerStep_eq hpos hs fun s' hs' => by
      obtain ⟨hrun', hapart'⟩ := hgo s' hs'
      obtain ⟨-, tokens', next', -, hkept', -⟩ := step_of_tokensFrom hrun' hkept hapart'
      exact ⟨tokens', next', hkept'⟩
    have htokens : (tokens.map (Token.inText src')).all (Token.isApart src' s) = true := by
      rw [List.all_eq_true, List.forall_mem_map]
      intro t ht
      have hside := (Bool.and_eq_true_iff.1 (hs.apart t ht)).2
      rw [Token.isApart, hrepeats.apart t ht, Bool.true_and]
      exact hside
    have hdone : done.map (Token.inText src') ++ tokens.map (Token.inText src') =
        (done ++ tokens).map (Token.inText src') := by
      refine Array.ext' ?_
      simp only [Array.toList_map, Array.toList_appendList, List.map_append]
    unfold tokensFrom apartFrom
    rw [hrepeats.step]
    cases next with
    | none =>
      unfold tokensFrom at hrun
      rw [hs.step] at hrun
      cases hrun
      dsimp only
      rw [hdone, htokens]
      exact ⟨rfl, rfl⟩
    | some s' =>
      obtain ⟨hrun', hapart'⟩ := hgo s' rfl
      obtain ⟨hrest, hapartRest⟩ := ih (lexerStep_stands hpos hs.step).inside hrun' hapart'
      dsimp only
      rw [hdone, htokens, Option.all_some, hapartRest]
      exact ⟨hrest, rfl⟩

/-- **A text whose tokens are kept is cut alike**, and its literals can be told from their neighbours. -/
theorem Respells.tokenize_eq (h : Respells src src') (htokens : tokenize src = some ts)
    (hkept : ∀ t ∈ ts, t.Kept src src') (hapart : quotesApart src = true) :
    tokenize src' = some (ts.map (Token.inText src')) ∧ quotesApart src' = true := by
  have hrun := h.tokensFrom_eq (Nat.zero_le _) htokens hkept hapart
  rw [List.map_toArray, List.map_nil] at hrun
  unfold tokenize quotesApart
  rw [h.size]
  exact hrun

end

end HouseStyle.Python
