import HouseStyle.Proofs.Python.Tokens

/-!
# Texts that are spelled in other ways

The lexer takes a letter for the same letter in lower case, and one quote for another, unless it asks which quote it is.
-/

namespace HouseStyle.Python

open Cursor (skipWhile)

/-! ### Characters -/

/-- Whether a character can open a string. -/
def isDelimiter (c : Char) : Bool :=
  c == '"' || c == '\''

/-- **A character that the lexer takes for another one**, unless it asks which quote it is. -/
inductive Kin : Char → Char → Prop
  | same (c : Char) : Kin c c
  | lower (c : Char) : Kin c c.toLower
  | quote {c c' : Char} (h : isDelimiter c = true) (h' : isDelimiter c' = true) : Kin c c'

variable {α β : Type}

/-- A question to which characters that are taken for each other have one answer. -/
def Invariant (f : Char → β) : Prop :=
  ∀ c c', Kin c c' → f c' = f c

/-- Beyond ASCII lower case changes nothing. -/
theorem toLower_of_large {c : Char} (h : 128 ≤ c.toNat) : c.toLower = c := by
  unfold Char.toLower
  split
  · rename_i hupper
    have := UInt32.le_iff_toNat_le.1 hupper.2
    change c.val.toNat ≤ 90 at this
    have : c.toNat = c.val.toNat := rfl
    omega
  · rfl

/-- A question about a character needs a look at the letters and the quotes only. -/
theorem invariant_of_table [DecidableEq β] {f : Char → β}
    (hletters : ((List.range 128).all fun n => f (Char.ofNat n).toLower == f (Char.ofNat n)) = true)
    (hquotes : f '"' = f '\'') : Invariant f := by
  have hquote {c : Char} (h : isDelimiter c = true) : f c = f '"' := by
    rcases Bool.or_eq_true_iff.1 h with h | h
    · rw [beq_iff_eq.1 h]
    · rw [beq_iff_eq.1 h, hquotes]
  rintro c c' (_ | _ | ⟨h, h'⟩)
  · rfl
  · rcases Nat.lt_or_ge c.toNat 128 with hsmall | hlarge
    · have hc := List.all_eq_true.1 hletters c.toNat (List.mem_range.2 hsmall)
      rw [Char.ofNat_toNat] at hc
      exact beq_iff_eq.1 hc
    · rw [toLower_of_large hlarge]
  · rw [hquote h, hquote h']

/-- Whether a character is neither a letter nor a quote. -/
def isPlain (c : Char) : Bool :=
  decide (c.toNat < 128) && c.toLower == c && c.toUpper == c && !isDelimiter c

theorem isPlain_table : ((List.range 128).all fun n => (List.range 128).all fun m =>
    !isPlain (Char.ofNat n) || ((Char.ofNat m).toLower == Char.ofNat n) == (Char.ofNat m == Char.ofNat n)) = true := by
  decide +kernel

/-- Only a plain character is taken for itself alone. -/
theorem invariant_of_plain {x : Char} (hx : isPlain x = true) : Invariant (· == x) := by
  have hx' := hx
  simp only [isPlain, Bool.and_eq_true, decide_eq_true_eq] at hx'
  refine invariant_of_table (List.all_eq_true.2 fun m hm => ?_) ?_
  · have hrow := List.all_eq_true.1 (List.all_eq_true.1 isPlain_table x.toNat (List.mem_range.2 hx'.1.1.1)) m hm
    rw [Char.ofNat_toNat, hx, Bool.not_true, Bool.false_or] at hrow
    exact hrow
  · have hnot := hx'.2
    simp only [isDelimiter, Bool.not_eq_true', Bool.or_eq_false_iff, beq_eq_false_iff_ne] at hnot
    rw [beq_false_of_ne (Ne.symm hnot.1), beq_false_of_ne (Ne.symm hnot.2)]

/-- A character is a plain one if it is taken for one. -/
theorem Kin.eq_iff {c c' x : Char} (h : Kin c c') (hx : isPlain x = true) : c' = x ↔ c = x := by
  have hsame : (c' == x) = (c == x) := invariant_of_plain hx c c' h
  rw [← beq_iff_eq, hsame, beq_iff_eq]

theorem invariant_isDelimiter : Invariant isDelimiter :=
  invariant_of_table (by decide +kernel) rfl

theorem invariant_isDigit : Invariant Char.isDigit :=
  invariant_of_table (by decide +kernel) rfl

theorem invariant_isNameLike : Invariant isNameLike :=
  invariant_of_table (by decide +kernel) rfl

/-- The bases of numbers. -/
def bases : List Nat :=
  [2, 8, 10, 16]

theorem invariant_isDigitOf {base : Nat} (hbase : base ∈ bases) : Invariant (isDigitOf base) := by
  rcases List.mem_cons.1 hbase with rfl | hbase
  · exact invariant_of_table (by decide +kernel) rfl
  rcases List.mem_cons.1 hbase with rfl | hbase
  · exact invariant_of_table (by decide +kernel) rfl
  rcases List.mem_cons.1 hbase with rfl | hbase
  · exact invariant_of_table (by decide +kernel) rfl
  · rw [List.mem_singleton.1 hbase]
    exact invariant_of_table (by decide +kernel) rfl

/-- A letter of the marks of strings, in either case. -/
theorem invariant_isLetter {x : Char} (hx : x ∈ stringMarks.flatten) : Invariant fun c => c.toLower == x := by
  have htable : (stringMarks.flatten.all fun x => ['b', 'r', 'f', 'u'].contains x) = true := by decide
  have hletters : x ∈ ['b', 'r', 'f', 'u'] := List.contains_iff_mem.1 (List.all_eq_true.1 htable x hx)
  rcases List.mem_cons.1 hletters with rfl | hletters
  · exact invariant_of_table (by decide +kernel) rfl
  rcases List.mem_cons.1 hletters with rfl | hletters
  · exact invariant_of_table (by decide +kernel) rfl
  rcases List.mem_cons.1 hletters with rfl | hletters
  · exact invariant_of_table (by decide +kernel) rfl
  · rw [List.mem_singleton.1 hletters]
    exact invariant_of_table (by decide +kernel) rfl

/-- The base that a letter behind a zero tells. -/
def baseOf? : Char → Option Nat
  | 'x' | 'X' => some 16
  | 'o' | 'O' => some 8
  | 'b' | 'B' => some 2
  | _ => none

theorem invariant_baseOf? : Invariant baseOf? :=
  invariant_of_table (by decide +kernel) rfl

theorem mem_bases {c : Char} {base : Nat} (hc : baseOf? c = some base) : base ∈ bases := by
  unfold baseOf? at hc
  split at hc <;> cases hc <;> decide

/-- The base that the beginning of a number tells. -/
def toldBase? (src : Array Char) (pos : Nat) : Option Nat :=
  if src[pos]? = some '0' then (src[pos + 1]?).bind baseOf? else none

/-- The offset after a number that tells no base. -/
def wholeEnd? (src : Array Char) (pos : Nat) : Option Nat :=
  let whole := decimalEnd src pos
  let stop := numberTail src whole
  let zeros := skipWhile (fun c => c == '0' || c == '_') src whole pos
  if src[whole]? = some '_' then none
  else if src[pos]? = some '0' ∧ zeros < whole ∧ stop = whole then none
  else some stop

theorem numberEnd?_of_base (src : Array Char) (pos : Nat) :
    numberEnd? src pos =
      match toldBase? src pos with
      | some base => basedEnd? src base (pos + 2)
      | none => wholeEnd? src pos := by
  unfold numberEnd? toldBase?
  dsimp only
  split
  iterate 6
    rename_i hzero hletter
    rw [hzero, hletter]
    rfl
  · have htold : (if src[pos]? = some '0' then (src[pos + 1]?).bind baseOf? else none) = none := by
      split
      · cases hletter : src[pos + 1]? with
        | none => rfl
        | some c =>
          rw [Option.bind_some, baseOf?]
          all_goals
            rintro rfl
            simp_all
      · rfl
    rw [htold]
    rfl

/-- Where a scan ends. -/
theorem skipWhile_eq_of {src : Array Char} {p : Char → Bool} {start k stop : Nat} (hle : start ≤ k) (hlt : k < stop)
    (hpass : ∀ i, start ≤ i → i < k → (src[i]?).any p = true) (hend : (src[k]?).any p = false) :
    skipWhile p src stop start = k := by
  fun_induction skipWhile p src stop start with
  | case1 pos hc ih =>
    have hne : pos ≠ k := by
      rintro rfl
      rw [hc.2] at hend
      cases hend
    exact ih (by omega) fun i hi => hpass i (Nat.le_of_succ_le hi)
  | case2 pos hc =>
    by_contra hne
    exact hc ⟨by omega, hpass pos (Nat.le_refl pos) (by omega)⟩

/-! ### Texts -/

/-- **Two texts that the lexer takes for each other** but for their quotes. -/
structure Respells (src src' : Array Char) : Prop where
  size : src'.size = src.size
  kin : ∀ i : Nat, Option.Rel Kin src[i]? src'[i]?

namespace Respells

variable {src src' : Array Char} {i pos : Nat}

section

variable (h : Respells src src')

include h

/-- A question about the character at a place has one answer. -/
theorem map_eq {f : Char → β} (hf : Invariant f) (i : Nat) : (src'[i]?).map f = (src[i]?).map f := by
  have hkin := h.kin i
  generalize src[i]? = o at hkin ⊢
  generalize src'[i]? = o' at hkin ⊢
  cases hkin with
  | none => rfl
  | some hkin => exact congrArg some (hf _ _ hkin)

theorem any_eq {p : Char → Bool} (hp : Invariant p) (i : Nat) : (src'[i]?).any p = (src[i]?).any p := by
  have hmap := h.map_eq hp i
  generalize src[i]? = o at hmap ⊢
  generalize src'[i]? = o' at hmap ⊢
  cases o <;> cases o' <;> simp_all

theorem eq_some_iff {x : Char} (hx : isPlain x = true) (i : Nat) : src'[i]? = some x ↔ src[i]? = some x := by
  have hmap := h.map_eq (invariant_of_plain hx) i
  generalize src[i]? = o at hmap ⊢
  generalize src'[i]? = o' at hmap ⊢
  cases o <;> cases o' <;> simp_all

theorem exists_char {c : Char} (hc : src[i]? = some c) : ∃ c', src'[i]? = some c' ∧ Kin c c' := by
  have hkin := h.kin i
  rw [hc] at hkin
  generalize src'[i]? = o' at hkin ⊢
  cases hkin with
  | some hkin => exact ⟨_, rfl, hkin⟩

/-- One of two characters that are not told apart. -/
theorem either_iff {x y : Char} (hxy : Invariant fun c => c == x || c == y) (i : Nat) :
    (src'[i]? = some x ∨ src'[i]? = some y) ↔ (src[i]? = some x ∨ src[i]? = some y) := by
  have hany (o : Option Char) : (o.any fun c => c == x || c == y) = true ↔ (o = some x ∨ o = some y) := by
    cases o <;> simp
  rw [← hany, ← hany, h.any_eq hxy]

theorem isNone_eq (i : Nat) : (src'[i]?).isNone = (src[i]?).isNone := by
  have hkin := h.kin i
  generalize src[i]? = o at hkin ⊢
  generalize src'[i]? = o' at hkin ⊢
  cases hkin <;> rfl

/-! ### White space -/

theorem breakEnd?_eq (pos : Nat) : breakEnd? src' pos = breakEnd? src pos := by
  have hfeed := h.eq_some_iff (x := '\n') rfl
  have hreturn := h.eq_some_iff (x := '\r') rfl pos
  unfold breakEnd?
  split
  · rename_i hc
    rw [(hfeed pos).1 hc]
    rfl
  · rename_i hc
    rw [hreturn.1 hc]
    simp only [hfeed]
  · rename_i hother hother'
    split
    · exact absurd ((hfeed pos).2 ‹_›) hother
    · exact absurd (hreturn.2 ‹_›) hother'
    · rfl

theorem measureIndent_eq (fuel pos wide narrow : Nat) :
    measureIndent src' fuel pos wide narrow = measureIndent src fuel pos wide narrow := by
  induction fuel generalizing pos wide narrow with
  | zero => rfl
  | succ fuel ih =>
    have hspace := h.eq_some_iff (x := ' ') rfl pos
    have htab := h.eq_some_iff (x := '\t') rfl pos
    have hfeed := h.eq_some_iff (x := '\x0c') rfl pos
    unfold measureIndent
    split
    · rename_i hc
      rw [hspace.1 hc]
      exact ih _ _ _
    · rename_i hc
      rw [htab.1 hc]
      exact ih _ _ _
    · rename_i hc
      rw [hfeed.1 hc]
      exact ih _ _ _
    · rename_i hnospace hnotab hnofeed
      split
      · exact absurd (hspace.2 ‹_›) hnospace
      · exact absurd (htab.2 ‹_›) hnotab
      · exact absurd (hfeed.2 ‹_›) hnofeed
      · rfl

theorem startLine_eq (s : LexerState) : startLine src' s = startLine src s := by
  have hhash (i : Nat) : (src'[i]? == some '#') = (src[i]? == some '#') := by
    rw [Bool.eq_iff_iff, beq_iff_eq, beq_iff_eq, h.eq_some_iff rfl]
  unfold startLine
  rw [h.size, h.measureIndent_eq]
  simp only [h.isNone_eq, hhash, h.breakEnd?_eq]

theorem skipWhile_eq {p : Char → Bool} (hp : Invariant p) (stop pos : Nat) :
    skipWhile p src' stop pos = skipWhile p src stop pos := by
  fun_induction skipWhile p src stop pos with
  | case1 pos hc ih =>
    rw [skipWhile, if_pos ⟨hc.1, by rw [h.any_eq hp]; exact hc.2⟩]
    exact ih
  | case2 pos hc =>
    rw [skipWhile, if_neg]
    rwa [h.any_eq hp]

/-! ### Numbers -/

theorem digitsEnd_eq {base : Nat} (hbase : base ∈ bases) (fuel pos : Nat) :
    digitsEnd src' base fuel pos = digitsEnd src base fuel pos := by
  induction fuel generalizing pos with
  | zero => rfl
  | succ fuel ih =>
    unfold digitsEnd
    simp only [h.any_eq (invariant_isDigitOf hbase), h.eq_some_iff (show isPlain '_' = true from rfl), ih]

theorem decimalEnd_eq (pos : Nat) : decimalEnd src' pos = decimalEnd src pos := by
  unfold decimalEnd
  simp only [h.any_eq invariant_isDigit, h.digitsEnd_eq (show 10 ∈ bases by decide), h.size]

theorem exponentEnd_eq (pos : Nat) : exponentEnd src' pos = exponentEnd src pos := by
  have hmark : Invariant fun c => c == 'e' || c == 'E' := invariant_of_table (by decide +kernel) rfl
  have hsign (i : Nat) : (src'[i]? = some '+' ∨ src'[i]? = some '-') ↔ (src[i]? = some '+' ∨ src[i]? = some '-') := by
    rw [h.eq_some_iff rfl, h.eq_some_iff rfl]
  unfold exponentEnd
  simp only [h.either_iff hmark, hsign, h.any_eq invariant_isDigit, h.decimalEnd_eq]

theorem numberTail_eq (pos : Nat) : numberTail src' pos = numberTail src pos := by
  have hmark : Invariant fun c => c == 'j' || c == 'J' := invariant_of_table (by decide +kernel) rfl
  unfold numberTail imaginaryEnd
  simp only [h.either_iff hmark, h.eq_some_iff (show isPlain '.' = true from rfl), h.decimalEnd_eq, h.exponentEnd_eq]

theorem basedEnd?_eq {base : Nat} (hbase : base ∈ bases) (pos : Nat) :
    basedEnd? src' base pos = basedEnd? src base pos := by
  unfold basedEnd?
  simp only [h.any_eq invariant_isDigit, h.any_eq (invariant_isDigitOf hbase), h.digitsEnd_eq hbase, h.size,
    h.eq_some_iff (show isPlain '_' = true from rfl)]

theorem numberEnd?_eq (pos : Nat) : numberEnd? src' pos = numberEnd? src pos := by
  have hzero := h.eq_some_iff (x := '0') rfl
  have hscore := h.eq_some_iff (x := '_') rfl
  have hzeros : Invariant fun c => c == '0' || c == '_' := invariant_of_table (by decide +kernel) rfl
  have hbase : toldBase? src' pos = toldBase? src pos := by
    have hletter := h.map_eq invariant_baseOf? (pos + 1)
    have hbind (o : Option Char) : o.bind baseOf? = (o.map baseOf?).join := by
      cases o <;> rfl
    unfold toldBase?
    simp only [hzero, hbind, hletter]
  rw [numberEnd?_of_base, numberEnd?_of_base, hbase]
  cases htold : toldBase? src pos with
  | none =>
    unfold wholeEnd?
    simp only [hzero, hscore, h.decimalEnd_eq, h.numberTail_eq, h.skipWhile_eq hzeros]
  | some base =>
    refine h.basedEnd?_eq ?_ _
    unfold toldBase? at htold
    split at htold
    · obtain ⟨c, -, hc⟩ := Option.bind_eq_some_iff.1 htold
      exact mem_bases hc
    · cases htold

/-! ### Words -/

/-- Characters of a word are told alike, so it is told alike. -/
theorem extract_iff {f : Char → Char} {w : List Char} (hw : ∀ x ∈ w, Invariant fun c => f c == x) (pos : Nat) :
    (src'.extract pos (pos + w.length)).toList.map f = w ↔ (src.extract pos (pos + w.length)).toList.map f = w := by
  rw [extract_map_eq_iff, extract_map_eq_iff]
  refine forall₂_congr fun i hi => ?_
  have hmap := h.map_eq (hw w[i] (List.getElem_mem hi)) (pos + i)
  rw [List.getElem?_eq_getElem hi]
  generalize src[pos + i]? = o at hmap ⊢
  generalize src'[pos + i]? = o' at hmap ⊢
  cases o <;> cases o' <;> simp_all

/-- The letters of a string. -/
theorem stringMark?_eq (pos : Nat) : stringMark? src' pos = stringMark? src pos := by
  refine List.find?_congr fun mark hmark => ?_
  have hletters := h.extract_iff (f := Char.toLower) (w := mark)
    (fun x hx => invariant_isLetter (List.mem_flatten.2 ⟨mark, hmark, hx⟩)) pos
  have hquote : Invariant fun c => c == '"' || c == '\'' := invariant_isDelimiter
  have hnext := h.either_iff hquote (pos + mark.length)
  rw [Bool.eq_iff_iff]
  simp only [Bool.and_eq_true, Bool.or_eq_true, beq_iff_eq, hletters, hnext]

end

end Respells

end HouseStyle.Python
