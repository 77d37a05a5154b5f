import HouseStyle.Proofs.Stylesheet.Alongside

/-!
# Heads are read by the kinds of their characters

The reading of a head asks of a character whether it is one of a few marks, whether it is white space,
and what it can be in a name. Two characters that answer alike are of a kind (`SameKind`).

* `bareHead_alike`: heads whose characters are of a kind, place by place, are read alike.
-/

namespace HouseStyle.Stylesheet

open Cursor (find skipWhile)
open Node (bareList)

variable {d : Dialect} {src src' : Array Char}

/-! ### Characters -/

/-- The characters that the reading of heads looks for. -/
def headMarks : List Char :=
  ['"', '\'', '\\', '\n', '#', '\x7b', '\x7d', '(', ')', '[', ']', ',', '.', '-', '_']

/-- **Two characters that the reading of heads does not tell apart**: neither is a mark that the other is
not, and they are alike as white space and wherever they can stand in a name. -/
structure SameKind (c c' : Char) : Prop where
  mark : ∀ m ∈ headMarks, c' = m ↔ c = m
  blank : isStyleBlank c' = isStyleBlank c
  name : isNameChar c' = isNameChar c
  letter : isLetter c' = isLetter c
  first : (c'.isAlpha || decide (127 < c'.toNat)) = (c.isAlpha || decide (127 < c.toNat))

instance (c c' : Char) : Decidable (SameKind c c') :=
  decidable_of_iff ((headMarks.all fun m => decide (c' = m ↔ c = m)) = true ∧
    isStyleBlank c' = isStyleBlank c ∧ isNameChar c' = isNameChar c ∧ isLetter c' = isLetter c ∧
    (c'.isAlpha || decide (127 < c'.toNat)) = (c.isAlpha || decide (127 < c.toNat))) <| by
  simp only [List.all_eq_true, decide_eq_true_eq]
  exact ⟨fun ⟨h1, h2, h3, h4, h5⟩ => ⟨h1, h2, h3, h4, h5⟩,
    fun h => ⟨h.mark, h.blank, h.name, h.letter, h.first⟩⟩

example : SameKind 'b' 'd' ∧ ¬ SameKind 'b' '\'' := by decide

theorem SameKind.eq_of_mark {c c' m : Char} (h : SameKind c c') (hm : m ∈ headMarks) (hc : c = m) : c' = c :=
  ((h.mark m hm).2 hc).trans hc.symm

theorem SameKind.either {c c' m m' : Char} (h : SameKind c c') (hm : m ∈ headMarks) (hm' : m' ∈ headMarks) :
    (c' == m || c' == m') = (c == m || c == m') := by
  rw [Bool.eq_iff_iff, Bool.or_eq_true, Bool.or_eq_true, beq_iff_eq, beq_iff_eq, beq_iff_eq, beq_iff_eq,
    h.mark m hm, h.mark m' hm']

theorem SameKind.isQuote_eq {c c' : Char} (h : SameKind c c') : isQuote c' = isQuote c :=
  h.either (by decide) (by decide)

theorem SameKind.opensGroup_eq {c c' : Char} (h : SameKind c c') : opensGroup c' = opensGroup c :=
  h.either (by decide) (by decide)

theorem SameKind.closesGroup_eq {c c' : Char} (h : SameKind c c') : closesGroup c' = closesGroup c :=
  h.either (by decide) (by decide)

/-- Whether a name can start with a character. -/
theorem SameKind.begins {c c' : Char} (h : SameKind c c') :
    (c'.isAlpha || c' == '_' || c' == '\\' || decide (127 < c'.toNat)) =
      (c.isAlpha || c == '_' || c == '\\' || decide (127 < c.toNat)) := by
  have hgroup : ∀ p q r s : Bool, (p || q || r || s) = ((p || s) || (q || r)) := by decide
  rw [hgroup, hgroup, h.first, h.either (by decide) (by decide)]

/-- Whether a name can go on with a character after a hyphen. -/
theorem SameKind.goesOn {c c' : Char} (h : SameKind c c') :
    (isLetter c' || c' == '-' || c' == '_') = (isLetter c || c == '-' || c == '_') := by
  rw [Bool.or_assoc, Bool.or_assoc, h.letter, h.either (by decide) (by decide)]

theorem mem_headMarks_of_isQuote {c : Char} (h : isQuote c = true) : c ∈ headMarks := by
  rw [isQuote, Bool.or_eq_true, beq_iff_eq, beq_iff_eq] at h
  rcases h with rfl | rfl <;> decide

/-! ### Texts -/

/-- **Two texts whose characters are of a kind, place by place.** -/
structure Alike (src src' : Array Char) : Prop where
  size : src'.size = src.size
  kind : ∀ (k : Nat) (c c' : Char), src[k]? = some c → src'[k]? = some c' → SameKind c c'

instance (src src' : Array Char) : Decidable (Alike src src') :=
  decidable_of_iff (src'.size = src.size ∧ ∀ k < src.size,
    ((src[k]?).all fun c => (src'[k]?).all fun c' => decide (SameKind c c')) = true) <| by
  simp only [Option.all_eq_true, decide_eq_true_eq]
  exact ⟨fun ⟨hsize, hkind⟩ => ⟨hsize, fun k c c' hc hc' =>
      hkind k (Array.getElem?_eq_some_iff.1 hc).1 c hc c' hc'⟩,
    fun h => ⟨h.size, fun k _ c hc c' hc' => h.kind k c c' hc hc'⟩⟩

/-- The node of an id or class is told by its mark, but for its facts. -/
theorem simpleSelector_bare (mark : Char) (pos stop : Nat) :
    (simpleSelector src' mark pos stop).bare = (simpleSelector src mark pos stop).bare := by
  unfold simpleSelector
  by_cases hmark : mark = '#'
  · simp only [if_pos hmark]
    rfl
  · simp only [if_neg hmark]
    rfl

theorem lowerFrom_eq_nil {before cs : List Char} : Casing.lowerFrom before cs = [] ↔ cs = [] := by
  cases cs with
  | nil => exact ⟨fun _ => rfl, fun _ => rfl⟩
  | cons c rest =>
    refine ⟨fun h => absurd (List.append_eq_nil_iff.1 h).1 ?_, nofun⟩
    split
    · split <;> exact List.cons_ne_nil _ _
    · split <;> exact List.cons_ne_nil _ _

/-- Whether a word is empty is told by its length. -/
theorem lower_text_eq_empty {start stop : Nat} :
    lower (Cursor.text src start stop) = "" ↔ min stop src.size ≤ start := by
  rw [lower, lowerChars, String.ofList_eq_empty_iff, lowerFrom_eq_nil, Cursor.text, String.toList_ofList,
    Array.toList_eq_nil_iff, Array.extract_eq_empty_iff]

section

variable (h : Alike src src')

include h

theorem Alike.char {k : Nat} {c : Char} (hc : src[k]? = some c) :
    ∃ c', src'[k]? = some c' ∧ SameKind c c' := by
  have hlt := (Array.getElem?_eq_some_iff.1 hc).1
  have hc' := Array.getElem?_eq_getElem (h.size.symm ▸ hlt)
  exact ⟨_, hc', h.kind k c _ hc hc'⟩

theorem Alike.none {k : Nat} (hc : src[k]? = none) : src'[k]? = none := by
  have := Array.getElem?_eq_none_iff.1 hc
  exact Array.getElem?_eq_none (h.size.symm ▸ this)

theorem Alike.any {p : Char → Bool} (hp : ∀ {c c'}, SameKind c c' → p c' = p c) (k : Nat) :
    (src'[k]?).any p = (src[k]?).any p := by
  cases hc : src[k]? with
  | none => rw [h.none hc]
  | some c =>
    obtain ⟨c', hc', hk⟩ := h.char hc
    rw [hc']
    exact hp hk

theorem Alike.mark {m : Char} (hm : m ∈ headMarks) (k : Nat) : src'[k]? = some m ↔ src[k]? = some m := by
  cases hc : src[k]? with
  | none => rw [h.none hc]
  | some c =>
    obtain ⟨c', hc', hk⟩ := h.char hc
    rw [hc', Option.some.injEq, Option.some.injEq]
    exact hk.mark m hm

/-! ### Strings and interpolations -/

theorem closingQuote?_alike {quote : Char} (hq : quote ∈ headMarks) (pos : Nat) :
    closingQuote? src' quote pos = closingQuote? src quote pos := by
  fun_induction closingQuote? src quote pos with
  | case1 pos hlt hc ih =>
    obtain ⟨c', hc', hk⟩ := h.char (Array.getElem?_eq_getElem hlt)
    rw [closingQuote?_of_char hc', if_pos ((hk.mark _ (by decide)).2 hc), ih]
  | case2 pos hlt hc hquote =>
    obtain ⟨c', hc', hk⟩ := h.char (Array.getElem?_eq_getElem hlt)
    rw [closingQuote?_of_char hc', if_neg (mt (hk.mark _ (by decide)).1 hc), if_pos ((hk.mark _ hq).2 hquote)]
  | case3 pos hlt hc hquote hline =>
    obtain ⟨c', hc', hk⟩ := h.char (Array.getElem?_eq_getElem hlt)
    rw [closingQuote?_of_char hc', if_neg (mt (hk.mark _ (by decide)).1 hc),
      if_neg (mt (hk.mark _ hq).1 hquote), if_pos ((hk.mark _ (by decide)).2 hline)]
  | case4 pos hlt hc hquote hline ih =>
    obtain ⟨c', hc', hk⟩ := h.char (Array.getElem?_eq_getElem hlt)
    rw [closingQuote?_of_char hc', if_neg (mt (hk.mark _ (by decide)).1 hc),
      if_neg (mt (hk.mark _ hq).1 hquote), if_neg (mt (hk.mark _ (by decide)).1 hline), ih]
  | case5 pos hlt => rw [closingQuote?, dif_neg (h.size ▸ hlt)]

theorem stringEnd_alike {quote : Char} (hq : isQuote quote = true) (pos : Nat) :
    stringEnd src' quote pos = stringEnd src quote pos := by
  rw [stringEnd, closingQuote?_alike h (mem_headMarks_of_isQuote hq), stringEnd]

theorem opensInterpolation_alike (pos : Nat) : opensInterpolation src' pos = opensInterpolation src pos := by
  rw [Bool.eq_iff_iff, opensInterpolation, opensInterpolation, Bool.and_eq_true, Bool.and_eq_true, beq_iff_eq,
    beq_iff_eq, beq_iff_eq, beq_iff_eq, h.mark (by decide), h.mark (by decide)]

theorem closingBrace_alike (start depth pos : Nat) :
    closingBrace src' start depth pos = closingBrace src start depth pos := by
  fun_induction closingBrace src start depth pos with
  | case1 depth pos hlt hq e hs =>
    obtain ⟨c', hc', hk⟩ := h.char (Array.getElem?_eq_getElem hlt)
    obtain rfl := hk.eq_of_mark (mem_headMarks_of_isQuote hq) rfl
    rw [closingBrace_of_char hc', if_pos hq, stringEnd_alike h hq, hs]
    rfl
  | case2 depth pos hlt hq next hs hb ih =>
    obtain ⟨c', hc', hk⟩ := h.char (Array.getElem?_eq_getElem hlt)
    obtain rfl := hk.eq_of_mark (mem_headMarks_of_isQuote hq) rfl
    rw [closingBrace_of_char hc', if_pos hq, stringEnd_alike h hq, hs]
    exact ih
  | case3 depth pos hlt hq ho ih =>
    obtain ⟨c', hc', hk⟩ := h.char (Array.getElem?_eq_getElem hlt)
    rw [closingBrace_of_char hc', hk.isQuote_eq, if_neg hq, if_pos ((hk.mark _ (by decide)).2 ho), ih]
  | case4 pos hlt hq ho hc =>
    obtain ⟨c', hc', hk⟩ := h.char (Array.getElem?_eq_getElem hlt)
    rw [closingBrace_of_char hc', hk.isQuote_eq, if_neg hq, if_neg (mt (hk.mark _ (by decide)).1 ho),
      if_pos ((hk.mark _ (by decide)).2 hc), if_pos rfl]
  | case5 depth pos hlt hq ho hc hone ih =>
    obtain ⟨c', hc', hk⟩ := h.char (Array.getElem?_eq_getElem hlt)
    rw [closingBrace_of_char hc', hk.isQuote_eq, if_neg hq, if_neg (mt (hk.mark _ (by decide)).1 ho),
      if_pos ((hk.mark _ (by decide)).2 hc), if_neg hone, ih]
  | case6 depth pos hlt hq ho hc ih =>
    obtain ⟨c', hc', hk⟩ := h.char (Array.getElem?_eq_getElem hlt)
    rw [closingBrace_of_char hc', hk.isQuote_eq, if_neg hq, if_neg (mt (hk.mark _ (by decide)).1 ho),
      if_neg (mt (hk.mark _ (by decide)).1 hc), ih]
  | case7 depth pos hlt => rw [closingBrace, dif_neg (h.size ▸ hlt)]

theorem quotedEnd?_alike (pos : Nat) : quotedEnd? src' pos = quotedEnd? src pos := by
  rw [quotedEnd?, quotedEnd?]
  cases hc : src[pos]? with
  | none => rw [h.none hc]
  | some c =>
    obtain ⟨c', hc', hk⟩ := h.char hc
    simp only [hc', hk.isQuote_eq, opensInterpolation_alike h, interpolationEnd, closingBrace_alike h]
    by_cases hq : isQuote c = true
    · obtain rfl := hk.eq_of_mark (mem_headMarks_of_isQuote hq) rfl
      rw [stringEnd_alike h hq]
    · rw [if_neg hq, if_neg hq]

/-! ### Words -/

theorem skipWhile_alike {p : Char → Bool} (hp : ∀ {c c'}, SameKind c c' → p c' = p c) (stop pos : Nat) :
    skipWhile p src' stop pos = skipWhile p src stop pos :=
  skipWhile_congr (fun k _ => h.any hp k) pos

theorem trimEnd_alike (start stop : Nat) : trimEnd src' start stop = trimEnd src start stop :=
  trimEnd_congr fun k _ => h.any SameKind.blank k

theorem bracketEnd_alike (stop pos : Nat) : bracketEnd src' stop pos = bracketEnd src stop pos := by
  rw [bracketEnd, find_congr (fun k _ => h.mark (by decide) k), bracketEnd]

theorem startsName_alike (stop pos : Nat) : startsName src' stop pos = startsName src stop pos := by
  have hany := @Alike.any _ _ h _ SameKind.goesOn (pos + 1)
  unfold startsName
  cases hc : src[pos]? with
  | none => rw [h.none hc]
  | some c =>
    obtain ⟨c', hc', hk⟩ := h.char hc
    simp only [hc', hk.begins, hk.mark '-' (by decide), hany]

/-! ### Selectors -/

theorem simpleSelectors_alike (stop pos : Nat) :
    (simpleSelectors src' stop pos).map bareList = (simpleSelectors src stop pos).map bareList := by
  -- a character outside of strings and interpolations
  have hplain {pos : Nat} {c c' : Char} (hlt : pos < stop) (hq : quotedEnd? src pos = .ok none)
      (hc' : src'[pos]? = some c') (hk : SameKind c c') : simpleSelectors src' stop pos =
        if c = '[' then simpleSelectors src' stop (bracketEnd src stop pos)
        else if (c = '#' ∨ c = '.') ∧ startsName src stop (pos + 1) then
          (simpleSelectors src' stop (skipWhile isNameChar src stop (pos + 1))).map
            (simpleSelector src' c' pos (skipWhile isNameChar src stop (pos + 1)) :: ·)
        else simpleSelectors src' stop (pos + 1) := by
    rw [simpleSelectors_of_char hlt hc', quotedEnd?_alike h, hq]
    simp only [Except.bind, hk.mark '[' (by decide), hk.mark '#' (by decide), hk.mark '.' (by decide),
      bracketEnd_alike h, startsName_alike h, skipWhile_alike h SameKind.name]
  fun_induction simpleSelectors src stop pos with
  | case1 pos hlt e hq =>
    obtain ⟨c', hc', -⟩ := h.char (Array.getElem?_eq_getElem (lt_size_of_quotedEnd? hq))
    rw [simpleSelectors_of_char hlt hc', quotedEnd?_alike h, hq]
    rfl
  | case2 pos hlt next hq hb ih =>
    obtain ⟨c', hc', -⟩ := h.char (Array.getElem?_eq_getElem (show pos < src.size by omega))
    rw [simpleSelectors_of_char hlt hc', quotedEnd?_alike h, hq]
    exact ih
  | case3 pos hlt hq hc => rw [simpleSelectors_of_none (h.none hc)]
  | case4 pos hlt hq hb hc ih =>
    obtain ⟨c', hc', hk⟩ := h.char hc
    rw [hplain hlt hq hc' hk, if_pos rfl, ih]
  | case5 pos hlt hq c hc hne hm nameEnd hle e he ih =>
    obtain ⟨c', hc', hk⟩ := h.char hc
    rw [he] at ih
    rw [hplain hlt hq hc' hk, if_neg hne, if_pos hm, map_error ih]
    rfl
  | case6 pos hlt hq c hc hne hm nameEnd hle rest hrest ih =>
    obtain ⟨c', hc', hk⟩ := h.char hc
    obtain rfl : c' = c := hm.1.elim (hk.eq_of_mark (by decide)) (hk.eq_of_mark (by decide))
    rw [hrest] at ih
    obtain ⟨rest', hrest', hbare⟩ := map_ok ih
    rw [hplain hlt hq hc' hk, if_neg hne, if_pos hm, hrest']
    simp only [Except.map, bareList, hbare]
    rw [@simpleSelector_bare src]
  | case7 pos hlt hq c hc hne hm ih =>
    obtain ⟨c', hc', hk⟩ := h.char hc
    rw [hplain hlt hq hc' hk, if_neg hne, if_neg hm, ih]
  | case8 pos hlt => rw [simpleSelectors_of_le (Nat.le_of_not_lt hlt)]

theorem selectorBetween_alike (start stop : Nat) :
    (selectorBetween src' start stop).map bareList = (selectorBetween src start stop).map bareList := by
  unfold selectorBetween
  simp only [skipWhile_alike h SameKind.blank, trimEnd_alike h]
  split
  · rfl
  · have hparts := simpleSelectors_alike h (trimEnd src (skipWhile isStyleBlank src stop start) stop)
      (skipWhile isStyleBlank src stop start)
    split <;> rename_i heq <;> rw [heq] at hparts
    · rw [map_error hparts.symm]
    · obtain ⟨parts', hparts', hbare⟩ := map_ok hparts.symm
      rw [hparts']
      simp only [Except.map, bareList, nodeOf, Node.bare, hbare]
      rfl

theorem selectorsFrom_alike (stop segment depth pos : Nat) :
    (selectorsFrom src' stop segment depth pos).map bareList =
      (selectorsFrom src stop segment depth pos).map bareList := by
  -- a character outside of strings and interpolations
  have hplain {segment depth pos : Nat} {c c' : Char} (hlt : pos < stop) (hq : quotedEnd? src pos = .ok none)
      (hc' : src'[pos]? = some c') (hk : SameKind c c') : selectorsFrom src' stop segment depth pos =
        if opensGroup c then selectorsFrom src' stop segment (depth + 1) (pos + 1)
        else if closesGroup c then selectorsFrom src' stop segment (depth - 1) (pos + 1)
        else if c = ',' ∧ depth = 0 then
          (selectorBetween src' segment pos).bind fun here =>
            (selectorsFrom src' stop (pos + 1) 0 (pos + 1)).map (here ++ ·)
        else selectorsFrom src' stop segment depth (pos + 1) := by
    rw [selectorsFrom_of_char hlt hc', quotedEnd?_alike h, hq]
    simp only [Except.bind, hk.opensGroup_eq, hk.closesGroup_eq, hk.mark ',' (by decide)]
  fun_induction selectorsFrom src stop segment depth pos with
  | case1 segment depth pos hlt e hq =>
    obtain ⟨c', hc', -⟩ := h.char (Array.getElem?_eq_getElem (lt_size_of_quotedEnd? hq))
    rw [selectorsFrom_of_char hlt hc', quotedEnd?_alike h, hq]
    rfl
  | case2 segment depth pos hlt next hq hb ih =>
    obtain ⟨c', hc', -⟩ := h.char (Array.getElem?_eq_getElem (show pos < src.size by omega))
    rw [selectorsFrom_of_char hlt hc', quotedEnd?_alike h, hq]
    exact ih
  | case3 segment depth pos hlt hq hc => rw [selectorsFrom_of_none hlt (h.none hc)]
  | case4 segment depth pos hlt hq c hc ho ih =>
    obtain ⟨c', hc', hk⟩ := h.char hc
    rw [hplain hlt hq hc' hk, if_pos ho, ih]
  | case5 segment depth pos hlt hq c hc ho hcl ih =>
    obtain ⟨c', hc', hk⟩ := h.char hc
    rw [hplain hlt hq hc' hk, if_neg ho, if_pos hcl, ih]
  | case6 segment depth pos hlt hq c hc ho hcl hcomma e he =>
    obtain ⟨c', hc', hk⟩ := h.char hc
    have hhere := selectorBetween_alike h segment pos
    rw [he] at hhere
    rw [hplain hlt hq hc' hk, if_neg ho, if_neg hcl, if_pos hcomma, map_error hhere]
    rfl
  | case7 segment depth pos hlt hq c hc ho hcl hcomma here hhere e he ih =>
    obtain ⟨c', hc', hk⟩ := h.char hc
    have hbetween := selectorBetween_alike h segment pos
    rw [hhere] at hbetween
    obtain ⟨here', hhere', -⟩ := map_ok hbetween
    rw [he] at ih
    rw [hplain hlt hq hc' hk, if_neg ho, if_neg hcl, if_pos hcomma, hhere', map_error ih]
    rfl
  | case8 segment depth pos hlt hq c hc ho hcl hcomma here hhere rest hrest ih =>
    obtain ⟨c', hc', hk⟩ := h.char hc
    have hbetween := selectorBetween_alike h segment pos
    rw [hhere] at hbetween
    obtain ⟨here', hhere', hbare⟩ := map_ok hbetween
    rw [hrest] at ih
    obtain ⟨rest', hrest', hbares⟩ := map_ok ih
    rw [hplain hlt hq hc' hk, if_neg ho, if_neg hcl, if_pos hcomma, hhere', hrest']
    simp only [Except.bind, Except.map, Node.bareList_append, hbare, hbares]
  | case9 segment depth pos hlt hq c hc ho hcl hcomma ih =>
    obtain ⟨c', hc', hk⟩ := h.char hc
    rw [hplain hlt hq hc' hk, if_neg ho, if_neg hcl, if_neg hcomma, ih]
  | case10 segment depth pos hlt =>
    rw [selectorsFrom_of_le (Nat.le_of_not_lt hlt), selectorBetween_alike h]

theorem selectorList_alike (start stop : Nat) :
    (selectorList src' start stop).map Node.bare = (selectorList src start stop).map Node.bare := by
  have hfound := selectorsFrom_alike h stop start 0 start
  unfold selectorList
  split <;> rename_i heq <;> rw [heq] at hfound
  · rw [map_error hfound.symm]
  · obtain ⟨found', hfound', hbare⟩ := map_ok hfound.symm
    rw [hfound']
    simp only [Except.map, nodeOf, Node.bare, hbare]

/-! ### Heads -/

theorem atRule_alike (start headStop stop : Nat) (block : Option Node) :
    (atRule src' start headStop stop block).map Node.bare =
      (atRule src start headStop stop block).map Node.bare := by
  have hname : lower (Cursor.text src' (start + 1) (skipWhile isNameChar src headStop (start + 1))) = "" ↔
      lower (Cursor.text src (start + 1) (skipWhile isNameChar src headStop (start + 1))) = "" := by
    rw [lower_text_eq_empty, lower_text_eq_empty, h.size]
  simp only [atRule, skipWhile_alike h SameKind.name, hname]
  split <;> rfl

theorem findColon?_alike {stop : Nat} (hcolon : ∀ k < stop, src'[k]? = some ':' ↔ src[k]? = some ':')
    (pos : Nat) : findColon? src' stop pos = findColon? src stop pos := by
  have hclose (pos : Nat) : interpolationEnd src' pos = interpolationEnd src pos :=
    closingBrace_alike h pos 0 (pos + 1)
  fun_induction findColon? src stop pos with
  | case1 pos hlt ho e he =>
    rw [findColon?_of_lt hlt, opensInterpolation_alike h, if_pos ho, hclose, he]
    rfl
  | case2 pos hlt ho next hn hb ih =>
    rw [findColon?_of_lt hlt, opensInterpolation_alike h, if_pos ho, hclose, hn]
    exact ih
  | case3 pos hlt ho hc =>
    rw [findColon?_of_lt hlt, opensInterpolation_alike h, if_neg ho, if_pos ((hcolon pos hlt).2 hc)]
  | case4 pos hlt ho hc ih =>
    rw [findColon?_of_lt hlt, opensInterpolation_alike h, if_neg ho, if_neg (mt (hcolon pos hlt).1 hc), ih]
  | case5 pos hlt => rw [findColon?, dif_neg hlt]

theorem declaration_alike {bodyStop : Nat} (hcolon : ∀ k < bodyStop, src'[k]? = some ':' ↔ src[k]? = some ':')
    (start stop : Nat) : (declaration src' start bodyStop stop).map Node.bare =
      (declaration src start bodyStop stop).map Node.bare := by
  simp only [declaration, findColon?_alike h hcolon, trimEnd_alike h, skipWhile_alike h SameKind.blank]
  split <;> rfl

theorem rule_alike (start headStop stop : Nat) (block : Node) :
    (rule src' start headStop stop block).map Node.bare = (rule src start headStop stop block).map Node.bare := by
  have hlist := selectorList_alike h start headStop
  unfold rule
  cases hr : selectorList src start headStop with
  | error e =>
    rw [hr] at hlist
    rw [map_error hlist]
  | ok list =>
    rw [hr] at hlist
    obtain ⟨list', hlist', hbare⟩ := map_ok hlist
    rw [hlist']
    simp only [Except.map, nodeOf, Node.bare, bareList, hbare]
    rfl

/-- **A head is read by the kinds of its characters**, the mark of an at-rule, and the colons of a
statement without a block. -/
theorem bareHead_alike {start : Nat} (hscan : scan d src' start = scan d src start)
    (hat : src'[start]? = some '@' ↔ src[start]? = some '@')
    (hcolon : ∀ stop c, scan d src start = .ok (stop, c) → c ≠ some '\x7b' →
      ∀ k < stop, src'[k]? = some ':' ↔ src[k]? = some ':') :
    bareHead d src' start = bareHead d src start := by
  cases hfound : scan d src start with
  | error e => simp only [bareHead, statement, hscan, hfound]
  | ok found =>
    obtain ⟨stop, c⟩ := found
    have hblock (block : Node) (next : Nat) :
        (headNode src' start (trimEnd src start stop) next (some block)).map Node.bare =
          (headNode src start (trimEnd src start stop) next (some block)).map Node.bare := by
      simp only [headNode, hat]
      split
      · exact atRule_alike h start _ next _
      · exact rule_alike h start _ next block
    have hnone (hc : c ≠ some '\x7b') (next : Nat) :
        (headNode src' start (trimEnd src start stop) next none).map Node.bare =
          (headNode src start (trimEnd src start stop) next none).map Node.bare := by
      simp only [headNode, hat]
      split
      · exact atRule_alike h start _ next _
      · exact declaration_alike h (fun k hk => hcolon stop c hfound hc k (Nat.lt_of_lt_of_le hk trimEnd_le))
          start next
    rw [bareHead_unfold (hscan.trans hfound), bareHead_unfold hfound, trimEnd_alike h]
    by_cases hc : c = some '\x7b'
    · rw [if_pos hc, if_pos hc, hblock]
    · rw [if_neg hc, if_neg hc, hnone hc, hnone hc]

end

end HouseStyle.Stylesheet
