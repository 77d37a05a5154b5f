import HouseStyle.Proofs.Stylesheet.Moving

/-!
# Reading looks ahead only

What is read from a place on is told by the text from there on. A text that is put before another
one moves what is read of it by its length, and the places of its faults too.

* `shifted`: an answer, moved by the length of what was put before.
* `scanFrom_shift`, `skipTrivia_shift`: heads and trivia.
* `headNode_shift`, `statements_shift`: statements, with their trees or their fault.
-/

namespace HouseStyle.Stylesheet

open Cursor (find skipWhile)
open Node (relocate relocateList)

variable {d : Dialect} {pre src : Array Char}

/-! ### Moved answers -/

/-- A fault in a text that others precede. That blocks are nested too deeply is told of no place. -/
def shiftFault (k : Nat) (e : ParseError) : ParseError :=
  if e.fault = .nestedTooDeeply then e else { e with offset := k + e.offset }

/-- An answer about a text that others precede. -/
def shifted {α β : Type} (k : Nat) (f : α → β) : Except ParseError α → Except ParseError β
  | .ok x => .ok (f x)
  | .error e => .error (shiftFault k e)

section

variable {α β γ δ : Type} {k : Nat} {f : α → β}

@[simp] theorem shifted_ok {x : α} : shifted k f (.ok x) = .ok (f x) := rfl

@[simp] theorem shifted_error {e : ParseError} : shifted k f (.error e) = .error (shiftFault k e) := rfl

/-- Steps that follow one another move together. -/
theorem shifted_bind {x : Except ParseError α} {g : α → Except ParseError γ}
    {g' : β → Except ParseError δ} {h : γ → δ} (hg : ∀ a, x = .ok a → g' (f a) = shifted k h (g a)) :
    (shifted k f x).bind g' = shifted k h (x.bind g) := by
  cases x with
  | error e => rfl
  | ok a => exact hg a rfl

theorem shifted_map {x : Except ParseError α} {g : α → γ} {g' : β → δ} {h : γ → δ}
    (hg : ∀ a, x = .ok a → g' (f a) = h (g a)) : (shifted k f x).map g' = shifted k h (x.map g) := by
  cases x with
  | error e => rfl
  | ok a => exact congrArg Except.ok (hg a rfl)

end

theorem getElem?_shift (pos : Nat) : (pre ++ src)[pre.size + pos]? = src[pos]? := by
  rw [Array.getElem?_append_right (Nat.le_add_right _ _), Nat.add_sub_cancel_left]

theorem char_shift {pos : Nat} (h : pos < src.size) : (pre ++ src)[pre.size + pos]? = some src[pos] := by
  rw [getElem?_shift, Array.getElem?_eq_getElem h]

theorem size_shift {pos : Nat} (h : src.size ≤ pos) : (pre ++ src).size ≤ pre.size + pos := by
  rw [Array.size_append]
  exact Nat.add_le_add_left h _

/-! ### Strings, comments, interpolations -/

theorem closingQuote?_shift (quote : Char) (cursor : Nat) :
    closingQuote? (pre ++ src) quote (pre.size + cursor) =
      (closingQuote? src quote cursor).map (pre.size + ·) := by
  fun_induction closingQuote? src quote cursor with
  | case1 cursor hlt hc ih =>
    rw [closingQuote?_of_char (char_shift hlt), if_pos hc]
    exact ih
  | case2 cursor hlt hc hq =>
    rw [closingQuote?_of_char (char_shift hlt), if_neg hc, if_pos hq]
    rfl
  | case3 cursor hlt hc hq hn =>
    rw [closingQuote?_of_char (char_shift hlt), if_neg hc, if_neg hq, if_pos hn]
    rfl
  | case4 cursor hlt hc hq hn ih =>
    rw [closingQuote?_of_char (char_shift hlt), if_neg hc, if_neg hq, if_neg hn]
    exact ih
  | case5 cursor hlt =>
    have := @size_shift pre src cursor (by omega)
    rw [closingQuote?, dif_neg (by omega)]
    rfl

theorem stringEnd_shift (quote : Char) (pos : Nat) : stringEnd (pre ++ src) quote (pre.size + pos) =
    shifted pre.size (pre.size + ·) (stringEnd src quote pos) := by
  unfold stringEnd
  rw [Nat.add_assoc, closingQuote?_shift]
  cases closingQuote? src quote (pos + 1) <;> rfl

theorem closingComment?_of_chars {c e : Char} {cursor : Nat} (h : src[cursor]? = some c)
    (h' : src[cursor + 1]? = some e) : closingComment? src cursor =
      if c = '*' ∧ e = '/' then some (cursor + 2) else closingComment? src (cursor + 1) := by
  obtain ⟨-, rfl⟩ := Array.getElem?_eq_some_iff.1 h
  obtain ⟨hlt, rfl⟩ := Array.getElem?_eq_some_iff.1 h'
  rw [closingComment?, dif_pos hlt]

theorem closingComment?_shift (cursor : Nat) : closingComment? (pre ++ src) (pre.size + cursor) =
    (closingComment? src cursor).map (pre.size + ·) := by
  fun_induction closingComment? src cursor with
  | case1 cursor hlt hc =>
    rw [closingComment?_of_chars (char_shift (Nat.lt_of_succ_lt hlt)) (char_shift hlt), if_pos hc]
    rfl
  | case2 cursor hlt hc ih =>
    rw [closingComment?_of_chars (char_shift (Nat.lt_of_succ_lt hlt)) (char_shift hlt), if_neg hc]
    exact ih
  | case3 cursor hlt =>
    have := @size_shift pre src (cursor + 1) (by omega)
    rw [closingComment?, dif_neg (by omega)]
    rfl

theorem commentEnd_shift (pos : Nat) : commentEnd (pre ++ src) (pre.size + pos) =
    shifted pre.size (pre.size + ·) (commentEnd src pos) := by
  unfold commentEnd
  rw [Nat.add_assoc, closingComment?_shift]
  cases closingComment? src (pos + 2) <;> rfl

theorem opensInterpolation_shift (pos : Nat) :
    opensInterpolation (pre ++ src) (pre.size + pos) = opensInterpolation src pos := by
  unfold opensInterpolation
  rw [Nat.add_assoc, getElem?_shift, getElem?_shift]

theorem closingBrace_shift (pos depth cursor : Nat) :
    closingBrace (pre ++ src) (pre.size + pos) depth (pre.size + cursor) =
      shifted pre.size (pre.size + ·) (closingBrace src pos depth cursor) := by
  fun_induction closingBrace src pos depth cursor with
  | case1 depth cursor hlt hq e hs =>
    rw [closingBrace_of_char (char_shift hlt), if_pos hq, stringEnd_shift, hs]
    rfl
  | case2 depth cursor hlt hq next hs hb ih =>
    rw [closingBrace_of_char (char_shift hlt), if_pos hq, stringEnd_shift, hs]
    exact ih
  | case3 depth cursor hlt hq hc ih =>
    rw [closingBrace_of_char (char_shift hlt), if_neg hq, if_pos hc]
    exact ih
  | case4 cursor hlt hq hc hb =>
    rw [closingBrace_of_char (char_shift hlt), if_neg hq, if_neg hc, if_pos hb, if_pos rfl]
    rfl
  | case5 depth cursor hlt hq hc hb hd ih =>
    rw [closingBrace_of_char (char_shift hlt), if_neg hq, if_neg hc, if_pos hb, if_neg hd]
    exact ih
  | case6 depth cursor hlt hq hc hb ih =>
    rw [closingBrace_of_char (char_shift hlt), if_neg hq, if_neg hc, if_neg hb]
    exact ih
  | case7 depth cursor hlt =>
    have := @size_shift pre src cursor (by omega)
    rw [closingBrace, dif_neg (by omega)]
    rfl

theorem interpolationEnd_shift (pos : Nat) : interpolationEnd (pre ++ src) (pre.size + pos) =
    shifted pre.size (pre.size + ·) (interpolationEnd src pos) :=
  closingBrace_shift pos 0 (pos + 1)

theorem quotedEnd?_shift (pos : Nat) : quotedEnd? (pre ++ src) (pre.size + pos) =
    shifted pre.size (Option.map (pre.size + ·)) (quotedEnd? src pos) := by
  unfold quotedEnd?
  rw [getElem?_shift, opensInterpolation_shift]
  cases src[pos]? with
  | none => rfl
  | some c =>
    simp only
    split
    · rw [stringEnd_shift]
      exact shifted_map fun _ _ => rfl
    · split
      · rw [interpolationEnd_shift]
        exact shifted_map fun _ _ => rfl
      · rfl

/-! ### Comments, heads, trivia -/

theorem find_shift (target : Char) (stop cursor : Nat) :
    find (pre ++ src) target (pre.size + stop) (pre.size + cursor) = pre.size + find src target stop cursor := by
  fun_induction find src target stop cursor with
  | case1 cursor hlt hc => rw [find, if_pos (by omega), getElem?_shift, if_pos hc]
  | case2 cursor hlt hc ih =>
    rw [find, if_pos (by omega), getElem?_shift, if_neg hc]
    exact ih
  | case3 cursor hlt => rw [find, if_neg (by omega)]

theorem commentEnd?_shift (lines : Bool) (pos : Nat) : commentEnd? lines (pre ++ src) (pre.size + pos) =
    shifted pre.size (Option.map (pre.size + ·)) (commentEnd? lines src pos) := by
  unfold commentEnd?
  rw [Nat.add_assoc, getElem?_shift, getElem?_shift, Array.size_append, find_shift, commentEnd_shift]
  split
  · split
    · exact shifted_map fun _ _ => rfl
    · split <;> rfl
  · rfl

theorem opaqueEnd?_shift (depth pos : Nat) : opaqueEnd? d (pre ++ src) depth (pre.size + pos) =
    shifted pre.size (Option.map (pre.size + ·)) (opaqueEnd? d src depth pos) := by
  rw [opaqueEnd?_eq_bind, opaqueEnd?_eq_bind, quotedEnd?_shift]
  refine shifted_bind fun stop? _ => ?_
  cases stop? with
  | some stop => rfl
  | none => exact commentEnd?_shift _ pos

/-- **Where a head ends is told by the text from its start on.** -/
theorem scanFrom_shift (depth pos : Nat) : scanFrom d (pre ++ src) depth (pre.size + pos) =
    shifted pre.size (fun (stop, c) => (pre.size + stop, c)) (scanFrom d src depth pos) := by
  fun_induction scanFrom d src depth pos with
  | case1 depth pos hlt e hn =>
    rw [scanFrom_of_char (char_shift hlt), opaqueEnd?_shift, hn]
    rfl
  | case2 depth pos hlt next hn hb ih =>
    rw [scanFrom_of_char (char_shift hlt), opaqueEnd?_shift, hn]
    exact ih
  | case3 depth pos hlt hn hg ih =>
    rw [scanFrom_of_char (char_shift hlt), opaqueEnd?_shift, hn]
    simp only [shifted_ok, Option.map_none, Except.bind, if_pos hg]
    exact ih
  | case4 depth pos hlt hn hg hg' ih =>
    rw [scanFrom_of_char (char_shift hlt), opaqueEnd?_shift, hn]
    simp only [shifted_ok, Option.map_none, Except.bind, if_neg hg, if_pos hg']
    exact ih
  | case5 depth pos hlt hn hg hg' hend =>
    rw [scanFrom_of_char (char_shift hlt), opaqueEnd?_shift, hn]
    simp only [shifted_ok, Option.map_none, Except.bind, if_neg hg, if_neg hg', if_pos hend]
  | case6 depth pos hlt hn hg hg' hend ih =>
    rw [scanFrom_of_char (char_shift hlt), opaqueEnd?_shift, hn]
    simp only [shifted_ok, Option.map_none, Except.bind, if_neg hg, if_neg hg', if_neg hend]
    exact ih
  | case7 depth pos hlt =>
    have := @size_shift pre src pos (by omega)
    rw [scanFrom, dif_neg (by omega), Array.size_append]
    rfl

theorem scan_shift (pos : Nat) : scan d (pre ++ src) (pre.size + pos) =
    shifted pre.size (fun (stop, c) => (pre.size + stop, c)) (scan d src pos) :=
  scanFrom_shift 0 pos

/-- **Where trivia ends is told by the text from its start on.** -/
theorem skipTrivia_shift (pos : Nat) : skipTrivia d (pre ++ src) (pre.size + pos) =
    shifted pre.size (pre.size + ·) (skipTrivia d src pos) := by
  fun_induction skipTrivia d src pos with
  | case1 pos hlt hc ih =>
    rw [skipTrivia_of_char (char_shift hlt), if_pos hc]
    exact ih
  | case2 pos hlt hc e hn =>
    rw [skipTrivia_of_char (char_shift hlt), if_neg hc, commentEnd?_shift, hn]
    rfl
  | case3 pos hlt hc next hn hb ih =>
    rw [skipTrivia_of_char (char_shift hlt), if_neg hc, commentEnd?_shift, hn]
    exact ih
  | case4 pos hlt hc hn =>
    rw [skipTrivia_of_char (char_shift hlt), if_neg hc, commentEnd?_shift, hn]
    rfl
  | case5 pos hlt => rw [skipTrivia_of_end (size_shift (by omega)), shifted_ok]

/-! ### Words -/

theorem text_shift (start stop : Nat) :
    Cursor.text (pre ++ src) (pre.size + start) (pre.size + stop) = Cursor.text src start stop := by
  have h : Agree src (pre ++ src) 0 pre.size stop := fun i _ => by rw [Nat.zero_add, getElem?_shift]
  have := text_agree h (i := start) (Nat.le_refl stop)
  rwa [Nat.zero_add, Nat.zero_add] at this

theorem skipWhile_shift (p : Char → Bool) (stop cursor : Nat) :
    skipWhile p (pre ++ src) (pre.size + stop) (pre.size + cursor) = pre.size + skipWhile p src stop cursor := by
  fun_induction skipWhile p src stop cursor with
  | case1 cursor hc ih =>
    rw [skipWhile, getElem?_shift, if_pos ⟨by omega, hc.2⟩]
    exact ih
  | case2 cursor hc =>
    rw [skipWhile, getElem?_shift, if_neg]
    rintro ⟨hlt, hp⟩
    exact hc ⟨by omega, hp⟩

theorem trimEnd_of_le {start stop : Nat} (h : stop ≤ start) : trimEnd src start stop = stop := by
  cases stop with
  | zero => rfl
  | succ m => rw [trimEnd, if_neg fun hc => by omega]

theorem trimEnd_shift (start stop : Nat) :
    trimEnd (pre ++ src) (pre.size + start) (pre.size + stop) = pre.size + trimEnd src start stop := by
  induction stop with
  | zero => exact trimEnd_of_le (Nat.add_le_add_left (Nat.zero_le _) _)
  | succ m ih =>
    rw [← Nat.add_assoc, trimEnd, trimEnd, getElem?_shift]
    by_cases hc : start ≤ m ∧ (src[m]?).any isStyleBlank
    · rw [if_pos hc, if_pos ⟨by omega, hc.2⟩]
      exact ih
    · rw [if_neg hc, if_neg fun hx => hc ⟨by omega, hx.2⟩]
      rfl

theorem nodeOf_shift (form : Form) (k start stop : Nat) (children : List Node) :
    (nodeOf form start stop children).relocate 0 k =
      nodeOf form (k + start) (k + stop) (relocateList 0 k children) :=
  relocate_nodeOf (Nat.zero_le _) (Nat.zero_le _)

/-! ### Statements without a block -/

theorem findColon?_shift (stop pos : Nat) : findColon? (pre ++ src) (pre.size + stop) (pre.size + pos) =
    shifted pre.size (Option.map (pre.size + ·)) (findColon? src stop pos) := by
  fun_induction findColon? src stop pos with
  | case1 pos hlt ho e hn =>
    rw [findColon?_of_lt (by omega), opensInterpolation_shift, if_pos ho, interpolationEnd_shift, hn]
    rfl
  | case2 pos hlt ho next hn hb ih =>
    rw [findColon?_of_lt (by omega), opensInterpolation_shift, if_pos ho, interpolationEnd_shift, hn]
    exact ih
  | case3 pos hlt ho hc =>
    rw [findColon?_of_lt (by omega), opensInterpolation_shift, if_neg ho, getElem?_shift, if_pos hc]
    rfl
  | case4 pos hlt ho hc ih =>
    rw [findColon?_of_lt (by omega), opensInterpolation_shift, if_neg ho, getElem?_shift, if_neg hc]
    exact ih
  | case5 pos hlt =>
    rw [findColon?, dif_neg (by omega)]
    rfl

theorem declaration_shift (start bodyStop stop : Nat) :
    declaration (pre ++ src) (pre.size + start) (pre.size + bodyStop) (pre.size + stop) =
      shifted pre.size (relocate 0 pre.size) (declaration src start bodyStop stop) := by
  unfold declaration
  rw [findColon?_shift]
  cases findColon? src bodyStop start with
  | error e => rfl
  | ok colon? =>
    cases colon? with
    | none => rfl
    | some colon =>
      simp only [shifted_ok, Option.map_some, trimEnd_shift, Nat.add_assoc, skipWhile_shift, text_shift,
        nodeOf_shift, Node.relocateList]

theorem mixinName_shift (start stop : Nat) :
    mixinName (pre ++ src) (pre.size + start) (pre.size + stop) = mixinName src start stop := by
  simp only [mixinName, skipWhile_shift, text_shift, Nat.add_lt_add_iff_left]

theorem atRule_shift (start headStop stop : Nat) (block : Option Node) :
    atRule (pre ++ src) (pre.size + start) (pre.size + headStop) (pre.size + stop)
        (block.map (relocate 0 pre.size)) =
      shifted pre.size (relocate 0 pre.size) (atRule src start headStop stop block) := by
  simp only [atRule, Nat.add_assoc, skipWhile_shift, text_shift, mixinName_shift, Option.isSome_map]
  split
  · rfl
  · rw [shifted_ok, nodeOf_shift]
    cases block <;> rfl

/-! ### Selectors -/

theorem bracketEnd_shift (stop pos : Nat) :
    bracketEnd (pre ++ src) (pre.size + stop) (pre.size + pos) = pre.size + bracketEnd src stop pos := by
  unfold bracketEnd
  rw [find_shift]
  simp only [Nat.add_lt_add_iff_left]
  split <;> rfl

theorem startsName_shift (stop pos : Nat) :
    startsName (pre ++ src) (pre.size + stop) (pre.size + pos) = startsName src stop pos := by
  simp only [startsName, Nat.add_assoc, getElem?_shift, Nat.add_lt_add_iff_left]

theorem simpleSelector_shift (mark : Char) (pos stop : Nat) :
    simpleSelector (pre ++ src) mark (pre.size + pos) (pre.size + stop) =
      (simpleSelector src mark pos stop).relocate 0 pre.size := by
  simp only [simpleSelector, Nat.add_assoc, text_shift, opensInterpolation_shift, nodeOf_shift,
    Node.relocateList]

theorem simpleSelectors_shift (stop pos : Nat) :
    simpleSelectors (pre ++ src) (pre.size + stop) (pre.size + pos) =
      shifted pre.size (relocateList 0 pre.size) (simpleSelectors src stop pos) := by
  -- a character outside of strings and interpolations
  have hplain {pos : Nat} {c : Char} (hlt : pos < stop) (hq : quotedEnd? src pos = .ok none)
      (hc : src[pos]? = some c) : simpleSelectors (pre ++ src) (pre.size + stop) (pre.size + pos) =
        if c = '[' then simpleSelectors (pre ++ src) (pre.size + stop) (pre.size + bracketEnd src stop pos)
        else if (c = '#' ∨ c = '.') ∧ startsName src stop (pos + 1) then
          (simpleSelectors (pre ++ src) (pre.size + stop) (pre.size + skipWhile isNameChar src stop (pos + 1))).map
            ((simpleSelector src c pos (skipWhile isNameChar src stop (pos + 1))).relocate 0 pre.size :: ·)
        else simpleSelectors (pre ++ src) (pre.size + stop) (pre.size + (pos + 1)) := by
    rw [simpleSelectors_of_char (by omega) ((getElem?_shift pos).trans hc), quotedEnd?_shift, hq]
    simp only [shifted_ok, Option.map_none, Except.bind, bracketEnd_shift, Nat.add_assoc, startsName_shift,
      skipWhile_shift, simpleSelector_shift]
  fun_induction simpleSelectors src stop pos with
  | case1 pos hlt e hq =>
    rw [simpleSelectors_of_char (by omega) (char_shift (lt_size_of_quotedEnd? hq)), quotedEnd?_shift, hq]
    rfl
  | case2 pos hlt next hq hb ih =>
    rw [simpleSelectors_of_char (by omega) (char_shift (by omega)), quotedEnd?_shift, hq]
    exact ih
  | case3 pos hlt hq hc => rw [simpleSelectors_of_none ((getElem?_shift pos).trans hc)]; rfl
  | case4 pos hlt hq hb hc ih =>
    rw [hplain hlt hq hc, if_pos rfl]
    exact ih
  | case5 pos hlt hq c hc hne hm nameEnd hle e he ih =>
    rw [hplain hlt hq hc, if_neg hne, if_pos hm, ih, he]
    rfl
  | case6 pos hlt hq c hc hne hm nameEnd hle rest hrest ih =>
    rw [hplain hlt hq hc, if_neg hne, if_pos hm, ih, hrest]
    rfl
  | case7 pos hlt hq c hc hne hm ih =>
    rw [hplain hlt hq hc, if_neg hne, if_neg hm]
    exact ih
  | case8 pos hlt => rw [simpleSelectors_of_le (by omega)]; rfl

theorem selectorBetween_shift (start stop : Nat) :
    selectorBetween (pre ++ src) (pre.size + start) (pre.size + stop) =
      shifted pre.size (relocateList 0 pre.size) (selectorBetween src start stop) := by
  simp only [selectorBetween, skipWhile_shift, trimEnd_shift, simpleSelectors_shift, text_shift,
    Nat.add_left_cancel_iff]
  split
  · rfl
  · cases simpleSelectors src (trimEnd src (skipWhile isStyleBlank src stop start) stop)
        (skipWhile isStyleBlank src stop start) with
    | error e => rfl
    | ok parts => simp only [shifted_ok, Node.relocateList, nodeOf_shift]

theorem selectorsFrom_shift (stop segment depth pos : Nat) :
    selectorsFrom (pre ++ src) (pre.size + stop) (pre.size + segment) depth (pre.size + pos) =
      shifted pre.size (relocateList 0 pre.size) (selectorsFrom src stop segment depth pos) := by
  -- a character outside of strings and interpolations
  have hplain {segment depth pos : Nat} {c : Char} (hlt : pos < stop) (hq : quotedEnd? src pos = .ok none)
      (hc : src[pos]? = some c) :
      selectorsFrom (pre ++ src) (pre.size + stop) (pre.size + segment) depth (pre.size + pos) =
        if opensGroup c then
          selectorsFrom (pre ++ src) (pre.size + stop) (pre.size + segment) (depth + 1) (pre.size + (pos + 1))
        else if closesGroup c then
          selectorsFrom (pre ++ src) (pre.size + stop) (pre.size + segment) (depth - 1) (pre.size + (pos + 1))
        else if c = ',' ∧ depth = 0 then
          (shifted pre.size (relocateList 0 pre.size) (selectorBetween src segment pos)).bind fun here =>
            (selectorsFrom (pre ++ src) (pre.size + stop) (pre.size + (pos + 1)) 0 (pre.size + (pos + 1))).map
              (here ++ ·)
        else selectorsFrom (pre ++ src) (pre.size + stop) (pre.size + segment) depth (pre.size + (pos + 1)) := by
    rw [selectorsFrom_of_char (by omega) ((getElem?_shift pos).trans hc), quotedEnd?_shift, hq,
      selectorBetween_shift]
    rfl
  fun_induction selectorsFrom src stop segment depth pos with
  | case1 segment depth pos hlt e hq =>
    rw [selectorsFrom_of_char (by omega) (char_shift (lt_size_of_quotedEnd? hq)), quotedEnd?_shift, hq]
    rfl
  | case2 segment depth pos hlt next hq hb ih =>
    rw [selectorsFrom_of_char (by omega) (char_shift (by omega)), quotedEnd?_shift, hq]
    exact ih
  | case3 segment depth pos hlt hq hc =>
    rw [selectorsFrom_of_none (by omega) ((getElem?_shift pos).trans hc)]
    rfl
  | case4 segment depth pos hlt hq c hc ho ih =>
    rw [hplain hlt hq hc, if_pos ho]
    exact ih
  | case5 segment depth pos hlt hq c hc ho hcl ih =>
    rw [hplain hlt hq hc, if_neg ho, if_pos hcl]
    exact ih
  | case6 segment depth pos hlt hq c hc ho hcl hcomma e he =>
    rw [hplain hlt hq hc, if_neg ho, if_neg hcl, if_pos hcomma, he]
    rfl
  | case7 segment depth pos hlt hq c hc ho hcl hcomma here hhere e he ih =>
    rw [hplain hlt hq hc, if_neg ho, if_neg hcl, if_pos hcomma, hhere, ih, he]
    rfl
  | case8 segment depth pos hlt hq c hc ho hcl hcomma here hhere rest hrest ih =>
    rw [hplain hlt hq hc, if_neg ho, if_neg hcl, if_pos hcomma, hhere, ih, hrest]
    simp only [shifted_ok, Except.bind, Except.map, Node.relocateList_append]
  | case9 segment depth pos hlt hq c hc ho hcl hcomma ih =>
    rw [hplain hlt hq hc, if_neg ho, if_neg hcl, if_neg hcomma]
    exact ih
  | case10 segment depth pos hlt =>
    rw [selectorsFrom_of_le (by omega)]
    exact selectorBetween_shift segment stop

theorem selectorList_shift (start stop : Nat) :
    selectorList (pre ++ src) (pre.size + start) (pre.size + stop) =
      shifted pre.size (relocate 0 pre.size) (selectorList src start stop) := by
  unfold selectorList
  rw [selectorsFrom_shift]
  cases selectorsFrom src stop start 0 start with
  | error e => rfl
  | ok found => simp only [shifted_ok, nodeOf_shift]

/-! ### Statements -/

theorem headNode_shift (start headStop stop : Nat) (block : Option Node) :
    headNode (pre ++ src) (pre.size + start) (pre.size + headStop) (pre.size + stop)
        (block.map (relocate 0 pre.size)) =
      shifted pre.size (relocate 0 pre.size) (headNode src start headStop stop block) := by
  unfold headNode
  rw [getElem?_shift]
  split
  · exact atRule_shift start headStop stop block
  · cases block with
    | none => exact declaration_shift start headStop stop
    | some b =>
      simp only [Option.map_some, rule, selectorList_shift]
      cases selectorList src start headStop with
      | error e => rfl
      | ok list => simp only [shifted_ok, nodeOf_shift, text_shift, Node.relocateList]

theorem statement_shift {blockAt blockAt' : Nat → Except ParseError Node}
    (hblock : ∀ brace, blockAt' (pre.size + brace) = shifted pre.size (relocate 0 pre.size) (blockAt brace))
    (start : Nat) : statement d (pre ++ src) blockAt' (pre.size + start) =
      shifted pre.size (fun (n, resume) => (n.relocate 0 pre.size, pre.size + resume))
        (statement d src blockAt start) := by
  cases hscan : scan d src start with
  | error e =>
    simp only [statement, scan_shift, hscan]
    rfl
  | ok found =>
    obtain ⟨stop, c⟩ := found
    have hscan' : scan d (pre ++ src) (pre.size + start) = .ok (pre.size + stop, c) := by
      rw [scan_shift, hscan]
      rfl
    rw [statement_unfold hscan', statement_unfold hscan, trimEnd_shift, hblock]
    split
    · -- with a block
      refine shifted_bind fun block _ => ?_
      have hstop : (block.relocate 0 pre.size).span.stop = pre.size + block.span.stop := by
        rw [Node.relocate_span, Span.relocate_stop, Nat.sub_zero]
      rw [hstop, ← Option.map_some, headNode_shift]
      exact shifted_map fun _ _ => rfl
    · split
      · have := @headNode_shift pre src start (trimEnd src start stop) (stop + 1) none
        rw [Nat.add_assoc, ← Option.map_none, this]
        exact shifted_map fun _ _ => rfl
      · rw [← Option.map_none, headNode_shift]
        exact shifted_map fun _ _ => rfl

/-- The statements after some text, when blocks are read alike. -/
theorem statements_shift_of_blocks {blockAt blockAt' : Nat → Except ParseError Node}
    (hblock : ∀ brace, blockAt' (pre.size + brace) = shifted pre.size (relocate 0 pre.size) (blockAt brace))
    (opening : Option Nat) (pos : Nat) :
    statements d (pre ++ src) blockAt' (opening.map (pre.size + ·)) (pre.size + pos) =
      shifted pre.size (fun (ns, stop) => (relocateList 0 pre.size ns, pre.size + stop))
        (statements d src blockAt opening pos) := by
  have hskip {pos : Nat} {r : Except ParseError Nat} (hs : skipTrivia d src pos = r) :
      skipTrivia d (pre ++ src) (pre.size + pos) = shifted pre.size (pre.size + ·) r := by
    rw [skipTrivia_shift, hs]
  have hstatement := @statement_shift d pre src blockAt blockAt' hblock
  fun_induction statements d src blockAt opening pos with
  | case1 pos e hs =>
    rw [statements_of_error (hskip hs)]
    rfl
  | case2 pos start hs hb hlt hc ho =>
    rw [statements_of_char (hskip hs) (char_shift hlt), if_pos hc, Option.isSome_map, if_pos ho]
    rfl
  | case3 pos start hs hb hlt hc ho =>
    rw [statements_of_char (hskip hs) (char_shift hlt), if_pos hc, Option.isSome_map, if_neg ho]
    rfl
  | case4 pos start hs hb hlt hc hsemi ih =>
    rw [statements_of_char (hskip hs) (char_shift hlt), if_neg hc, if_pos hsemi]
    exact ih
  | case5 pos start hs hb hlt hc hsemi e he =>
    rw [statements_of_char (hskip hs) (char_shift hlt), if_neg hc, if_neg hsemi, hstatement, he]
    rfl
  | case6 pos start hs hb hlt hc hsemi n resume hn hlt' e he ih =>
    rw [statements_of_char (hskip hs) (char_shift hlt), if_neg hc, if_neg hsemi, hstatement, hn]
    simp only [shifted_ok, Except.bind, Nat.add_lt_add_iff_left, if_pos hlt', ih, he]
    rfl
  | case7 pos start hs hb hlt hc hsemi n resume hn hlt' rest stop hrest ih =>
    rw [statements_of_char (hskip hs) (char_shift hlt), if_neg hc, if_neg hsemi, hstatement, hn]
    simp only [shifted_ok, Except.bind, Nat.add_lt_add_iff_left, if_pos hlt', ih, hrest]
    rfl
  | case8 pos start hs hb hlt hc hsemi n resume hn hlt' =>
    rw [statements_of_char (hskip hs) (char_shift hlt), if_neg hc, if_neg hsemi, hstatement, hn]
    simp only [shifted_ok, Except.bind, Nat.add_lt_add_iff_left, if_neg hlt']
    rfl
  | case9 pos start hs hb hlt brace hopen =>
    subst hopen
    rw [statements_past_end (hskip hs) (size_shift (Nat.le_of_not_lt hlt))]
    rfl
  | case10 pos start hs hb hlt hopen =>
    subst hopen
    rw [statements_past_end (hskip hs) (size_shift (Nat.le_of_not_lt hlt))]
    rfl

theorem blockAt_shift (depth opening : Nat) : blockAt d (pre ++ src) depth (pre.size + opening) =
    shifted pre.size (relocate 0 pre.size) (blockAt d src depth opening) := by
  induction depth generalizing opening with
  | zero => rfl
  | succ depth ih =>
    have := @statements_shift_of_blocks d pre src _ _ ih (some opening) (opening + 1)
    simp only [blockAt]
    rw [Nat.add_assoc, ← Option.map_some, this]
    cases statements d src (blockAt d src depth) (some opening) (opening + 1) with
    | error e => rfl
    | ok found => simp only [shifted_ok, nodeOf_shift, Nat.add_assoc]

/-- **What is read from a place on is told by the text from there on**, with its trees or with its
fault. -/
theorem statements_shift (depth : Nat) (opening : Option Nat) (pos : Nat) :
    statements d (pre ++ src) (blockAt d (pre ++ src) depth) (opening.map (pre.size + ·)) (pre.size + pos) =
      shifted pre.size (fun (ns, stop) => (relocateList 0 pre.size ns, pre.size + stop))
        (statements d src (blockAt d src depth) opening pos) :=
  statements_shift_of_blocks (blockAt_shift depth) opening pos

end HouseStyle.Stylesheet
