import HouseStyle.Stylesheet.Scan
import Mathlib.Tactic.Common

/-!
# Scanning looks at little of the text

A step over a text that ends inside a stretch of it ends at the same place of that
stretch wherever the stretch stands.

* `Agree src src' a b n`: the `n` characters from `a` on in one text are those from
  `b` on in the other.
* `scan_agree`, `skipTrivia_agree`: where a head ends and where trivia ends is told
  by the characters up to there and the one after.
-/

namespace HouseStyle.Stylesheet

open Cursor (find find_bounds)

variable {d : Dialect} {src src' : Array Char} {a b n : Nat}

/-! ### One step at a time -/

section

variable {c : Char} {pos : Nat}

theorem closingQuote?_of_char {quote : Char} (h : src[pos]? = some c) :
    closingQuote? src quote pos =
      if c = '\\' then closingQuote? src quote (pos + 2)
      else if c = quote then some (pos + 1)
      else if c = '\n' then none
      else closingQuote? src quote (pos + 1) := by
  obtain ⟨hlt, rfl⟩ := Array.getElem?_eq_some_iff.1 h
  rw [closingQuote?, dif_pos hlt]

theorem closingBrace_of_char {start depth : Nat} (h : src[pos]? = some c) :
    closingBrace src start depth pos =
      if isQuote c then (stringEnd src c pos).bind (closingBrace src start depth)
      else if c = '{' then closingBrace src start (depth + 1) (pos + 1)
      else if c = '}' then
        if depth = 1 then .ok (pos + 1) else closingBrace src start (depth - 1) (pos + 1)
      else closingBrace src start depth (pos + 1) := by
  obtain ⟨hlt, rfl⟩ := Array.getElem?_eq_some_iff.1 h
  rw [closingBrace, dif_pos hlt]
  split
  · split <;> rename_i heq <;> simp only [heq, Except.bind]
  · rfl

theorem scanFrom_of_char {depth : Nat} (h : src[pos]? = some c) :
    scanFrom d src depth pos =
      (opaqueEnd? d src depth pos).bind fun
        | some next => scanFrom d src depth next
        | none =>
          if opensGroup c then scanFrom d src (depth + 1) (pos + 1)
          else if closesGroup c then scanFrom d src (depth - 1) (pos + 1)
          else if depth = 0 ∧ endsHead c then .ok (pos, some c)
          else scanFrom d src depth (pos + 1) := by
  obtain ⟨hlt, rfl⟩ := Array.getElem?_eq_some_iff.1 h
  rw [scanFrom, dif_pos hlt]
  split <;> rename_i heq <;> simp only [heq, Except.bind]

theorem skipTrivia_of_char (h : src[pos]? = some c) :
    skipTrivia d src pos =
      if isStyleBlank c then skipTrivia d src (pos + 1)
      else
        (commentEnd? (d == .scss) src pos).bind fun
          | some next => skipTrivia d src next
          | none => .ok pos := by
  obtain ⟨hlt, rfl⟩ := Array.getElem?_eq_some_iff.1 h
  rw [skipTrivia, dif_pos hlt]
  split
  · rfl
  · split <;> rename_i heq <;> simp only [heq, Except.bind]

end

/-! ### Agreement -/

/-- The `n` characters from `a` on in one text are those from `b` on in another;
where one text ends the other does. -/
def Agree (src src' : Array Char) (a b n : Nat) : Prop :=
  ∀ i, i < n → src[a + i]? = src'[b + i]?

theorem Agree.symm (h : Agree src src' a b n) : Agree src' src b a n :=
  fun i hi => (h i hi).symm

theorem Agree.mono {m : Nat} (h : Agree src src' a b n) (hm : m ≤ n) : Agree src src' a b m :=
  fun i hi => h i (Nat.lt_of_lt_of_le hi hm)

theorem Agree.drop (h : Agree src src' a b n) (k : Nat) : Agree src src' (a + k) (b + k) (n - k) := by
  intro i hi
  have := h (k + i) (by omega)
  rwa [← Nat.add_assoc, ← Nat.add_assoc] at this

/-- Texts that agree from their starts on have the same characters at the same places. -/
theorem Agree.same (h : Agree src src' 0 0 n) {i : Nat} (hi : i < n) : src'[i]? = src[i]? := by
  have := h i hi
  rw [Nat.zero_add] at this
  exact this.symm

theorem Agree.char (h : Agree src src' a b n) {i : Nat} (hi : i < n) (hs : a + i < src.size) :
    src'[b + i]? = some src[a + i] := by
  rw [← h i hi, Array.getElem?_eq_getElem hs]

theorem Agree.lt_size (h : Agree src src' a b n) {i : Nat} (hi : i < n) (hs : a + i < src.size) :
    b + i < src'.size :=
  (Array.getElem?_eq_some_iff.1 (h.char hi hs)).1

/-- A stretch that ends inside one text ends inside the other. -/
theorem Agree.le_size (h : Agree src src' a b n) {i j : Nat} (hij : i < j) (hj : j ≤ n)
    (hs : a + j ≤ src.size) : b + j ≤ src'.size := by
  have := h.lt_size (i := j - 1) (by omega) (by omega)
  omega

/-- Where one text ends the other does. -/
theorem Agree.ended (h : Agree src src' a b n) {j : Nat} (hj : j < n) (hs : a + j = src.size)
    (hb : b + j ≤ src'.size) : src'.size = b + j := by
  have he := h j hj
  rw [Array.getElem?_eq_none (by omega)] at he
  have := Array.getElem?_eq_none_iff.1 he.symm
  omega

/-- A text that begins like another one agrees with it up to there, and the rest follows. -/
theorem agree_of_take {k : Nat} {rest : List Char} (hk : k ≤ src.size)
    (h : src'.toList = src.toList.take k ++ rest) : Agree src src' 0 0 k ∧ src'.toList.drop k = rest := by
  have hlen : (src.toList.take k).length = k := by
    rw [List.length_take, Array.length_toList]
    omega
  refine ⟨fun i hi => ?_, by rw [h, List.drop_left' hlen]⟩
  rw [Nat.zero_add, ← Array.getElem?_toList, ← Array.getElem?_toList, h,
    List.getElem?_append_left (by omega), List.getElem?_take_of_lt hi]

/-! ### Strings, comments, interpolations -/

theorem closingQuote?_agree {quote : Char} (h : Agree src src' a b n) {i j : Nat} (hj : j ≤ n)
    (hs : closingQuote? src quote (a + i) = some (a + j)) :
    closingQuote? src' quote (b + i) = some (b + j) := by
  generalize hcur : a + i = cursor at hs
  fun_induction closingQuote? src quote cursor generalizing i with
  | case1 cursor hlt hc ih =>
    subst hcur
    have := closingQuote?_bounds hs
    obtain ⟨hlt', hc'⟩ := Array.getElem?_eq_some_iff.1 (h.char (by omega) hlt)
    rw [closingQuote?, dif_pos hlt', hc', if_pos hc]
    exact ih (i := i + 2) rfl hs
  | case2 cursor hlt hc hq =>
    subst hcur
    have hij : i + 1 = j := by simp only [Option.some.injEq] at hs; omega
    obtain ⟨hlt', hc'⟩ := Array.getElem?_eq_some_iff.1 (h.char (by omega) hlt)
    rw [closingQuote?, dif_pos hlt', hc', if_neg hc, if_pos hq, ← hij]
    rfl
  | case3 => cases hs
  | case4 cursor hlt hc hq hn ih =>
    subst hcur
    have := closingQuote?_bounds hs
    obtain ⟨hlt', hc'⟩ := Array.getElem?_eq_some_iff.1 (h.char (by omega) hlt)
    rw [closingQuote?, dif_pos hlt', hc', if_neg hc, if_neg hq, if_neg hn]
    exact ih (i := i + 1) rfl hs
  | case5 => cases hs

theorem stringEnd_agree {quote : Char} (h : Agree src src' a b n) {i j : Nat} (hj : j ≤ n)
    (hs : stringEnd src quote (a + i) = .ok (a + j)) : stringEnd src' quote (b + i) = .ok (b + j) := by
  unfold stringEnd at hs ⊢
  split at hs
  · rename_i stop heq
    cases hs
    rw [Nat.add_assoc, closingQuote?_agree (i := i + 1) h hj heq]
  · cases hs

theorem closingComment?_agree (h : Agree src src' a b n) {i j : Nat} (hj : j ≤ n)
    (hs : closingComment? src (a + i) = some (a + j)) : closingComment? src' (b + i) = some (b + j) := by
  generalize hcur : a + i = cursor at hs
  fun_induction closingComment? src cursor generalizing i with
  | case1 cursor hlt hc =>
    subst hcur
    have hij : i + 2 = j := by simp only [Option.some.injEq] at hs; omega
    obtain ⟨_, hc'⟩ := Array.getElem?_eq_some_iff.1 (h.char (i := i) (by omega) (by omega))
    obtain ⟨hlt', hc''⟩ := Array.getElem?_eq_some_iff.1 (h.char (i := i + 1) (by omega) hlt)
    rw [closingComment?, dif_pos (show b + i + 1 < src'.size from hlt'),
      if_pos ⟨hc'.trans hc.1, Eq.trans hc'' hc.2⟩, ← hij]
    rfl
  | case2 cursor hlt hc ih =>
    subst hcur
    have := closingComment?_bounds hs
    obtain ⟨_, hc'⟩ := Array.getElem?_eq_some_iff.1 (h.char (i := i) (by omega) (by omega))
    obtain ⟨hlt', hc''⟩ := Array.getElem?_eq_some_iff.1 (h.char (i := i + 1) (by omega) hlt)
    rw [closingComment?, dif_pos (show b + i + 1 < src'.size from hlt'),
      if_neg fun hx => hc ⟨hc'.symm.trans hx.1, Eq.trans hc''.symm hx.2⟩]
    exact ih (i := i + 1) rfl hs
  | case3 => cases hs

theorem commentEnd_agree (h : Agree src src' a b n) {i j : Nat} (hj : j ≤ n)
    (hs : commentEnd src (a + i) = .ok (a + j)) : commentEnd src' (b + i) = .ok (b + j) := by
  unfold commentEnd at hs ⊢
  split at hs
  · rename_i stop heq
    cases hs
    rw [Nat.add_assoc, closingComment?_agree (i := i + 2) h hj heq]
  · cases hs

theorem opensInterpolation_agree (h : Agree src src' a b n) {i : Nat} (hi : i < n)
    (hnext : src[a + i]? = some '#' → i + 1 < n) :
    opensInterpolation src' (b + i) = opensInterpolation src (a + i) := by
  unfold opensInterpolation
  rw [← h i hi]
  by_cases hc : src[a + i]? = some '#'
  · rw [Nat.add_assoc, Nat.add_assoc, h (i + 1) (hnext hc)]
  · rw [beq_eq_false_iff_ne.2 hc, Bool.false_and, Bool.false_and]

theorem interpolationEnd_lt {pos stop : Nat} (h : interpolationEnd src pos = .ok stop) :
    pos + 1 < stop :=
  (closingBrace_bounds h).1

theorem map_some_ne_none (step : Except ParseError Nat) : step.map some ≠ .ok none := by
  cases step <;> simp [Except.map]

theorem closingBrace_agree (h : Agree src src' a b n) {p p' depth i j : Nat} (hj : j ≤ n)
    (hs : closingBrace src p depth (a + i) = .ok (a + j)) :
    closingBrace src' p' depth (b + i) = .ok (b + j) := by
  generalize hcur : a + i = cursor at hs
  fun_induction closingBrace src p depth cursor generalizing i with
  | case1 => cases hs
  | case2 depth cursor hlt hq next hn hb ih =>
    subst hcur
    have := closingBrace_bounds hs
    obtain ⟨k, rfl⟩ := Nat.exists_eq_add_of_le (show a ≤ next by omega)
    rw [closingBrace_of_char (h.char (by omega) hlt), if_pos hq, stringEnd_agree h (by omega) hn]
    exact ih rfl hs
  | case3 depth cursor hlt hq hc ih =>
    subst hcur
    have := closingBrace_bounds hs
    rw [closingBrace_of_char (h.char (by omega) hlt), if_neg hq, if_pos hc]
    exact ih (i := i + 1) rfl hs
  | case4 cursor hlt hq hc hb =>
    subst hcur
    have hij : i + 1 = j := by simp only [Except.ok.injEq] at hs; omega
    rw [closingBrace_of_char (h.char (by omega) hlt), if_neg hq, if_neg hc, if_pos hb, if_pos rfl, ← hij]
    rfl
  | case5 depth cursor hlt hq hc hb hd ih =>
    subst hcur
    have := closingBrace_bounds hs
    rw [closingBrace_of_char (h.char (by omega) hlt), if_neg hq, if_neg hc, if_pos hb, if_neg hd]
    exact ih (i := i + 1) rfl hs
  | case6 depth cursor hlt hq hc hb ih =>
    subst hcur
    have := closingBrace_bounds hs
    rw [closingBrace_of_char (h.char (by omega) hlt), if_neg hq, if_neg hc, if_neg hb]
    exact ih (i := i + 1) rfl hs
  | case7 => cases hs

theorem interpolationEnd_agree (h : Agree src src' a b n) {i j : Nat} (hj : j ≤ n)
    (hs : interpolationEnd src (a + i) = .ok (a + j)) :
    interpolationEnd src' (b + i) = .ok (b + j) :=
  closingBrace_agree (i := i + 1) h hj hs

/-- Where a string or an interpolation is not closed, one starts. -/
theorem lt_size_of_quotedEnd? {pos : Nat} {e : ParseError} (h : quotedEnd? src pos = .error e) :
    pos < src.size := by
  by_contra hsize
  rw [quotedEnd?, Array.getElem?_eq_none (Nat.le_of_not_lt hsize)] at h
  cases h

theorem quotedEnd?_agree (h : Agree src src' a b n) {i j : Nat} (hj : j ≤ n)
    (hs : quotedEnd? src (a + i) = .ok (some (a + j))) :
    quotedEnd? src' (b + i) = .ok (some (b + j)) := by
  have hbd := quotedEnd?_bounds hs
  have hc' := h.char (i := i) (by omega) (by omega)
  have hc : src[a + i]? = some src[a + i] := Array.getElem?_eq_getElem (by omega)
  simp only [quotedEnd?, hc, hc'] at hs ⊢
  split at hs
  · rename_i hq
    rw [if_pos hq, stringEnd_agree h hj (of_map_some hs)]; rfl
  · rename_i hq
    split at hs
    · rename_i ho
      have hin := interpolationEnd_lt (of_map_some hs)
      have ho' := opensInterpolation_agree h (i := i) (by omega) fun _ => by omega
      rw [if_neg hq, ho', if_pos ho, interpolationEnd_agree h hj (of_map_some hs)]; rfl
    · cases hs

theorem quotedEnd?_agree_none (h : Agree src src' a b n) {i : Nat} (hi : i < n)
    (hnext : src[a + i]? = some '#' → i + 1 < n) (hs : quotedEnd? src (a + i) = .ok none) :
    quotedEnd? src' (b + i) = .ok none := by
  have ho := opensInterpolation_agree h hi hnext
  unfold quotedEnd? at hs ⊢
  rw [← h i hi]
  split
  · rfl
  · rename_i c hc
    simp only [hc] at hs
    split at hs
    · exact absurd hs (map_some_ne_none _)
    · rename_i hq
      split at hs
      · exact absurd hs (map_some_ne_none _)
      · rename_i hn
        rw [if_neg hq, ho, if_neg hn]

/-! ### Comments, heads, trivia -/

theorem find_agree (h : Agree src src' a b n) {target : Char} {i j : Nat} (hj : j < n)
    (ha : a + i ≤ src.size) (hb : b + i ≤ src'.size)
    (hs : find src target src.size (a + i) = a + j) : find src' target src'.size (b + i) = b + j := by
  generalize hcur : a + i = cursor at hs
  fun_induction find src target src.size cursor generalizing i with
  | case1 cursor hlt hc =>
    subst hcur
    obtain rfl : i = j := by omega
    rw [find, if_pos (h.lt_size hj hlt), ← h i hj, if_pos hc]
  | case2 cursor hlt hc ih =>
    subst hcur
    have hle := (@find_bounds src target src.size (a + i + 1) hlt).1
    rw [find, if_pos (h.lt_size (by omega) hlt), ← h i (by omega), if_neg hc]
    exact ih (i := i + 1) hlt (h.le_size (Nat.lt_succ_self i) (by omega) hlt) rfl hs
  | case3 cursor hlt =>
    subst hcur
    obtain rfl : i = j := by omega
    have := h.ended hj (by omega) hb
    rw [find, if_neg (by omega), this]

theorem find_stops {target : Char} {stop cursor : Nat} :
    find src target stop cursor = stop ∨ src[find src target stop cursor]? = some target := by
  fun_induction find src target stop cursor with
  | case1 cursor hlt hc => exact .inr hc
  | case2 cursor hlt hc ih => exact ih
  | case3 => exact .inl rfl

/-- The two characters that open a comment belong to it. -/
theorem commentEnd?_lt {lines : Bool} {pos stop : Nat}
    (h : commentEnd? lines src pos = .ok (some stop)) : pos + 1 < stop := by
  unfold commentEnd? at h
  split at h
  · rename_i hslash
    split at h
    · have heq := of_map_some h
      unfold commentEnd at heq
      split at heq
      · rename_i hclose
        cases heq
        have := closingComment?_bounds hclose
        omega
      · cases heq
    · split at h
      · rename_i hline
        have h0 := (Array.getElem?_eq_some_iff.1 hslash).1
        have h1 := (Array.getElem?_eq_some_iff.1 hline.1).1
        simp only [Except.ok.injEq, Option.some.injEq] at h
        rw [find, if_pos h0, if_neg (by rw [hslash]; decide), find, if_pos h1,
          if_neg (by rw [hline.1]; decide)] at h
        have := (@find_bounds src '\n' src.size (pos + 1 + 1) h1).1
        omega
      · cases h
  · cases h

theorem commentEnd?_agree {lines : Bool} (h : Agree src src' a b n) {i j : Nat} (hj : j ≤ n)
    (hend : src[a + j]? = some '\n' ∨ a + j = src.size → j < n)
    (hs : commentEnd? lines src (a + i) = .ok (some (a + j))) :
    commentEnd? lines src' (b + i) = .ok (some (b + j)) := by
  have hbd := commentEnd?_bounds hs
  have hlt := commentEnd?_lt hs
  have hb := h.lt_size (i := i) (by omega) (by omega)
  have hnext := h (i + 1) (by omega)
  rw [← Nat.add_assoc, ← Nat.add_assoc] at hnext
  unfold commentEnd? at hs ⊢
  rw [← h i (by omega), ← hnext]
  split at hs
  · rename_i hslash
    rw [if_pos hslash]
    split at hs
    · rename_i hstar
      rw [if_pos hstar, commentEnd_agree h hj (of_map_some hs)]; rfl
    · rename_i hstar
      rw [if_neg hstar]
      split at hs
      · rename_i hline
        simp only [Except.ok.injEq, Option.some.injEq] at hs
        have hstop := @find_stops src '\n' src.size (a + i)
        rw [hs] at hstop
        rw [if_pos hline, find_agree h (hend hstop.symm) (by omega) (by omega) hs]
      · cases hs
  · cases hs

theorem commentEnd?_agree_none {lines : Bool} (h : Agree src src' a b n) {i : Nat} (hi : i < n)
    (hnext : src[a + i]? = some '/' → i + 1 < n) (hs : commentEnd? lines src (a + i) = .ok none) :
    commentEnd? lines src' (b + i) = .ok none := by
  unfold commentEnd? at hs ⊢
  rw [← h i hi]
  split
  · rename_i hslash
    have hn := h (i + 1) (hnext hslash)
    rw [← Nat.add_assoc, ← Nat.add_assoc] at hn
    rw [if_pos hslash] at hs
    rw [← hn]
    split at hs
    · exact absurd hs (map_some_ne_none _)
    · rename_i hstar
      split at hs
      · cases hs
      · rename_i hline
        rw [if_neg hstar, if_neg hline]
  · rfl

theorem opaqueEnd?_eq_bind (src : Array Char) (depth pos : Nat) : opaqueEnd? d src depth pos =
    (quotedEnd? src pos).bind fun
      | some stop => .ok (some stop)
      | none => commentEnd? (d == .scss && depth == 0) src pos := by
  unfold opaqueEnd?
  split <;> rename_i heq <;> rw [heq] <;> rfl

theorem opaqueEnd?_agree (h : Agree src src' a b n) {depth i j : Nat} (hj : j < n)
    (hs : opaqueEnd? d src depth (a + i) = .ok (some (a + j))) :
    opaqueEnd? d src' depth (b + i) = .ok (some (b + j)) := by
  have hbd := opaqueEnd?_bounds hs
  unfold opaqueEnd? at hs ⊢
  split at hs
  · cases hs
  · rename_i stop hq
    cases hs
    rw [quotedEnd?_agree h (Nat.le_of_lt hj) hq]
  · rename_i hq
    rw [quotedEnd?_agree_none h (by omega) (fun _ => by omega) hq]
    exact commentEnd?_agree h (Nat.le_of_lt hj) (fun _ => hj) hs

theorem opaqueEnd?_agree_none (h : Agree src src' a b n) {depth i : Nat} (hi : i < n)
    (hnext : src[a + i]? = some '#' ∨ src[a + i]? = some '/' → i + 1 < n)
    (hs : opaqueEnd? d src depth (a + i) = .ok none) : opaqueEnd? d src' depth (b + i) = .ok none := by
  unfold opaqueEnd? at hs ⊢
  split at hs
  · cases hs
  · cases hs
  · rename_i hq
    rw [quotedEnd?_agree_none h hi (fun hc => hnext (.inl hc)) hq]
    exact commentEnd?_agree_none h hi (fun hc => hnext (.inr hc)) hs

theorem scanFrom_bounds {depth pos stop : Nat} {c : Option Char} (hp : pos ≤ src.size)
    (h : scanFrom d src depth pos = .ok (stop, c)) : pos ≤ stop ∧ stop ≤ src.size ∧ src[stop]? = c := by
  fun_induction scanFrom d src depth pos with
  | case1 => cases h
  | case2 depth pos hlt next hn hb ih =>
    obtain ⟨h1, h2, h3⟩ := ih hb.2 h
    exact ⟨by omega, h2, h3⟩
  | case3 depth pos hlt _ _ ih =>
    obtain ⟨h1, h2, h3⟩ := ih hlt h
    exact ⟨by omega, h2, h3⟩
  | case4 depth pos hlt _ _ _ ih =>
    obtain ⟨h1, h2, h3⟩ := ih hlt h
    exact ⟨by omega, h2, h3⟩
  | case5 depth pos hlt _ _ _ _ =>
    cases h
    exact ⟨Nat.le_refl _, Nat.le_of_lt hlt, Array.getElem?_eq_getElem hlt⟩
  | case6 depth pos hlt _ _ _ _ ih =>
    obtain ⟨h1, h2, h3⟩ := ih hlt h
    exact ⟨by omega, h2, h3⟩
  | case7 depth pos hlt =>
    cases h
    exact ⟨hp, Nat.le_refl _, Array.getElem?_eq_none (Nat.le_refl _)⟩

/-- **Where a head ends is told by the characters up to there.** -/
theorem scanFrom_agree (h : Agree src src' a b n) {depth i j : Nat} {c : Option Char} (hj : j < n)
    (ha : a + i ≤ src.size) (hb : b + i ≤ src'.size)
    (hs : scanFrom d src depth (a + i) = .ok (a + j, c)) :
    scanFrom d src' depth (b + i) = .ok (b + j, c) := by
  generalize hcur : a + i = cursor at hs
  fun_induction scanFrom d src depth cursor generalizing i with
  | case1 => cases hs
  | case2 depth cursor hlt next hn hbd ih =>
    subst hcur
    have := scanFrom_bounds hbd.2 hs
    obtain ⟨k, rfl⟩ := Nat.exists_eq_add_of_le (show a ≤ next by omega)
    rw [scanFrom_of_char (h.char (by omega) hlt), opaqueEnd?_agree h (by omega) hn]
    exact ih hbd.2 (h.le_size (i := i) (by omega) (by omega) hbd.2) rfl hs
  | case3 depth cursor hlt hn hg ih =>
    subst hcur
    have := scanFrom_bounds hlt hs
    rw [scanFrom_of_char (h.char (by omega) hlt),
      opaqueEnd?_agree_none h (by omega) (fun _ => by omega) hn]
    simp only [Except.bind, if_pos hg]
    exact ih (i := i + 1) hlt (h.le_size (Nat.lt_succ_self i) (by omega) hlt) rfl hs
  | case4 depth cursor hlt hn hg hg' ih =>
    subst hcur
    have := scanFrom_bounds hlt hs
    rw [scanFrom_of_char (h.char (by omega) hlt),
      opaqueEnd?_agree_none h (by omega) (fun _ => by omega) hn]
    simp only [Except.bind, if_neg hg, if_pos hg']
    exact ih (i := i + 1) hlt (h.le_size (Nat.lt_succ_self i) (by omega) hlt) rfl hs
  | case5 depth cursor hlt hn hg hg' hend =>
    subst hcur
    simp only [Except.ok.injEq, Prod.mk.injEq] at hs
    obtain rfl : i = j := by omega
    -- what ends a head begins neither a comment nor an interpolation
    have hplain : ¬ (src[a + i]? = some '#' ∨ src[a + i]? = some '/') := by
      rw [Array.getElem?_eq_getElem hlt, Option.some.injEq, Option.some.injEq]
      rintro (hc | hc) <;> rw [hc] at hend <;> exact absurd hend.2 (by decide)
    rw [scanFrom_of_char (h.char hj hlt), opaqueEnd?_agree_none h hj (fun hc => absurd hc hplain) hn]
    simp only [Except.bind, if_neg hg, if_neg hg', if_pos hend, hs.2]
  | case6 depth cursor hlt hn hg hg' hend ih =>
    subst hcur
    have := scanFrom_bounds hlt hs
    rw [scanFrom_of_char (h.char (by omega) hlt),
      opaqueEnd?_agree_none h (by omega) (fun _ => by omega) hn]
    simp only [Except.bind, if_neg hg, if_neg hg', if_neg hend]
    exact ih (i := i + 1) hlt (h.le_size (Nat.lt_succ_self i) (by omega) hlt) rfl hs
  | case7 depth cursor hlt =>
    subst hcur
    simp only [Except.ok.injEq, Prod.mk.injEq] at hs
    obtain rfl : i = j := by omega
    -- both texts are at their end
    have := h.ended hj (by omega) hb
    rw [scanFrom, dif_neg (by omega), this, hs.2]

theorem scan_agree (h : Agree src src' a b n) {j : Nat} {c : Option Char} (hj : j < n)
    (ha : a ≤ src.size) (hb : b ≤ src'.size) (hs : scan d src a = .ok (a + j, c)) :
    scan d src' b = .ok (b + j, c) :=
  scanFrom_agree (i := 0) h hj ha hb hs

theorem skipTrivia_of_end {pos : Nat} (h : src.size ≤ pos) : skipTrivia d src pos = .ok pos := by
  rw [skipTrivia, dif_neg (by omega)]

theorem skipTrivia_idem {pos next : Nat} (h : skipTrivia d src pos = .ok next) :
    skipTrivia d src next = .ok next := by
  fun_induction skipTrivia d src pos with
  | case1 _ _ _ ih => exact ih h
  | case2 => cases h
  | case3 _ _ _ _ _ _ ih => exact ih h
  | case4 pos hlt hc hn =>
    cases h
    rw [skipTrivia_of_char (Array.getElem?_eq_getElem hlt), if_neg hc, hn]; rfl
  | case5 pos hlt =>
    cases h
    exact skipTrivia_of_end (by omega)

/-- A character that is neither white space nor a slash is no trivia. -/
theorem skipTrivia_of_plain {pos : Nat} {c : Char} (h : src[pos]? = some c) (hc : isStyleBlank c = false)
    (hslash : c ≠ '/') : skipTrivia d src pos = .ok pos := by
  have hn : commentEnd? (d == .scss) src pos = .ok none := by
    unfold commentEnd?
    rw [if_neg (by rw [h]; simpa using hslash)]
  rw [skipTrivia_of_char h, hc, hn]; rfl

/-- A place without trivia is told by its character, and a slash by the next one
too. -/
theorem skipTrivia_agree_rest (h : Agree src src' a b n) {j : Nat} (hj : j < n)
    (hnext : src[a + j]? = some '/' → j + 1 < n) (hs : skipTrivia d src (a + j) = .ok (a + j)) :
    skipTrivia d src' (b + j) = .ok (b + j) := by
  by_cases hlt : a + j < src.size
  · rw [skipTrivia_of_char (Array.getElem?_eq_getElem hlt)] at hs
    rw [skipTrivia_of_char (h.char hj hlt)]
    split at hs
    · have := (skipTrivia_bounds hs).1
      omega
    rename_i hc
    rw [if_neg hc]
    cases hn : commentEnd? (d == .scss) src (a + j) with
    | error e => rw [hn] at hs; cases hs
    | ok next? =>
      cases next? with
      | none => rw [commentEnd?_agree_none h hj hnext hn]; rfl
      | some next =>
        rw [hn] at hs
        have h1 := (commentEnd?_bounds hn).1
        have h2 := (skipTrivia_bounds hs).1
        omega
  · have he := h j hj
    rw [Array.getElem?_eq_none (by omega)] at he
    exact skipTrivia_of_end (Array.getElem?_eq_none_iff.1 he.symm)

/-- **Where trivia ends is told by the characters up to there**, if what follows in
the other text is no trivia either. -/
theorem skipTrivia_agree (h : Agree src src' a b n) {i j : Nat} (hj : j ≤ n)
    (hend : a + j = src.size → j < n) (hrest : skipTrivia d src' (b + j) = .ok (b + j))
    (hs : skipTrivia d src (a + i) = .ok (a + j)) : skipTrivia d src' (b + i) = .ok (b + j) := by
  generalize hcur : a + i = cursor at hs
  fun_induction skipTrivia d src cursor generalizing i with
  | case1 cursor hlt hc ih =>
    subst hcur
    have := skipTrivia_bounds hs
    rw [skipTrivia_of_char (h.char (by omega) hlt), if_pos hc]
    exact ih (i := i + 1) rfl hs
  | case2 => cases hs
  | case3 cursor hlt hc next hn hbd ih =>
    subst hcur
    have := skipTrivia_bounds hs
    obtain ⟨k, rfl⟩ := Nat.exists_eq_add_of_le (show a ≤ next by omega)
    have hk : src[a + k]? = some '\n' ∨ a + k = src.size → k < n := by
      rintro (hfeed | hlast)
      · -- the line feed after a line comment is trivia too
        rw [skipTrivia_of_char hfeed, if_pos (by decide)] at hs
        have := skipTrivia_bounds hs
        omega
      · obtain rfl : k = j := by omega
        exact hend hlast
    rw [skipTrivia_of_char (h.char (by omega) hlt), if_neg hc, commentEnd?_agree h (by omega) hk hn]
    exact ih rfl hs
  | case4 cursor hlt hc hn =>
    simp only [Except.ok.injEq] at hs
    obtain rfl : i = j := by omega
    exact hrest
  | case5 cursor hlt =>
    simp only [Except.ok.injEq] at hs
    obtain rfl : i = j := by omega
    exact hrest

end HouseStyle.Stylesheet
