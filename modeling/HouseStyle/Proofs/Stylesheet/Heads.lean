import HouseStyle.Stylesheet.Parser
import HouseStyle.Proofs.Stylesheet.Agreement
import HouseStyle.Proofs.Tree.Relocation

/-!
# Heads read alike wherever they stand

* `declaration_agree`, `atRule_agree`: what a statement without a block says is told
  by its own text.
* `selectorList_agree`: so are the selectors of a rule, where they are read at all. A
  quote or an interpolation that a comment of the head leaves open is searched for
  its end beyond the head.
-/

namespace HouseStyle.Stylesheet

open Cursor (find find_bounds skipWhile le_skipWhile)

variable {src src' : Array Char} {a b n : Nat}

/-! ### Words of a stretch -/

theorem text_agree (h : Agree src src' a b n) {i j : Nat} (hj : j ≤ n) :
    Cursor.text src' (b + i) (b + j) = Cursor.text src (a + i) (a + j) := by
  unfold Cursor.text
  congr 2
  apply Array.ext_getElem?
  intro k
  rw [Array.getElem?_extract, Array.getElem?_extract]
  by_cases hk : i + k < j
  · have he := h (i + k) (by omega)
    rw [← Nat.add_assoc, ← Nat.add_assoc] at he
    by_cases hs : a + i + k < src.size
    · have hs' : b + i + k < src'.size := by
        rw [Array.getElem?_eq_getElem hs] at he
        exact (Array.getElem?_eq_some_iff.1 he.symm).1
      rw [if_pos (by omega), if_pos (by omega), he]
    · have hs' : ¬ b + i + k < src'.size := by
        rw [Array.getElem?_eq_none (by omega)] at he
        have := Array.getElem?_eq_none_iff.1 he.symm
        omega
      rw [if_neg (by omega), if_neg (by omega)]
  · rw [if_neg (by omega), if_neg (by omega)]

theorem skipWhile_le {p : Char → Bool} {stop cursor : Nat} (h : cursor ≤ stop) :
    skipWhile p src stop cursor ≤ stop := by
  fun_induction skipWhile p src stop cursor with
  | case1 cursor hc ih => exact ih hc.1
  | case2 => exact h

/-- Only the characters before the bound are looked at. -/
theorem skipWhile_congr {p : Char → Bool} {stop : Nat} (h : ∀ k < stop, (src'[k]?).any p = (src[k]?).any p)
    (cursor : Nat) : skipWhile p src' stop cursor = skipWhile p src stop cursor := by
  fun_induction skipWhile p src stop cursor with
  | case1 cursor hc ih => rw [skipWhile, h cursor hc.1, if_pos hc, ih]
  | case2 cursor hc =>
    rw [skipWhile, if_neg]
    rintro ⟨hlt, hp⟩
    exact hc ⟨hlt, by rwa [h cursor hlt] at hp⟩

theorem skipWhile_agree (h : Agree src src' a b n) {p : Char → Bool} {i l : Nat} (hi : i ≤ l)
    (hl : l ≤ n) : ∃ u, i ≤ u ∧ u ≤ l ∧ skipWhile p src (a + l) (a + i) = a + u ∧
      skipWhile p src' (b + l) (b + i) = b + u := by
  generalize hcur : a + i = cursor
  fun_induction skipWhile p src (a + l) cursor generalizing i with
  | case1 cursor hc ih =>
    subst hcur
    obtain ⟨u, h1, h2, h3, h4⟩ := ih (i := i + 1) (by omega) rfl
    refine ⟨u, by omega, h2, h3, ?_⟩
    rw [skipWhile, if_pos ⟨by omega, by rw [← h i (by omega)]; exact hc.2⟩]
    exact h4
  | case2 cursor hc =>
    subst hcur
    refine ⟨i, Nat.le_refl _, hi, rfl, ?_⟩
    rw [skipWhile, if_neg]
    rintro ⟨hlt, hp⟩
    exact hc ⟨by omega, by rw [h i (by omega)]; exact hp⟩

theorem trimEnd_le {start stop : Nat} : trimEnd src start stop ≤ stop := by
  induction stop with
  | zero => exact Nat.le_refl _
  | succ m ih =>
    rw [trimEnd]
    split
    · omega
    · exact Nat.le_refl _

theorem le_trimEnd {start stop : Nat} (h : start ≤ stop) : start ≤ trimEnd src start stop := by
  induction stop with
  | zero => omega
  | succ m ih =>
    rw [trimEnd]
    split
    · rename_i hc
      exact ih hc.1
    · exact h

/-- What was trimmed is white space. -/
theorem trimEnd_blank {start stop : Nat} {i : Nat} (hi : trimEnd src start stop ≤ i) (hs : i < stop) :
    ∃ c, src[i]? = some c ∧ isStyleBlank c = true := by
  induction stop with
  | zero => omega
  | succ m ih =>
    rw [trimEnd] at hi
    split at hi
    · rename_i hc
      by_cases him : i = m
      · subst him
        exact (Option.any_eq_true _ _).1 hc.2
      · exact ih hi (by omega)
    · omega

theorem trimEnd_self (pos : Nat) : trimEnd src pos pos = pos := by
  cases pos with
  | zero => rfl
  | succ m => rw [trimEnd, if_neg fun h => Nat.not_succ_le_self m h.1]

theorem trimEnd_congr {start stop : Nat}
    (h : ∀ k < stop, (src'[k]?).any isStyleBlank = (src[k]?).any isStyleBlank) :
    trimEnd src' start stop = trimEnd src start stop := by
  induction stop with
  | zero => rfl
  | succ m ih => rw [trimEnd, trimEnd, h m (Nat.lt_succ_self m), ih fun k hk => h k (Nat.lt_succ_of_lt hk)]

theorem trimEnd_agree (h : Agree src src' a b n) {s l : Nat} (hs : s ≤ l) (hl : l ≤ n) :
    ∃ u, s ≤ u ∧ u ≤ l ∧ trimEnd src (a + s) (a + l) = a + u ∧
      trimEnd src' (b + s) (b + l) = b + u := by
  induction l with
  | zero =>
    obtain rfl : s = 0 := by omega
    exact ⟨0, Nat.le_refl _, Nat.le_refl _, trimEnd_self _, trimEnd_self _⟩
  | succ m ih =>
    by_cases hsm : s = m + 1
    · subst hsm
      exact ⟨m + 1, Nat.le_refl _, Nat.le_refl _, trimEnd_self _, trimEnd_self _⟩
    · obtain ⟨u, h1, h2, h3, h4⟩ := ih (by omega) (by omega)
      rw [← Nat.add_assoc, ← Nat.add_assoc, trimEnd, trimEnd, ← h m (by omega)]
      by_cases hc : (src[a + m]?).any isStyleBlank = true
      · rw [if_pos ⟨by omega, hc⟩, if_pos ⟨by omega, hc⟩]
        exact ⟨u, h1, by omega, h3, h4⟩
      · rw [if_neg fun hx => hc hx.2, if_neg fun hx => hc hx.2]
        exact ⟨m + 1, by omega, Nat.le_refl _, rfl, rfl⟩

/-! ### Statements without a block -/

theorem findColon?_of_lt {stop : Nat} (h : pos < stop) :
    findColon? src stop pos =
      if opensInterpolation src pos then (interpolationEnd src pos).bind (findColon? src stop)
      else if src[pos]? = some ':' then .ok (some pos)
      else findColon? src stop (pos + 1) := by
  rw [findColon?, dif_pos h]
  split
  · split <;> rename_i heq <;> simp only [heq, Except.bind]
  · rfl

theorem findColon?_bounds {stop pos colon : Nat} (h : findColon? src stop pos = .ok (some colon)) :
    pos ≤ colon ∧ colon < stop ∧ src[colon]? = some ':' := by
  fun_induction findColon? src stop pos with
  | case1 => cases h
  | case2 pos hlt ho next hn hb ih =>
    obtain ⟨h1, h2, h3⟩ := ih h
    exact ⟨by omega, h2, h3⟩
  | case3 pos hlt ho hc =>
    cases h
    exact ⟨Nat.le_refl _, hlt, hc⟩
  | case4 pos hlt ho hc ih =>
    obtain ⟨h1, h2, h3⟩ := ih h
    exact ⟨by omega, h2, h3⟩
  | case5 => cases h

theorem findColon?_agree (h : Agree src src' a b n) {stop stop' i k : Nat} (hk : k < n)
    (hstop : b + k < stop') (hs : findColon? src stop (a + i) = .ok (some (a + k))) :
    findColon? src' stop' (b + i) = .ok (some (b + k)) := by
  generalize hcur : a + i = cursor at hs
  fun_induction findColon? src stop cursor generalizing i with
  | case1 => cases hs
  | case2 cursor hlt ho next hn hb ih =>
    subst hcur
    have := findColon?_bounds hs
    obtain ⟨j, rfl⟩ := Nat.exists_eq_add_of_le (show a ≤ next by omega)
    rw [findColon?_of_lt (by omega), opensInterpolation_agree h (by omega) fun _ => by omega, if_pos ho,
      interpolationEnd_agree h (by omega) hn]
    exact ih rfl hs
  | case3 cursor hlt ho hc =>
    subst hcur
    simp only [Except.ok.injEq, Option.some.injEq] at hs
    obtain rfl : i = k := by omega
    have hcolon : src[a + i]? = some '#' → i + 1 < n := by
      rw [hc]; intro hx; cases hx
    rw [findColon?_of_lt hstop, opensInterpolation_agree h hk hcolon, if_neg ho, ← h i hk, if_pos hc]
  | case4 cursor hlt ho hc ih =>
    subst hcur
    have := findColon?_bounds hs
    rw [findColon?_of_lt (by omega), opensInterpolation_agree h (by omega) fun _ => by omega, if_neg ho,
      ← h i (by omega), if_neg hc]
    exact ih (i := i + 1) rfl hs
  | case5 => cases hs

theorem declaration_agree (h : Agree src src' a b n) {s l stop stop' : Nat} (hl : l ≤ n) {node : Node}
    (hd : declaration src (a + s) (a + l) stop = .ok node) :
    declaration src' (b + s) (b + l) stop' = .ok ((node.relocate a b).cover (b + s) stop') := by
  unfold declaration at hd ⊢
  split at hd
  · cases hd
  · cases hd
  · rename_i colon hc
    have hb := findColon?_bounds hc
    obtain ⟨k, rfl⟩ := Nat.exists_eq_add_of_le (show a ≤ colon by omega)
    rw [findColon?_agree h (by omega) (by omega) hc]
    cases hd
    -- the end of the property and the start of the value
    obtain ⟨u, -, hu, hp, hp'⟩ := trimEnd_agree h (s := s) (l := k) (by omega) (by omega)
    obtain ⟨v, -, hv, hw, hw'⟩ := skipWhile_agree h (p := isStyleBlank) (i := k + 1) (by omega) hl
    rw [← Nat.add_assoc] at hw hw'
    simp only [hp, hp', hw, hw', text_agree h (show u ≤ n by omega), text_agree h hl, nodeOf, Node.cover,
      Node.relocate, Node.relocateList, Span.relocate_between]

/-- The mixin of an include is told by its text. -/
theorem mixinName_agree (h : Agree src src' a b n) {i l : Nat} (hl : l ≤ n) (hi : i ≤ l) :
    mixinName src' (b + i) (b + l) = mixinName src (a + i) (a + l) := by
  unfold mixinName
  obtain ⟨v, -, hv, hw, hw'⟩ := skipWhile_agree h (p := isNameChar) hi hl
  simp only [hw, hw', text_agree h (show v ≤ n by omega), Nat.add_lt_add_iff_left]

theorem atRule_agree (h : Agree src src' a b n) {s l stop stop' : Nat} {block block' : Option Node}
    (hs : s < l) (hl : l ≤ n) (hblock : block'.isSome = block.isSome) {node : Node}
    (hr : atRule src (a + s) (a + l) stop block = .ok node) :
    atRule src' (b + s) (b + l) stop' block' =
      .ok { label := node.label, span := .between (b + s) stop', children := block'.toList } := by
  unfold atRule at hr ⊢
  obtain ⟨u, -, hu, hw, hw'⟩ := skipWhile_agree h (p := isNameChar) (i := s + 1) hs hl
  obtain ⟨v, -, hv, hp, hp'⟩ := skipWhile_agree h (p := isStyleBlank) hu hl
  rw [← Nat.add_assoc] at hw hw'
  have ht := text_agree h (i := s + 1) (show u ≤ n by omega)
  rw [← Nat.add_assoc, ← Nat.add_assoc] at ht
  simp only [hw, hw', hp, hp', ht, text_agree h hl, mixinName_agree h hl hv, hblock] at hr ⊢
  split at hr
  · cases hr
  · rename_i hname
    cases hr
    rw [if_neg hname]; rfl

/-- A declaration tells where its text ends: its value does. -/
theorem declaration_bodyStop {start bodyStop bodyStop' stop stop' : Nat} {node : Node}
    (h : declaration src start bodyStop stop = .ok node)
    (h' : declaration src start bodyStop' stop' = .ok node) : bodyStop = bodyStop' := by
  have hvalue {bodyStop stop : Nat} (h : declaration src start bodyStop stop = .ok node) :
      node.children.getLast?.map (Span.stop ∘ Node.span) = some bodyStop := by
    unfold declaration at h
    split at h
    · cases h
    · cases h
    · rename_i colon hc
      cases h
      have := (findColon?_bounds hc).2.1
      exact congrArg some (Nat.max_eq_right (skipWhile_le (by omega)))
  exact Option.some.inj ((hvalue h).symm.trans (hvalue h'))

theorem skipWhile_succ {p : Char → Bool} {stop cursor : Nat} (hc : (src[stop]?).any p = false)
    (h : cursor ≤ stop) : skipWhile p src (stop + 1) cursor = skipWhile p src stop cursor := by
  fun_induction skipWhile p src stop cursor with
  | case1 cursor hp ih =>
    rw [skipWhile, if_pos ⟨by omega, hp.2⟩]
    exact ih hp.1
  | case2 cursor hp =>
    rw [skipWhile, if_neg]
    rintro ⟨hlt, hany⟩
    by_cases heq : cursor = stop
    · subst heq
      rw [hc] at hany
      cases hany
    · exact hp ⟨by omega, hany⟩

theorem length_text {start stop : Nat} (h : stop ≤ src.size) :
    (Cursor.text src start stop).toList.length = stop - start := by
  rw [Cursor.text, String.toList_ofList, Array.length_toList, Array.size_extract]
  omega

/-- An at-rule without a block tells whether a semicolon belongs to its text. -/
theorem atRule_headStop {start headStop stop stop' : Nat} {node : Node} (hs : start < headStop)
    (hc : src[headStop]? = some ';') (h : atRule src start headStop stop none = .ok node) :
    atRule src start (headStop + 1) stop' none ≠ .ok node := by
  intro h'
  have hlt := (Array.getElem?_eq_some_iff.1 hc).1
  have hname : (src[headStop]?).any isNameChar = false := by rw [hc]; decide
  have hblank : (src[headStop]?).any isStyleBlank = false := by rw [hc]; decide
  have hu : skipWhile isNameChar src headStop (start + 1) ≤ headStop := skipWhile_le hs
  have hv := @skipWhile_le src isStyleBlank _ _ hu
  simp only [atRule, skipWhile_succ hname hs, skipWhile_succ hblank hu] at h h'
  split at h
  · cases h
  · rename_i hne
    rw [if_neg hne] at h'
    cases h
    simp only [Except.ok.injEq, nodeOf, Node.mk.injEq, Label.style.injEq, Form.atRule.injEq] at h'
    have := congrArg (fun s => s.toList.length) h'.1.2.1
    rw [length_text (by omega), length_text (by omega)] at this
    omega

/-! ### Selectors -/

theorem find_congr {target : Char} {stop : Nat} (h : ∀ k < stop, src'[k]? = some target ↔ src[k]? = some target)
    (cursor : Nat) : find src' target stop cursor = find src target stop cursor := by
  fun_induction find src target stop cursor with
  | case1 cursor hlt hc => rw [find, if_pos hlt, if_pos ((h cursor hlt).2 hc)]
  | case2 cursor hlt hc ih => rw [find, if_pos hlt, if_neg (mt (h cursor hlt).1 hc), ih]
  | case3 cursor hlt => rw [find, if_neg hlt]

theorem find_agree_within (h : Agree src src' a b n) (target : Char) {i l : Nat} (hi : i ≤ l)
    (hl : l ≤ n) : ∃ u, i ≤ u ∧ u ≤ l ∧ find src target (a + l) (a + i) = a + u ∧
      find src' target (b + l) (b + i) = b + u := by
  generalize hcur : a + i = cursor
  fun_induction find src target (a + l) cursor generalizing i with
  | case1 cursor hlt hc =>
    subst hcur
    refine ⟨i, Nat.le_refl _, hi, rfl, ?_⟩
    rw [find, if_pos (by omega), if_pos (by rw [← h i (by omega)]; exact hc)]
  | case2 cursor hlt hc ih =>
    subst hcur
    obtain ⟨u, h1, h2, h3, h4⟩ := ih (i := i + 1) (by omega) rfl
    refine ⟨u, by omega, h2, h3, ?_⟩
    rw [find, if_pos (by omega), if_neg (by rw [← h i (by omega)]; exact hc)]
    exact h4
  | case3 cursor hlt =>
    subst hcur
    obtain rfl : i = l := by omega
    refine ⟨i, Nat.le_refl _, Nat.le_refl _, rfl, ?_⟩
    rw [find, if_neg (by omega)]

theorem bracketEnd_agree (h : Agree src src' a b n) {i l : Nat} (hi : i < l) (hl : l ≤ n) :
    ∃ u, i < u ∧ u ≤ l ∧ bracketEnd src (a + l) (a + i) = a + u ∧
      bracketEnd src' (b + l) (b + i) = b + u := by
  obtain ⟨u, h1, h2, h3, h4⟩ := find_agree_within h ']' (Nat.le_of_lt hi) hl
  unfold bracketEnd
  rw [h3, h4]
  by_cases hul : u < l
  · rw [if_pos (by omega), if_pos (by omega)]
    exact ⟨u + 1, by omega, hul, rfl, rfl⟩
  · rw [if_neg (by omega), if_neg (by omega)]
    exact ⟨l, hi, Nat.le_refl _, rfl, rfl⟩

theorem startsName_agree (h : Agree src src' a b n) {i l : Nat} (hl : l ≤ n) :
    startsName src' (b + l) (b + i) = startsName src (a + l) (a + i) := by
  unfold startsName
  by_cases hi : i < l
  · rw [if_pos (by omega), if_pos (by omega), ← h i (by omega)]
    split
    · rfl
    · rename_i c hc
      split
      · rfl
      · by_cases hi' : i + 1 < l
        · have hn := h (i + 1) (by omega)
          rw [← Nat.add_assoc, ← Nat.add_assoc] at hn
          rw [← hn]
          simp only [show b + i + 1 < b + l by omega, show a + i + 1 < a + l by omega]
        · rw [if_neg fun hx => by omega, if_neg fun hx => by omega]
  · rw [if_neg (by omega), if_neg (by omega)]

/-- **A string or an interpolation that is closed in two texts** is closed at the same
place of the stretch on which they agree, or beyond it in both. -/
theorem quotedEnd?_agree_cases (h : Agree src src' a b n) {i : Nat} (hi : i < n)
    (hnext : src[a + i]? = some '#' → i + 1 < n) {r r' : Option Nat} (hr : quotedEnd? src (a + i) = .ok r)
    (hr' : quotedEnd? src' (b + i) = .ok r') :
    (r = none ∧ r' = none) ∨ (∃ k, i < k ∧ k ≤ n ∧ r = some (a + k) ∧ r' = some (b + k)) ∨
      ∃ k k', n < k ∧ n < k' ∧ r = some (a + k) ∧ r' = some (b + k') := by
  cases r with
  | none =>
    rw [quotedEnd?_agree_none h hi hnext hr] at hr'
    cases hr'
    exact .inl ⟨rfl, rfl⟩
  | some next =>
    have hb := quotedEnd?_bounds hr
    obtain ⟨k, rfl⟩ := Nat.exists_eq_add_of_le (show a ≤ next by omega)
    by_cases hk : k ≤ n
    · rw [quotedEnd?_agree h hk hr] at hr'
      cases hr'
      exact .inr (.inl ⟨k, by omega, hk, rfl, rfl⟩)
    · -- closed beyond the stretch in one text, and so in the other
      cases r' with
      | none =>
        have hnext' : src'[b + i]? = some '#' → i + 1 < n := by rw [← h i hi]; exact hnext
        rw [quotedEnd?_agree_none h.symm hi hnext' hr'] at hr
        cases hr
      | some next' =>
        have hb' := quotedEnd?_bounds hr'
        obtain ⟨k', rfl⟩ := Nat.exists_eq_add_of_le (show b ≤ next' by omega)
        by_cases hk' : k' ≤ n
        · rw [quotedEnd?_agree h.symm hk' hr'] at hr
          simp only [Except.ok.injEq, Option.some.injEq] at hr
          omega
        · exact .inr (.inr ⟨k, k', by omega, by omega, rfl, rfl⟩)

theorem simpleSelectors_of_le {stop pos : Nat} (h : stop ≤ pos) : simpleSelectors src stop pos = .ok [] := by
  rw [simpleSelectors, dif_neg (by omega)]

theorem simpleSelectors_of_none {stop pos : Nat} (hc : src[pos]? = none) :
    simpleSelectors src stop pos = .ok [] := by
  have hq : quotedEnd? src pos = .ok none := by rw [quotedEnd?, hc]
  rw [simpleSelectors]
  split
  · split <;> rename_i heq <;> rw [hq] at heq <;> cases heq
    rw [hc]
  · rfl

theorem simpleSelectors_of_char {pos stop : Nat} {c : Char} (h : pos < stop) (hc : src[pos]? = some c) :
    simpleSelectors src stop pos =
      (quotedEnd? src pos).bind fun
        | some next => simpleSelectors src stop next
        | none =>
          if c = '[' then simpleSelectors src stop (bracketEnd src stop pos)
          else if (c = '#' ∨ c = '.') ∧ startsName src stop (pos + 1) then
            (simpleSelectors src stop (skipWhile isNameChar src stop (pos + 1))).map
              (simpleSelector src c pos (skipWhile isNameChar src stop (pos + 1)) :: ·)
          else simpleSelectors src stop (pos + 1) := by
  rw [simpleSelectors, dif_pos h]
  split <;> rename_i heq <;> simp only [heq, hc, Except.bind]
  split
  · rfl
  · split
    · split <;> rename_i he <;> simp only [he, Except.map]
    · rfl

theorem simpleSelector_agree (h : Agree src src' a b n) {mark : Char} {i u : Nat} (hu : u < n)
    (hnext : src[a + u]? = some '#' → u + 1 < n) :
    simpleSelector src' mark (b + i) (b + u) = (simpleSelector src mark (a + i) (a + u)).relocate a b := by
  have ht := text_agree h (i := i + 1) (Nat.le_of_lt hu)
  rw [← Nat.add_assoc, ← Nat.add_assoc] at ht
  simp only [simpleSelector, nodeOf, ht, opensInterpolation_agree h hu hnext, Node.relocate,
    Node.relocateList, Span.relocate_between]

/-- The ids and classes of a selector that is read in two texts are the same. -/
theorem simpleSelectors_agree (h : Agree src src' a b n) {l : Nat} (hl : l < n)
    (hsize : a + l ≤ src.size) (hlast : src[a + l]? ≠ some '#') {i : Nat} {parts parts' : List Node}
    (hs : simpleSelectors src (a + l) (a + i) = .ok parts)
    (hs' : simpleSelectors src' (b + l) (b + i) = .ok parts') :
    parts' = Node.relocateList a b parts := by
  have hnext {j : Nat} (hj : j ≤ l) : src[a + j]? = some '#' → j + 1 < n := by
    intro hc
    rcases Nat.lt_or_eq_of_le hj with hlt | rfl
    · omega
    · exact absurd hc hlast
  generalize hcur : a + i = cursor at hs
  fun_induction simpleSelectors src (a + l) cursor generalizing i parts parts' with
  | case1 => cases hs
  | case2 cursor hlt next hq hb ih =>
    subst hcur
    rw [simpleSelectors_of_char (by omega) (h.char (by omega) (by omega))] at hs'
    cases hq' : quotedEnd? src' (b + i) with
    | error e => rw [hq'] at hs'; cases hs'
    | ok r' =>
      rw [hq'] at hs'
      obtain ⟨h1, -⟩ | ⟨k, hik, hk, h1, rfl⟩ | ⟨k, k', hk, hk', h1, rfl⟩ :=
        quotedEnd?_agree_cases h (by omega) (hnext (by omega)) hq hq'
      · cases h1
      · simp only [Option.some.injEq] at h1
        subst h1
        exact ih hs' rfl hs
      · -- the selector ends before the string does
        simp only [Option.some.injEq] at h1
        subst h1
        change simpleSelectors src' (b + l) (b + k') = .ok parts' at hs'
        rw [simpleSelectors_of_le (by omega)] at hs hs'
        cases hs; cases hs'; rfl
  | case3 cursor hlt hq hc =>
    have := Array.getElem?_eq_none_iff.1 hc
    omega
  | case4 cursor hlt hq hb hc ih =>
    subst hcur
    obtain ⟨u, -, hu, h1, h2⟩ := bracketEnd_agree h (show i < l by omega) (Nat.le_of_lt hl)
    rw [simpleSelectors_of_char (by omega) (by rw [← h i (by omega)]; exact hc),
      quotedEnd?_agree_none h (by omega) (hnext (by omega)) hq] at hs'
    simp only [Except.bind, if_true, h2] at hs'
    rw [h1] at hs ih
    exact ih hs' rfl hs
  | case5 => cases hs
  | case6 cursor hlt hq c hc hne hm nameEnd hle rest hrest =>
    rename_i ih
    subst hcur
    obtain ⟨u, hu', hu, h1, h2⟩ :=
      skipWhile_agree h (p := isNameChar) (show i + 1 ≤ l by omega) (Nat.le_of_lt hl)
    rw [← Nat.add_assoc] at h1 h2
    have hname := startsName_agree h (i := i + 1) (Nat.le_of_lt hl)
    rw [← Nat.add_assoc, ← Nat.add_assoc] at hname
    rw [simpleSelectors_of_char (by omega) (by rw [← h i (by omega)]; exact hc),
      quotedEnd?_agree_none h (by omega) (hnext (by omega)) hq] at hs'
    simp only [Except.bind, if_neg hne, hname, if_pos hm, h2] at hs'
    cases hrest' : simpleSelectors src' (b + l) (b + u) with
    | error e => rw [hrest'] at hs'; cases hs'
    | ok rest' =>
      rw [hrest'] at hs'
      cases hs; cases hs'
      have hnode : simpleSelector src' c (b + i) (b + u) = _ :=
        simpleSelector_agree h (Nat.lt_of_le_of_lt hu hl) (hnext hu)
      have hrec := ih hrest' h1.symm hrest
      rw [hnode, hrec, Node.relocateList, ← h1]
  | case7 cursor hlt hq c hc hne hm ih =>
    subst hcur
    have hname := startsName_agree h (i := i + 1) (Nat.le_of_lt hl)
    rw [← Nat.add_assoc, ← Nat.add_assoc] at hname
    rw [simpleSelectors_of_char (by omega) (by rw [← h i (by omega)]; exact hc),
      quotedEnd?_agree_none h (by omega) (hnext (by omega)) hq] at hs'
    simp only [Except.bind, if_neg hne, hname, if_neg hm] at hs'
    exact ih (i := i + 1) hs' rfl hs
  | case8 cursor hlt =>
    subst hcur
    rw [simpleSelectors_of_le (by omega)] at hs'
    cases hs; cases hs'; rfl

theorem selectorBetween_agree (h : Agree src src' a b n) {g l : Nat} (hg : g ≤ l) (hl : l < n)
    (hsize : a + l ≤ src.size) (hlast : src[a + l]? ≠ some '#') {found found' : List Node}
    (hs : selectorBetween src (a + g) (a + l) = .ok found)
    (hs' : selectorBetween src' (b + g) (b + l) = .ok found') :
    found' = Node.relocateList a b found := by
  obtain ⟨u, -, hu, h1, h2⟩ := skipWhile_agree h (p := isStyleBlank) hg (Nat.le_of_lt hl)
  obtain ⟨v, huv, hv, h3, h4⟩ := trimEnd_agree h hu (Nat.le_of_lt hl)
  unfold selectorBetween at hs hs'
  simp only [h1, h3] at hs
  simp only [h2, h4] at hs'
  by_cases heq : u = v
  · subst heq
    rw [if_pos rfl] at hs hs'
    cases hs; cases hs'; rfl
  rw [if_neg (by omega)] at hs hs'
  have hlast' : src[a + v]? ≠ some '#' := by
    rcases Nat.lt_or_eq_of_le hv with hlt | rfl
    · obtain ⟨c, hc, hblank⟩ := trimEnd_blank (show trimEnd src (a + u) (a + l) ≤ a + v by omega)
        (show a + v < a + l by omega)
      rw [hc]
      intro hx
      cases hx
      exact absurd hblank (by decide)
    · exact hlast
  cases hp : simpleSelectors src (a + v) (a + u) with
  | error e => rw [hp] at hs; cases hs
  | ok parts =>
    cases hp' : simpleSelectors src' (b + v) (b + u) with
    | error e => rw [hp'] at hs'; cases hs'
    | ok parts' =>
      rw [hp] at hs
      rw [hp'] at hs'
      cases hs; cases hs'
      rw [simpleSelectors_agree h (by omega) (by omega) hlast' hp hp']
      simp only [nodeOf, text_agree h (show v ≤ n by omega), Node.relocate, Node.relocateList,
        Span.relocate_between]

theorem selectorsFrom_of_char {pos stop segment depth : Nat} {c : Char} (h : pos < stop)
    (hc : src[pos]? = some c) :
    selectorsFrom src stop segment depth pos =
      (quotedEnd? src pos).bind fun
        | some next => selectorsFrom src stop segment depth next
        | none =>
          if opensGroup c then selectorsFrom src stop segment (depth + 1) (pos + 1)
          else if closesGroup c then selectorsFrom src stop segment (depth - 1) (pos + 1)
          else if c = ',' ∧ depth = 0 then
            (selectorBetween src segment pos).bind fun here =>
              (selectorsFrom src stop (pos + 1) 0 (pos + 1)).map (here ++ ·)
          else selectorsFrom src stop segment depth (pos + 1) := by
  rw [selectorsFrom, dif_pos h]
  split <;> rename_i heq <;> simp only [heq, hc, Except.bind]
  split
  · rfl
  · split
    · rfl
    · split
      · split <;> rename_i he <;> simp only [he]
        split <;> rename_i he' <;> simp only [he', Except.map]
      · rfl

theorem selectorsFrom_of_none {stop segment depth pos : Nat} (hlt : pos < stop) (hc : src[pos]? = none) :
    selectorsFrom src stop segment depth pos = .ok [] := by
  have hq : quotedEnd? src pos = .ok none := by rw [quotedEnd?, hc]
  rw [selectorsFrom, dif_pos hlt]
  split <;> rename_i heq <;> rw [hq] at heq <;> cases heq
  rw [hc]

theorem selectorsFrom_of_le {stop pos segment depth : Nat} (h : stop ≤ pos) :
    selectorsFrom src stop segment depth pos = selectorBetween src segment stop := by
  rw [selectorsFrom, dif_neg (by omega)]

theorem selectorsFrom_agree (h : Agree src src' a b n) {l : Nat} (hl : l < n) (hsize : a + l ≤ src.size)
    (hlast : src[a + l]? ≠ some '#') {g depth i : Nat} (hg : g ≤ l) (hgi : g ≤ i)
    {found found' : List Node} (hs : selectorsFrom src (a + l) (a + g) depth (a + i) = .ok found)
    (hs' : selectorsFrom src' (b + l) (b + g) depth (b + i) = .ok found') :
    found' = Node.relocateList a b found := by
  have hnext {j : Nat} (hj : j ≤ l) : src[a + j]? = some '#' → j + 1 < n := by
    intro hc
    rcases Nat.lt_or_eq_of_le hj with hlt | rfl
    · omega
    · exact absurd hc hlast
  -- a character outside of strings and interpolations
  have hplain {g depth i : Nat} {c : Char} (hi : i < l) (hq : quotedEnd? src (a + i) = .ok none)
      (hc : src[a + i]? = some c) : selectorsFrom src' (b + l) (b + g) depth (b + i) =
        if opensGroup c then selectorsFrom src' (b + l) (b + g) (depth + 1) (b + (i + 1))
        else if closesGroup c then selectorsFrom src' (b + l) (b + g) (depth - 1) (b + (i + 1))
        else if c = ',' ∧ depth = 0 then
          (selectorBetween src' (b + g) (b + i)).bind fun here =>
            (selectorsFrom src' (b + l) (b + (i + 1)) 0 (b + (i + 1))).map (here ++ ·)
        else selectorsFrom src' (b + l) (b + g) depth (b + (i + 1)) := by
    rw [selectorsFrom_of_char (by omega) (by rw [← h i (by omega)]; exact hc),
      quotedEnd?_agree_none h (by omega) (hnext (by omega)) hq]
    rfl
  generalize hseg : a + g = segment at hs
  generalize hcur : a + i = cursor at hs
  fun_induction selectorsFrom src (a + l) segment depth cursor generalizing g i found found' with
  | case1 => cases hs
  | case2 segment depth cursor hlt next hq hb ih =>
    subst hcur hseg
    rw [selectorsFrom_of_char (by omega) (h.char (by omega) (by omega))] at hs'
    cases hq' : quotedEnd? src' (b + i) with
    | error e => rw [hq'] at hs'; cases hs'
    | ok r' =>
      rw [hq'] at hs'
      obtain ⟨h1, -⟩ | ⟨k, hik, hk, h1, rfl⟩ | ⟨k, k', hk, hk', h1, rfl⟩ :=
        quotedEnd?_agree_cases h (by omega) (hnext (by omega)) hq hq'
      · cases h1
      · simp only [Option.some.injEq] at h1
        subst h1
        exact ih hg (by omega) hs' rfl rfl hs
      · -- the head ends before the string does
        simp only [Option.some.injEq] at h1
        subst h1
        change selectorsFrom src' (b + l) (b + g) depth (b + k') = .ok found' at hs'
        rw [selectorsFrom_of_le (by omega)] at hs hs'
        exact selectorBetween_agree h hg hl hsize hlast hs hs'
  | case3 segment depth cursor hlt hq hc =>
    have := Array.getElem?_eq_none_iff.1 hc
    omega
  | case4 segment depth cursor hlt hq c hc ho ih =>
    subst hcur hseg
    rw [hplain (by omega) hq hc, if_pos ho] at hs'
    exact ih hg (by omega) hs' rfl rfl hs
  | case5 segment depth cursor hlt hq c hc ho hcl ih =>
    subst hcur hseg
    rw [hplain (by omega) hq hc, if_neg ho, if_pos hcl] at hs'
    exact ih hg (by omega) hs' rfl rfl hs
  | case6 => cases hs
  | case7 => cases hs
  | case8 segment depth cursor hlt hq c hc ho hcl hcomma here hhere rest hrest ih =>
    subst hcur hseg
    rw [hplain (by omega) hq hc, if_neg ho, if_neg hcl, if_pos hcomma] at hs'
    cases hhere' : selectorBetween src' (b + g) (b + i) with
    | error e => rw [hhere'] at hs'; cases hs'
    | ok here' =>
      cases hrest' : selectorsFrom src' (b + l) (b + (i + 1)) 0 (b + (i + 1)) with
      | error e => rw [hhere', hrest'] at hs'; cases hs'
      | ok rest' =>
        rw [hhere', hrest'] at hs'
        cases hs; cases hs'
        have hc' : src[a + i]? ≠ some '#' := by rw [hc, hcomma.1]; decide
        rw [selectorBetween_agree h hgi (by omega) (by omega) hc' hhere hhere',
          ih (by omega) (Nat.le_refl _) hrest' rfl rfl hrest, Node.relocateList_append]
  | case9 segment depth cursor hlt hq c hc ho hcl hcomma ih =>
    subst hcur hseg
    rw [hplain (by omega) hq hc, if_neg ho, if_neg hcl, if_neg hcomma] at hs'
    exact ih hg (by omega) hs' rfl rfl hs
  | case10 segment depth cursor hlt =>
    subst hcur hseg
    rw [selectorsFrom_of_le (by omega)] at hs'
    exact selectorBetween_agree h hg hl hsize hlast hs hs'

/-- **The selectors of a head that are read in two texts are the same.** -/
theorem selectorList_agree (h : Agree src src' a b n) {s l : Nat} (hs : s ≤ l) (hl : l < n)
    (hsize : a + l ≤ src.size) (hlast : src[a + l]? ≠ some '#') {node node' : Node}
    (hr : selectorList src (a + s) (a + l) = .ok node)
    (hr' : selectorList src' (b + s) (b + l) = .ok node') : node' = node.relocate a b := by
  unfold selectorList at hr hr'
  cases hf : selectorsFrom src (a + l) (a + s) 0 (a + s) with
  | error e => rw [hf] at hr; cases hr
  | ok found =>
    cases hf' : selectorsFrom src' (b + l) (b + s) 0 (b + s) with
    | error e => rw [hf'] at hr'; cases hr'
    | ok found' =>
      rw [hf] at hr
      rw [hf'] at hr'
      cases hr; cases hr'
      rw [selectorsFrom_agree h hl hsize hlast hs (Nat.le_refl s) hf hf']
      simp only [nodeOf, Node.relocate, Span.relocate_between]

end HouseStyle.Stylesheet
