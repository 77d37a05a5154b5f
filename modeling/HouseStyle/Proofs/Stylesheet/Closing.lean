import HouseStyle.Proofs.Stylesheet.Reading
import HouseStyle.Proofs.Text.Weight

/-!
# A semicolon for the last statement of a block

Without line comments, a statement that ends with its block ends at a semicolon as well, if
one is put right after its last character.

* `opaqueEnd?_last`: strings, comments and interpolations end with a character that counts.
* `scanFrom_semicolon`: the statement ends at the semicolon.
* `last_ne_semicolon`: it does not end with one by itself.
-/

namespace HouseStyle.Stylesheet

variable {d : Dialect} {src src' : Array Char} {a b n : Nat}

/-! ### How strings, comments and interpolations begin and end -/

/-- A string, a comment or an interpolation begins with one of four characters. -/
theorem opaqueEnd?_of_plain {depth pos : Nat} {c : Char} (hc : src[pos]? = some c) (hq : isQuote c = false)
    (hhash : c ≠ '#') (hslash : c ≠ '/') : opaqueEnd? d src depth pos = .ok none := by
  have hquoted : quotedEnd? src pos = .ok none := by
    have ho : opensInterpolation src pos = false := by
      rw [opensInterpolation, hc, Bool.and_eq_false_iff]
      exact .inl (beq_eq_false_iff_ne.2 fun h => hhash (Option.some.inj h))
    simp only [quotedEnd?, hc, hq, ho, Bool.false_eq_true, if_false]
  have hcomment : commentEnd? (d == .scss && depth == 0) src pos = .ok none := by
    rw [commentEnd?, if_neg]
    rw [hc]
    exact fun h => hslash (Option.some.inj h)
  rw [opaqueEnd?, hquoted]
  exact hcomment

theorem opaqueEnd?_of_blank {depth pos : Nat} {c : Char} (hc : src[pos]? = some c)
    (hb : isStyleBlank c = true) : opaqueEnd? d src depth pos = .ok none := by
  have hplain : isQuote c = false ∧ c ≠ '#' ∧ c ≠ '/' := by
    simp only [isStyleBlank, Bool.or_eq_true, beq_iff_eq] at hb
    rcases hb with (((rfl | rfl) | rfl) | rfl) | rfl <;> decide
  exact opaqueEnd?_of_plain hc hplain.1 hplain.2.1 hplain.2.2

theorem closingQuote?_last {quote : Char} {cursor stop : Nat} (h : closingQuote? src quote cursor = some stop) :
    src[stop - 1]? = some quote := by
  fun_induction closingQuote? src quote cursor with
  | case1 _ _ _ ih => exact ih h
  | case2 cursor hlt _ hq =>
    cases h
    rw [Nat.add_sub_cancel, Array.getElem?_eq_getElem hlt, hq]
  | case3 => cases h
  | case4 _ _ _ _ _ ih => exact ih h
  | case5 => cases h

theorem closingBrace_last {pos depth cursor stop : Nat} (h : closingBrace src pos depth cursor = .ok stop) :
    src[stop - 1]? = some '}' := by
  fun_induction closingBrace src pos depth cursor with
  | case1 => cases h
  | case2 _ _ _ _ _ _ _ ih => exact ih h
  | case3 _ _ _ _ _ ih => exact ih h
  | case4 cursor hlt _ _ hb =>
    cases h
    rw [Nat.add_sub_cancel, Array.getElem?_eq_getElem hlt, hb]
  | case5 _ _ _ _ _ _ _ ih => exact ih h
  | case6 _ _ _ _ _ _ ih => exact ih h
  | case7 => cases h

theorem closingComment?_last {cursor stop : Nat} (h : closingComment? src cursor = some stop) :
    src[stop - 1]? = some '/' := by
  fun_induction closingComment? src cursor with
  | case1 cursor hlt hc =>
    cases h
    rw [show cursor + 2 - 1 = cursor + 1 by omega, Array.getElem?_eq_getElem hlt, hc.2]
  | case2 _ _ _ ih => exact ih h
  | case3 => cases h

theorem isSolid_of_isQuote {c : Char} (h : isQuote c = true) : isSolid c = true := by
  simp only [isQuote, Bool.or_eq_true, beq_iff_eq] at h
  rcases h with rfl | rfl <;> decide

/-- The comments of plain CSS. -/
theorem commentEnd?_css (src : Array Char) (pos : Nat) : commentEnd? false src pos =
    if src[pos]? = some '/' ∧ src[pos + 1]? = some '*' then (commentEnd src pos).map some else .ok none := by
  unfold commentEnd?
  by_cases hslash : src[pos]? = some '/'
  · by_cases hstar : src[pos + 1]? = some '*'
    · rw [if_pos hslash, if_pos hstar, if_pos ⟨hslash, hstar⟩]
    · rw [if_pos hslash, if_neg hstar, if_neg fun h => Bool.false_ne_true h.2, if_neg fun h => hstar h.2]
  · rw [if_neg hslash, if_neg fun h => hslash h.1]

theorem opaqueEnd?_css (src : Array Char) (depth pos : Nat) : opaqueEnd? .css src depth pos =
    (quotedEnd? src pos).bind fun
      | some stop => .ok (some stop)
      | none => commentEnd? false src pos :=
  opaqueEnd?_eq_bind src depth pos

/-- **Strings, comments and interpolations end with a character that counts.** -/
theorem opaqueEnd?_last {depth pos stop : Nat} (h : opaqueEnd? .css src depth pos = .ok (some stop)) :
    ∃ c, src[stop - 1]? = some c ∧ isSolid c = true := by
  rw [opaqueEnd?_css] at h
  obtain ⟨stop?, hq, h⟩ := bind_ok h
  cases stop? with
  | some next =>
    cases h
    unfold quotedEnd? at hq
    split at hq
    · cases hq
    rename_i c _
    split at hq
    · rename_i hquote
      have hend := of_map_some hq
      unfold stringEnd at hend
      split at hend
      · rename_i hclose
        cases hend
        exact ⟨c, closingQuote?_last hclose, isSolid_of_isQuote hquote⟩
      · cases hend
    · split at hq
      · exact ⟨'}', closingBrace_last (of_map_some hq), by decide⟩
      · cases hq
  | none =>
    simp only [commentEnd?_css] at h
    split at h
    · have hend := of_map_some h
      unfold commentEnd at hend
      split at hend
      · rename_i hclose
        cases hend
        exact ⟨'/', closingComment?_last hclose, by decide⟩
      · cases hend
    · cases h

/-- They end alike where they are repeated whole. -/
theorem opaqueEnd?_repeat (h : Agree src src' a b n) {depth i j : Nat} (hj : j ≤ n)
    (hs : opaqueEnd? .css src depth (a + i) = .ok (some (a + j))) :
    opaqueEnd? .css src' depth (b + i) = .ok (some (b + j)) := by
  have hbd := opaqueEnd?_bounds hs
  rw [opaqueEnd?_css] at hs ⊢
  obtain ⟨stop?, hq, hs⟩ := bind_ok hs
  cases stop? with
  | some next =>
    cases hs
    rw [quotedEnd?_agree h hj hq]
    rfl
  | none =>
    simp only [commentEnd?_css] at hs
    split at hs
    · rename_i hopen
      have hend := of_map_some hs
      have hlt : a + i + 1 < a + j := by
        refine @commentEnd?_lt src false _ _ ?_
        rw [commentEnd?_css, if_pos hopen, hend]
        rfl
      rw [quotedEnd?_agree_none h (by omega) (fun _ => by omega) hq]
      have h0 := h i (by omega)
      have h1 := h (i + 1) (by omega)
      rw [← Nat.add_assoc, ← Nat.add_assoc] at h1
      rw [h0, h1] at hopen
      simp only [Except.bind, commentEnd?_css]
      rw [if_pos hopen, commentEnd_agree h hj hend]
      rfl
    · cases hs

/-- Where none begins in one text, none begins in another that goes on alike or with a semicolon. -/
theorem opaqueEnd?_before {depth pos pos' : Nat} (hc : src'[pos']? = src[pos]?)
    (hnext : src'[pos' + 1]? = src[pos + 1]? ∨ src'[pos' + 1]? = some ';')
    (hs : opaqueEnd? .css src depth pos = .ok none) : opaqueEnd? .css src' depth pos' = .ok none := by
  rw [opaqueEnd?_css] at hs ⊢
  obtain ⟨stop?, hq, hs⟩ := bind_ok hs
  cases stop? with
  | some next => cases hs
  | none =>
    have hq' : quotedEnd? src' pos' = .ok none := by
      unfold quotedEnd? at hq ⊢
      rw [hc]
      split at hq
      · rfl
      · split at hq
        · exact absurd hq (map_some_ne_none _)
        · rename_i hquote
          split at hq
          · exact absurd hq (map_some_ne_none _)
          · rename_i ho
            rw [if_neg hquote, if_neg]
            intro ho'
            simp only [opensInterpolation, hc, Bool.and_eq_true, beq_iff_eq] at ho ho'
            rcases hnext with hnext | hnext
            · exact ho ⟨ho'.1, hnext ▸ ho'.2⟩
            · rw [hnext] at ho'
              exact absurd ho'.2 (by decide)
    rw [hq']
    simp only [Except.bind, commentEnd?_css] at hs ⊢
    split at hs
    · exact absurd hs (map_some_ne_none _)
    · rename_i hopen
      rw [if_neg]
      rintro ⟨hslash, hstar⟩
      rcases hnext with hnext | hnext
      · exact hopen ⟨hc ▸ hslash, hnext ▸ hstar⟩
      · rw [hnext] at hstar
        exact absurd hstar (by decide)

/-! ### The last statement of a block -/

theorem not_group_of_blank {c : Char} (h : isStyleBlank c = true) :
    opensGroup c = false ∧ closesGroup c = false := by
  simp only [isStyleBlank, Bool.or_eq_true, beq_iff_eq] at h
  rcases h with (((rfl | rfl) | rfl) | rfl) | rfl <;> decide

/-- White space leads to the end of a head only where no parentheses or brackets are open. -/
theorem depth_of_blanks {depth pos stop : Nat} {c : Char} (h : scanFrom d src depth pos = .ok (stop, some c))
    (hblank : ∀ i, pos ≤ i → i < stop → ∃ x, src[i]? = some x ∧ isStyleBlank x = true) : depth = 0 := by
  -- what is passed over is white space
  have hchar {pos next : Nat} (hlt : pos < src.size) (hnext : pos < next) (hle : next ≤ stop)
      (hblank : ∀ i, pos ≤ i → i < stop → ∃ x, src[i]? = some x ∧ isStyleBlank x = true) :
      isStyleBlank src[pos] = true := by
    obtain ⟨x, hx, hb⟩ := hblank pos (Nat.le_refl _) (by omega)
    rw [Array.getElem?_eq_getElem hlt] at hx
    cases hx
    exact hb
  fun_induction scanFrom d src depth pos with
  | case1 => cases h
  | case2 depth pos hlt next hn hb ih =>
    have := hchar hlt hb.1 (scanFrom_bounds hb.2 h).1 hblank
    rw [opaqueEnd?_of_blank (Array.getElem?_eq_getElem hlt) this] at hn
    cases hn
  | case3 depth pos hlt hn hg ih =>
    have := hchar hlt (Nat.lt_succ_self _) (scanFrom_bounds hlt h).1 hblank
    rw [(not_group_of_blank this).1] at hg
    cases hg
  | case4 depth pos hlt hn hg hg' ih =>
    have := hchar hlt (Nat.lt_succ_self _) (scanFrom_bounds hlt h).1 hblank
    rw [(not_group_of_blank this).2] at hg'
    cases hg'
  | case5 depth pos hlt hn hg hg' hend => exact hend.1
  | case6 depth pos hlt hn hg hg' hend ih => exact ih h fun i hi => hblank i (by omega)
  | case7 => cases h

section

variable {stop : Nat} {c : Char}
  (hblank : ∀ i, a + n ≤ i → i < stop → ∃ x, src[i]? = some x ∧ isStyleBlank x = true)

include hblank

/-- What is passed over in the statement ends in it, before the white space after it. -/
theorem opaqueEnd?_within {depth pos next : Nat} (hn : opaqueEnd? .css src depth pos = .ok (some next))
    (hnext : next ≤ stop) : next ≤ a + n := by
  obtain ⟨x, hx, hsolid⟩ := opaqueEnd?_last hn
  have hlt := opaqueEnd?_bounds hn
  by_contra hbeyond
  obtain ⟨y, hy, hb⟩ := hblank (next - 1) (by omega) (by omega)
  rw [hx] at hy
  cases hy
  rw [isSolid_of_blank hb] at hsolid
  cases hsolid

/-- **A statement that ends with its block ends at a semicolon put after it.** By induction on
the scan, up to the end of the statement. -/
theorem scanFrom_semicolon (h : Agree src src' a b n) (hsemi : src'[b + n]? = some ';') {depth i : Nat}
    (hi : i < n) (hs : scanFrom .css src depth (a + i) = .ok (stop, some c)) (hstop : a + n ≤ stop) :
    scanFrom .css src' depth (b + i) = .ok (b + n, some ';') := by
  -- at the end of the statement nothing is open
  have hnext {depth k : Nat} (hk : k ≤ n) (hs : scanFrom .css src depth (a + k) = .ok (stop, some c))
      (ih : k < n → scanFrom .css src' depth (b + k) = .ok (b + n, some ';')) :
      scanFrom .css src' depth (b + k) = .ok (b + n, some ';') := by
    rcases Nat.lt_or_eq_of_le hk with hk | rfl
    · exact ih hk
    · obtain rfl := depth_of_blanks hs hblank
      rw [scanFrom_of_char hsemi, opaqueEnd?_of_plain hsemi (by decide) (by decide) (by decide)]
      rfl
  have hplain {i : Nat} (hi : i < n) {depth : Nat} (hn : opaqueEnd? .css src depth (a + i) = .ok none) :
      opaqueEnd? .css src' depth (b + i) = .ok none := by
    refine opaqueEnd?_before (h i hi).symm ?_ hn
    rcases Nat.lt_or_eq_of_le (Nat.succ_le_of_lt hi) with hlt | rfl
    · exact .inl (h (i + 1) hlt).symm
    · exact .inr hsemi
  generalize hcur : a + i = cursor at hs
  fun_induction scanFrom .css src depth cursor generalizing i with
  | case1 => cases hs
  | case2 depth cursor hlt next hn hb ih =>
    subst hcur
    have hle := opaqueEnd?_within hblank hn (scanFrom_bounds hb.2 hs).1
    obtain ⟨k, rfl⟩ := Nat.exists_eq_add_of_le (show a ≤ next by omega)
    rw [scanFrom_of_char (h.char hi hlt), opaqueEnd?_repeat h (by omega) hn]
    exact hnext (by omega) hs fun hk => ih hk rfl hs
  | case3 depth cursor hlt hn hg ih =>
    subst hcur
    rw [scanFrom_of_char (h.char hi hlt), hplain hi hn]
    simp only [Except.bind, if_pos hg]
    exact hnext (k := i + 1) hi hs fun hk => ih hk rfl hs
  | case4 depth cursor hlt hn hg hg' ih =>
    subst hcur
    rw [scanFrom_of_char (h.char hi hlt), hplain hi hn]
    simp only [Except.bind, if_neg hg, if_pos hg']
    exact hnext (k := i + 1) hi hs fun hk => ih hk rfl hs
  | case5 depth cursor hlt hn hg hg' hend =>
    simp only [Except.ok.injEq, Prod.mk.injEq] at hs
    omega
  | case6 depth cursor hlt hn hg hg' hend ih =>
    subst hcur
    rw [scanFrom_of_char (h.char hi hlt), hplain hi hn]
    simp only [Except.bind, if_neg hg, if_neg hg', if_neg hend]
    exact hnext (k := i + 1) hi hs fun hk => ih hk rfl hs
  | case7 => cases hs

/-- Such a statement does not end with a semicolon by itself: it would have ended there. -/
theorem last_ne_semicolon {depth i : Nat} (hi : i < n)
    (hs : scanFrom .css src depth (a + i) = .ok (stop, some c)) (hstop : a + n ≤ stop) :
    src[a + (n - 1)]? ≠ some ';' := by
  -- the last character, when nothing is open after it
  have hlast {i depth : Nat} (hi : i < n) (hlt : a + i < src.size)
      (hs : scanFrom .css src depth (a + i + 1) = .ok (stop, some c)) (hne : depth = 0 → src[a + i] ≠ ';')
      (ih : i + 1 < n → src[a + (n - 1)]? ≠ some ';') : src[a + (n - 1)]? ≠ some ';' := by
    rcases Nat.lt_or_eq_of_le (Nat.succ_le_of_lt hi) with hlt' | rfl
    · exact ih hlt'
    · rw [Nat.succ_sub_one, Array.getElem?_eq_getElem hlt]
      exact fun heq => hne (depth_of_blanks hs hblank) (Option.some.inj heq)
  generalize hcur : a + i = cursor at hs
  fun_induction scanFrom .css src depth cursor generalizing i with
  | case1 => cases hs
  | case2 depth cursor hlt next hn hb ih =>
    subst hcur
    have hle := opaqueEnd?_within hblank hn (scanFrom_bounds hb.2 hs).1
    obtain ⟨k, rfl⟩ := Nat.exists_eq_add_of_le (show a ≤ next by omega)
    rcases Nat.lt_or_eq_of_le (Nat.le_of_add_le_add_left hle) with hk | rfl
    · exact ih hk rfl hs
    · obtain ⟨x, hx, hsolid⟩ := opaqueEnd?_last hn
      rw [show a + (k - 1) = a + k - 1 by omega, hx]
      rintro ⟨⟩
      exact absurd hsolid (by decide)
  | case3 depth cursor hlt hn hg ih =>
    subst hcur
    refine hlast hi hlt hs (fun _ heq => ?_) fun hk => ih hk rfl hs
    rw [heq] at hg
    cases hg
  | case4 depth cursor hlt hn hg hg' ih =>
    subst hcur
    refine hlast hi hlt hs (fun _ heq => ?_) fun hk => ih hk rfl hs
    rw [heq] at hg'
    cases hg'
  | case5 depth cursor hlt hn hg hg' hend =>
    simp only [Except.ok.injEq, Prod.mk.injEq] at hs
    omega
  | case6 depth cursor hlt hn hg hg' hend ih =>
    subst hcur
    refine hlast hi hlt hs (fun hzero heq => hend ⟨hzero, ?_⟩) fun hk => ih hk rfl hs
    rw [heq]
    rfl
  | case7 => cases hs

end

end HouseStyle.Stylesheet
