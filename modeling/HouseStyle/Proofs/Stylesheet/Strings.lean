import HouseStyle.Proofs.Stylesheet.Closing
import HouseStyle.Proofs.Text.Lines

/-!
# The strings of a statement

The scanning of a statement's head passes over quoted strings from left to right, also over those
inside of interpolations.

* `stringsFrom`: the strings that are passed over.
* `Strung`: strings that stand one after the other.
* `stringsFrom_strung`: the strings that are passed over do.
* `even_count_before`, `odd_count_inside`: where quotes only begin and end strings, an even number of
  each kind stands before a string, and an odd number of one kind before a place inside of it.
-/

namespace HouseStyle.Stylesheet

variable {d : Dialect} {src : Array Char} {t : Source}

/-- The strings on the way to the brace that closes an interpolation, when `depth` braces are open at
`cursor`. -/
def stringsInside (src : Array Char) (depth cursor : Nat) : List Span :=
  if _h : cursor < src.size then
    if isQuote src[cursor] then
      match hs : stringEnd src src[cursor] cursor with
      | .error _ => []
      | .ok next =>
        have := stringEnd_bounds hs
        .between cursor next :: stringsInside src depth next
    else if src[cursor] = '{' then stringsInside src (depth + 1) (cursor + 1)
    else if src[cursor] = '}' then
      if depth = 1 then [] else stringsInside src (depth - 1) (cursor + 1)
    else stringsInside src depth (cursor + 1)
  else []
termination_by src.size - cursor

/-- The strings in what stands between two places and is passed over as a whole. -/
def stringsOf (src : Array Char) (pos next : Nat) : List Span :=
  if src[pos]?.any isQuote then [.between pos next]
  else if opensInterpolation src pos then stringsInside src 0 (pos + 1)
  else []

/-- The strings that the scanning of a statement's head passes over from `pos` on, inside `depth` open
parentheses and brackets. -/
def stringsFrom (d : Dialect) (src : Array Char) (depth pos : Nat) : List Span :=
  if _h : pos < src.size then
    match hq : opaqueEnd? d src depth pos with
    | .error _ => []
    | .ok (some next) =>
      have := opaqueEnd?_bounds hq
      stringsOf src pos next ++ stringsFrom d src depth next
    | .ok none =>
      if opensGroup src[pos] then stringsFrom d src (depth + 1) (pos + 1)
      else if closesGroup src[pos] then stringsFrom d src (depth - 1) (pos + 1)
      else if depth = 0 ∧ endsHead src[pos] then []
      else stringsFrom d src depth (pos + 1)
  else []
termination_by src.size - pos

/-! ### One after the other -/

/-- A stretch of the text is a string: the same quote begins and ends it. -/
def IsString (src : Array Char) (s : Span) : Prop :=
  ∃ q, isQuote q = true ∧ src[s.start]? = some q ∧ src[s.stop - 1]? = some q ∧ s.start + 2 ≤ s.stop

theorem isString_of_stringEnd {q : Char} {pos next : Nat} (hc : src[pos]? = some q) (hq : isQuote q = true)
    (h : stringEnd src q pos = .ok next) : IsString src (.between pos next) ∧ pos ≤ next := by
  unfold stringEnd at h
  split at h
  · rename_i heq
    cases h
    have hlt := (closingQuote?_bounds heq).1
    refine ⟨⟨q, hq, hc, ?_, ?_⟩, by omega⟩
    · rw [Span.between_stop, Nat.max_eq_right (by omega)]
      exact closingQuote?_last heq
    · rw [Span.between_start, Span.between_stop]
      omega
  · cases h

/-- Strings stand one after the other between two places. -/
def Strung (src : Array Char) (stop : Nat) : Nat → List Span → Prop
  | start, [] => start ≤ stop
  | start, s :: ss => start ≤ s.start ∧ IsString src s ∧ Strung src stop s.stop ss

theorem Strung.mono {stop start start' : Nat} {ss : List Span} (h : Strung src stop start ss)
    (hle : start' ≤ start) : Strung src stop start' ss := by
  cases ss with
  | nil => exact Nat.le_trans hle h
  | cons s ss => exact ⟨Nat.le_trans hle h.1, h.2⟩

theorem Strung.le {stop : Nat} {ss : List Span} : ∀ {start : Nat}, Strung src stop start ss → start ≤ stop := by
  induction ss with
  | nil => exact id
  | cons s ss ih => exact fun h => Nat.le_trans (Nat.le_trans h.1 s.start_le_stop) (ih h.2.2)

theorem Strung.append {stop stop' : Nat} {xs ys : List Span} (hys : Strung src stop' stop ys) :
    ∀ {start : Nat}, Strung src stop start xs → Strung src stop' start (xs ++ ys) := by
  induction xs with
  | nil => exact fun h => hys.mono h
  | cons s xs ih => exact fun h => ⟨h.1, h.2.1, ih h.2.2⟩

theorem Strung.bounds {stop : Nat} {ss : List Span} : ∀ {start : Nat}, Strung src stop start ss →
    ∀ s ∈ ss, start ≤ s.start ∧ s.stop ≤ stop ∧ IsString src s := by
  induction ss with
  | nil => exact fun _ _ hs => nomatch hs
  | cons x ss ih =>
    intro start h s hs
    rcases List.mem_cons.1 hs with rfl | hs
    · exact ⟨h.1, h.2.2.le, h.2.1⟩
    · obtain ⟨hstart, hrest⟩ := ih h.2.2 s hs
      have := h.1
      have := x.start_le_stop
      exact ⟨by omega, hrest⟩

theorem Strung.filter {stop : Nat} {ss : List Span} (p : Span → Bool) :
    ∀ {start : Nat}, Strung src stop start ss → Strung src stop start (ss.filter p) := by
  induction ss with
  | nil => exact id
  | cons s ss ih =>
    intro start h
    by_cases hp : p s = true
    · rw [List.filter_cons_of_pos hp]
      exact ⟨h.1, h.2.1, ih h.2.2⟩
    · rw [List.filter_cons_of_neg hp]
      exact (ih h.2.2).mono (Nat.le_trans h.1 s.start_le_stop)

/-- The strings that begin at a place or behind it stand one after the other from there on. -/
theorem Strung.behind {stop start a : Nat} {ss : List Span} (h : Strung src stop start ss) (ha : a ≤ stop) :
    Strung src stop a (ss.filter fun s => a ≤ s.start) := by
  have hfilter := h.filter fun s => a ≤ s.start
  cases hss : ss.filter fun s => a ≤ s.start with
  | nil => exact ha
  | cons s rest =>
    have hs : s ∈ ss.filter fun s => a ≤ s.start := by
      rw [hss]
      exact List.mem_cons_self
    rw [hss] at hfilter
    exact ⟨of_decide_eq_true (List.mem_filter.1 hs).2, hfilter.2⟩

/-- Of two strings one stands before the other. -/
theorem Strung.apart {stop : Nat} {ss : List Span} : ∀ {start : Nat}, Strung src stop start ss →
    ∀ x ∈ ss, ∀ y ∈ ss, x = y ∨ x.stop ≤ y.start ∨ y.stop ≤ x.start := by
  induction ss with
  | nil => exact fun _ _ hx => nomatch hx
  | cons s ss ih =>
    intro start h x hx y hy
    obtain ⟨-, -, hrest⟩ := h
    rcases List.mem_cons.1 hx with rfl | hxs <;> rcases List.mem_cons.1 hy with rfl | hys
    · exact .inl rfl
    · exact .inr (.inl (hrest.bounds y hys).1)
    · exact .inr (.inr (hrest.bounds x hxs).1)
    · exact ih hrest x hxs y hys

/-- The strings inside of an interpolation stand before its end. -/
theorem stringsInside_strung {pos depth cursor stop : Nat} (h : closingBrace src pos depth cursor = .ok stop) :
    Strung src stop cursor (stringsInside src depth cursor) := by
  fun_induction closingBrace src pos depth cursor with
  | case1 => cases h
  | case2 depth cursor hlt hq next hs _ ih =>
    rw [stringsInside, dif_pos hlt, if_pos hq]
    split
    · rename_i heq
      rw [hs] at heq
      cases heq
    · rename_i heq
      rw [hs] at heq
      cases heq
      obtain ⟨hstring, hle⟩ := isString_of_stringEnd (Array.getElem?_eq_getElem hlt) hq hs
      refine ⟨Nat.le_refl _, hstring, ?_⟩
      rw [Span.between_stop, Nat.max_eq_right hle]
      exact ih h
  | case3 depth cursor hlt hq hopen ih =>
    rw [stringsInside, dif_pos hlt, if_neg hq, if_pos hopen]
    exact (ih h).mono (Nat.le_succ _)
  | case4 cursor hlt hq hopen hclose =>
    cases h
    rw [stringsInside, dif_pos hlt, if_neg hq, if_neg hopen, if_pos hclose, if_pos rfl]
    exact Nat.le_succ _
  | case5 depth cursor hlt hq hopen hclose hdepth ih =>
    rw [stringsInside, dif_pos hlt, if_neg hq, if_neg hopen, if_pos hclose, if_neg hdepth]
    exact (ih h).mono (Nat.le_succ _)
  | case6 depth cursor hlt hq hopen hclose ih =>
    rw [stringsInside, dif_pos hlt, if_neg hq, if_neg hopen, if_neg hclose]
    exact (ih h).mono (Nat.le_succ _)
  | case7 => cases h

/-- The strings in what is passed over stand there. -/
theorem stringsOf_strung {depth pos next : Nat} (h : opaqueEnd? d src depth pos = .ok (some next)) :
    Strung src next pos (stringsOf src pos next) := by
  have hb := opaqueEnd?_bounds h
  unfold stringsOf
  split
  · rename_i hany
    obtain ⟨q, hc, hq⟩ := (Option.any_eq_true ..).1 hany
    have hs : stringEnd src q pos = .ok next := by
      simp only [opaqueEnd?, quotedEnd?, hc, hq, if_true] at h
      cases hs : stringEnd src q pos with
      | error e => rw [hs] at h; cases h
      | ok next' => rw [hs] at h; cases h; rfl
    obtain ⟨hstring, hle⟩ := isString_of_stringEnd hc hq hs
    refine ⟨Nat.le_refl _, hstring, ?_⟩
    rw [Span.between_stop, Nat.max_eq_right hle]
    exact Nat.le_refl _
  · split
    · rename_i hnone hopens
      have hinside : closingBrace src pos 0 (pos + 1) = .ok next := by
        obtain ⟨c, hc⟩ : ∃ c, src[pos]? = some c := by
          rw [opensInterpolation, Bool.and_eq_true, beq_iff_eq] at hopens
          exact ⟨_, hopens.1⟩
        rw [hc, Option.any_some] at hnone
        simp only [opaqueEnd?, quotedEnd?, hc, hnone, hopens, if_true, Bool.false_eq_true, if_false,
          interpolationEnd] at h
        cases hs : closingBrace src pos 0 (pos + 1) with
        | error e => rw [hs] at h; cases h
        | ok next' => rw [hs] at h; cases h; rfl
      exact (stringsInside_strung hinside).mono (Nat.le_succ _)
    · exact Nat.le_of_lt hb.1

/-- **The strings of a statement's head stand one after the other.** -/
theorem stringsFrom_strung (depth pos : Nat) (hpos : pos ≤ src.size) :
    Strung src src.size pos (stringsFrom d src depth pos) := by
  fun_induction stringsFrom d src depth pos with
  | case1 | case5 | case7 => exact hpos
  | case2 depth pos hlt next hq hb ih => exact (ih hb.2).append (stringsOf_strung hq)
  | case3 depth pos hlt hq hopens ih => exact (ih hlt).mono (Nat.le_succ _)
  | case4 depth pos hlt hq hopens hcloses ih => exact (ih hlt).mono (Nat.le_succ _)
  | case6 depth pos hlt hq hopens hcloses hends ih => exact (ih hlt).mono (Nat.le_succ _)

/-! ### Quotes that only begin and end strings -/

/-- No quote stands between two places. -/
def QuoteFree (src : Array Char) (a b : Nat) : Prop :=
  ∀ i < b, a ≤ i → src[i]?.any isQuote = false

/-- Each quote between two places begins or ends one of some strings. -/
def Delimits (src : Array Char) (ss : List Span) (a b : Nat) : Prop :=
  ∀ i < b, a ≤ i → src[i]?.any isQuote = true → ∃ s ∈ ss, i = s.start ∨ i + 1 = s.stop

instance (src : Array Char) (ss : List Span) (a b : Nat) : Decidable (Delimits src ss a b) :=
  inferInstanceAs (Decidable (∀ i < b, a ≤ i → _))

theorem Delimits.mono {ss : List Span} {a b a' b' : Nat} (h : Delimits src ss a b) (ha : a ≤ a') (hb : b' ≤ b) :
    Delimits src ss a' b' :=
  fun i hlt hi => h i (by omega) (by omega)

/-- If no string reaches over a place, the quotes behind it belong to the strings that begin there. -/
theorem Delimits.behind {stop start a b : Nat} {ss : List Span} (h : Delimits src ss a b)
    (hstrung : Strung src stop start ss) (hoff : ∀ s ∈ ss, a ≤ s.start ∨ s.stop ≤ a) :
    Delimits src (ss.filter fun s => a ≤ s.start) a b := by
  intro i hlt hi hq
  obtain ⟨s, hs, his⟩ := h i hlt hi hq
  obtain ⟨-, -, _, -, -, -, hlen⟩ := hstrung.bounds s hs
  refine ⟨s, List.mem_filter.2 ⟨hs, decide_eq_true ?_⟩, his⟩
  rcases hoff s hs with hstart | hstop <;> omega

theorem count_of_quoteFree {q : Char} (hq : isQuote q = true) {a b : Nat} (h : QuoteFree t.chars a b) :
    (t.sliceChars a b).count q = 0 := by
  refine List.count_eq_zero.2 fun hmem => ?_
  obtain ⟨i, hi, hlt, hc⟩ := Source.mem_sliceChars_iff.1 hmem
  have := h i hlt hi
  rw [hc, Option.any_some, hq] at this
  cases this

/-- Before the first string stands no quote. -/
theorem Strung.quoteFree_before {stop start a : Nat} {s : Span} {ss : List Span}
    (h : Strung src stop start (s :: ss)) (hd : Delimits src (s :: ss) a s.start) : QuoteFree src a s.start := by
  intro i hlt hi
  rw [← Bool.not_eq_true]
  intro hq
  obtain ⟨x, hx, hix⟩ := hd i hlt hi hq
  have hstrung : Strung src stop s.start (s :: ss) := ⟨Nat.le_refl _, h.2⟩
  obtain ⟨hle, -, _, -, -, -, hlen⟩ := hstrung.bounds x hx
  omega

/-- Inside of a string stands no quote. -/
theorem Strung.quoteFree_inside {stop start a b : Nat} {s : Span} {ss : List Span} (h : Strung src stop start ss)
    (hs : s ∈ ss) (ha : s.start < a) (hb : b < s.stop) (hd : Delimits src ss a b) : QuoteFree src a b := by
  intro i hlt hi
  rw [← Bool.not_eq_true]
  intro hq
  obtain ⟨x, hx, hix⟩ := hd i hlt hi hq
  obtain ⟨-, -, _, -, -, -, hlen⟩ := h.bounds x hx
  rcases h.apart x hx s hs with rfl | hle | hle <;> omega

/-- A string without quotes inside has two of its own and none of the other. -/
theorem even_count_string {q : Char} (hq : isQuote q = true) {s : Span} (h : IsString t.chars s)
    (hinside : QuoteFree t.chars (s.start + 1) (s.stop - 1)) :
    (t.sliceChars s.start s.stop).count q % 2 = 0 := by
  obtain ⟨q', -, hfirst, hlast, hlen⟩ := h
  -- the text of the string is its first quote, what is inside, and its last quote
  have hend : t.sliceChars (s.stop - 1) s.stop = [q'] := by
    have := Source.sliceChars_one hlast
    rwa [Nat.sub_add_cancel (by omega)] at this
  rw [← Source.sliceChars_append (show s.start ≤ s.start + 1 by omega) (by omega),
    ← Source.sliceChars_append (show s.start + 1 ≤ s.stop - 1 by omega) (by omega), Source.sliceChars_one hfirst,
    hend, List.count_append, List.count_append, count_of_quoteFree hq hinside, Nat.zero_add, ← Nat.two_mul]
  exact Nat.mul_mod_right 2 _

/-- **Where quotes only begin and end strings, an even number of each kind stands before a string.**
By induction on the strings: each of those before it has two of its own. -/
theorem even_count_before {q : Char} (hq : isQuote q = true) {stop : Nat} {ss : List Span} :
    ∀ {start : Nat}, Strung t.chars stop start ss → ∀ s ∈ ss, Delimits t.chars ss start s.start →
      (t.sliceChars start s.start).count q % 2 = 0 := by
  induction ss with
  | nil => exact fun _ _ hs => nomatch hs
  | cons x ss ih =>
    intro start h s hs hd
    rcases List.mem_cons.1 hs with rfl | hs
    · rw [count_of_quoteFree hq (h.quoteFree_before hd)]
    · obtain ⟨-, -, -, -, -, -, hlen⟩ := h.bounds x List.mem_cons_self
      have hstart := h.1
      have hrest := h.2.2
      have hle := (hrest.bounds s hs).1
      have hbefore := h.quoteFree_before (hd.mono (Nat.le_refl _) (by omega))
      have hinside := h.quoteFree_inside List.mem_cons_self (Nat.lt_succ_self x.start)
        (show x.stop - 1 < x.stop by omega) (hd.mono (by omega) (by omega))
      -- a quote behind the first string belongs to a later one
      have hlater : Delimits t.chars ss x.stop s.start := by
        intro i hlt hi hq'
        obtain ⟨y, hy, hiy⟩ := hd i hlt (by omega) hq'
        rcases List.mem_cons.1 hy with rfl | hy
        · omega
        · exact ⟨y, hy, hiy⟩
      have hstring := even_count_string hq h.2.1 hinside
      have hrest' := ih hrest s hs hlater
      rw [← Source.sliceChars_append hstart (show x.start ≤ s.start by omega),
        ← Source.sliceChars_append x.start_le_stop hle, List.count_append, List.count_append,
        count_of_quoteFree hq hbefore]
      omega

/-- **Inside of a string an odd number of its own quotes stands before a place**, counted from a place
that no string reaches over, where quotes only begin and end strings. -/
theorem odd_count_inside {stop start a p : Nat} {s : Span} {ss : List Span} (hstrung : Strung t.chars stop start ss)
    (hs : s ∈ ss) (hoff : ∀ x ∈ ss, a ≤ x.start ∨ x.stop ≤ a) (hd : Delimits t.chars ss a p) (ha : a ≤ p)
    (hp : s.start < p) (hlt : p < s.stop) : ∃ q, isQuote q = true ∧ (t.sliceChars a p).count q % 2 = 1 := by
  obtain ⟨-, hstop, q, hq, hfirst, -, -⟩ := hstrung.bounds s hs
  have hstart : a ≤ s.start := (hoff s hs).resolve_right (by omega)
  have hown : s ∈ ss.filter fun s => a ≤ s.start := List.mem_filter.2 ⟨hs, decide_eq_true hstart⟩
  -- only the strings that begin behind the place count from here on
  have hstrung' := hstrung.behind (a := a) (by omega)
  have hd' := hd.behind hstrung hoff
  have hbefore := even_count_before hq hstrung' s hown (hd'.mono (Nat.le_refl _) (Nat.le_of_lt hp))
  have hinside := hstrung'.quoteFree_inside hown (Nat.lt_succ_self _) hlt (hd'.mono (by omega) (Nat.le_refl _))
  refine ⟨q, hq, ?_⟩
  rw [← Source.sliceChars_append hstart (Nat.le_of_lt hp), ← Source.sliceChars_append (Nat.le_succ _) hp,
    Source.sliceChars_one hfirst, List.count_append, List.count_append, count_of_quoteFree hq hinside,
    List.count_singleton_self]
  omega

end HouseStyle.Stylesheet
