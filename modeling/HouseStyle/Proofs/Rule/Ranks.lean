import HouseStyle.Proofs.Rule.Ordering
import HouseStyle.Proofs.Stylesheet.Closing
import HouseStyle.Proofs.Stylesheet.Starts

/-!
# The weight of a stylesheet

The rank of a place of a text in plain CSS is the place of the group of the statement that
starts there. It is read off the text, and the weight of a text is made of the ranks.

* `headRank`: the rank of a head; `headRank_of_item`: it is that of the statement.
* `headRank_inSlot`: a statement has its rank in any slot.
* `weight_lt_of_start`, `weight_lt_of_comma`: what makes a text lighter.
-/

namespace HouseStyle.PropertyOrder

open Stylesheet
open Cursor (skipWhile)

variable {t : Source} {src src' : Array Char} {a b n : Nat}

/-! ### A semicolon for the last statement -/

/-- **In plain CSS a statement that ends with its block closes alone**, once it was given its
semicolon. -/
theorem closesAlone_css {depth stop : Nat} {q : Node} (h : Item .css t.chars depth q)
    (hscan : Stylesheet.scan .css t.chars q.span.start = .ok (stop, some '}')) :
    ClosesAlone .css (statementText t q) := by
  have hun : Unclosed .css t.chars q := ⟨stop, _, hscan, .inl rfl⟩
  have hblockless := isBlockless_of_unclosed h hun
  have hb := h.bounds
  obtain ⟨n, hn⟩ := Nat.exists_eq_add_of_le (Nat.le_of_lt hb.1)
  have hblank : q.span.stop ≤ stop ∧ ∀ i, q.span.start + n ≤ i → i < stop →
      ∃ x, t.chars[i]? = some x ∧ isStyleBlank x = true := by
    rw [← hn]
    cases h with
    | closed _ _ head => cases head.symm.trans hscan
    | nested _ _ head => cases head.symm.trans hscan
    | unclosed _ starts head _ node =>
      cases head.symm.trans hscan
      have hqt := @le_trimEnd t.chars _ _ (starts.scan_bounds head).1
      rw [headNode_stop hqt hqt node]
      exact ⟨trimEnd_le, fun i hi hlt => trimEnd_blank hi hlt⟩
  obtain ⟨hle, hblank⟩ := hblank
  have hscan' : scanFrom .css t.chars 0 (q.span.start + 0) = .ok (stop, some '}') := hscan
  have hlast := last_ne_semicolon hblank (by omega) hscan' (by omega)
  have htext : statementText t q = t.sliceChars q.span.start q.span.stop ++ [';'] := by
    have hne : ((t.sliceChars q.span.start q.span.stop).getLast? != some ';') = true := by
      rw [Source.getLast?_sliceChars hb.1 hb.2.1, bne_iff_ne, show q.span.stop - 1 = q.span.start + (n - 1) by omega]
      exact hlast
    simp only [statementText, hblockless, hne, Bool.and_self, if_true]
  have hlen : (t.sliceChars q.span.start q.span.stop).length = n := by
    rw [Source.length_sliceChars hb.2.1, hn, Nat.add_sub_cancel_left]
  have hagree : Agree t.chars (statementText t q).toArray q.span.start 0 n := by
    have := @agree_of_drop t (statementText t q).toArray _ _ 0 [';'] hb.2.1 htext
    rwa [hn, Nat.add_sub_cancel_left] at this
  have hsemi : (statementText t q).toArray[0 + n]? = some ';' := by
    rw [List.getElem?_toArray, Nat.zero_add, htext, List.getElem?_append_right (Nat.le_of_eq hlen), hlen,
      Nat.sub_self]
    rfl
  have := scanFrom_semicolon hblank hagree hsemi (by omega) hscan' (by omega)
  rw [ClosesAlone, show (statementText t q).length - 1 = 0 + n by rw [htext, List.length_append, hlen]; simp]
  exact this

/-! ### Ranks of heads -/

/-- The name of an at-rule whose head is `[start, headStop)`, in lower case. -/
def atRuleName (src : Array Char) (start headStop : Nat) : String :=
  lower (Cursor.text src (start + 1) (skipWhile isNameChar src headStop (start + 1)))

/-- The place of the group of the statement that starts at a place. -/
def headRank (src : Array Char) (start : Nat) : Nat :=
  match Stylesheet.scan .css src start with
  | .error _ => 0
  | .ok (stop, c) =>
    if src[start]? = some '@' ∧ atRuleName src start (trimEnd src start stop) = "include" then 1
    else if c = some '\x7b' then 2 else 0

theorem headRank_of_scan {start stop : Nat} {c : Option Char}
    (h : Stylesheet.scan .css src start = .ok (stop, c)) : headRank src start =
      if src[start]? = some '@' ∧ atRuleName src start (trimEnd src start stop) = "include" then 1
      else if c = some '\x7b' then 2 else 0 := by
  simp only [headRank, h]

theorem headRank_le (src : Array Char) (start : Nat) : headRank src start ≤ 2 := by
  unfold headRank
  split
  · omega
  · split
    · omega
    · split <;> omega

/-- The head of a nested block ends at a brace. -/
theorem scan_of_headRank {start : Nat} (h : headRank src start = 2) :
    ∃ stop, Stylesheet.scan .css src start = .ok (stop, some '\x7b') := by
  unfold headRank at h
  split at h
  · cases h
  · rename_i stop c hscan
    split at h
    · cases h
    · split at h
      · rename_i hc
        subst hc
        exact ⟨stop, hscan⟩
      · cases h

theorem rankOf_of_atRule {m : Node} {name prelude : String} {mixin : Option String} {hasBlock : Bool}
    (h : m.label = .style (.atRule name prelude mixin hasBlock)) :
    rankOf m = if name = "include" then 1 else if hasBlock then 2 else 0 := by
  simp only [rankOf, bucket?, h]
  split
  · rfl
  · split <;> rfl

theorem rankOf_of_headNode {start headStop stop : Nat} {block : Option Node} {m : Node}
    (h : headNode src start headStop stop block = .ok m) : rankOf m =
      if src[start]? = some '@' ∧ atRuleName src start headStop = "include" then 1
      else if block.isSome then 2 else 0 := by
  unfold headNode at h
  split at h
  · rename_i hat
    simp only [atRule] at h
    split at h
    · cases h
    · cases h
      rw [rankOf_of_atRule rfl]
      simp only [hat, true_and]
      rfl
  · rename_i hat
    rw [if_neg fun hx => hat hx.1]
    split at h
    · obtain ⟨list, -, rfl⟩ := rule_shape h
      rfl
    · obtain ⟨property, value, important, name, propertyStop, valueStart, rfl⟩ := declaration_shape h
      rfl

/-- **The rank of a head is that of its statement.** -/
theorem headRank_of_item {depth : Nat} {m : Node} (h : Item .css src depth m) :
    headRank src m.span.start = rankOf m := by
  obtain ⟨stop, c, e, block, -, head, node, hblock, -⟩ := h.head
  rw [headRank_of_scan head, rankOf_of_headNode node]
  simp only [hblock]

theorem atRuleName_agree (h : Agree src src' a b n) {u : Nat} (hu : u ≤ n) :
    atRuleName src' b (b + u) = atRuleName src a (a + u) := by
  unfold atRuleName
  rcases Nat.eq_zero_or_pos u with rfl | hpos
  · -- there is no name
    rw [skipWhile, if_neg fun hx => by omega, skipWhile, if_neg fun hx => by omega]
    have hnil (src : Array Char) (i : Nat) : Cursor.text src i i = "" := by
      simp [Cursor.text]
    rw [hnil, hnil]
  · obtain ⟨v, -, hv, hw, hw'⟩ := skipWhile_agree h (p := isNameChar) hpos hu
    rw [hw, hw', text_agree h (Nat.le_trans hv hu)]

/-- **Heads that read alike have the same rank.** -/
theorem headRank_agree (h : Agree src src' a b n) {j : Nat} {c : Option Char} (hj : j < n)
    (ha : a ≤ src.size) (hb : b ≤ src'.size) (hscan : Stylesheet.scan .css src a = .ok (a + j, c)) :
    headRank src' b = headRank src a := by
  obtain ⟨u, -, hu, htrim, htrim'⟩ := trimEnd_agree h (s := 0) (Nat.zero_le _) (Nat.le_of_lt hj)
  rw [Nat.add_zero] at htrim htrim'
  have hat : src'[b]? = src[a]? := (h 0 (by omega)).symm
  rw [headRank_of_scan hscan, headRank_of_scan (scan_agree h hj ha hb hscan), htrim, htrim', hat,
    atRuleName_agree h (by omega)]

/-- **A statement has its rank in any slot** of a block of plain CSS. -/
theorem headRank_inSlot {depth s : Nat} {q : Node} (hq : Item .css t.chars depth q)
    (hunclosed : Unclosed .css t.chars q →
      ∃ stop, Stylesheet.scan .css t.chars q.span.start = .ok (stop, some '}'))
    {tail : List Char} (htext : src'.toList.drop s = statementText t q ++ tail) :
    headRank src' s = rankOf q := by
  by_cases hun : Unclosed .css t.chars q
  · obtain ⟨stop, hscan⟩ := hunclosed hun
    have hplaced := (place_unclosed hq htext hun (closesAlone_css hq hscan)).1
    have hsize := le_size_of_drop (statementText_pos hq) htext
    have hitem := (hplaced.items (by omega) _ (List.mem_singleton_self _)).1
    have := headRank_of_item hitem
    rw [inSlot_span.1] at this
    rw [this, rankOf, rankOf, bucket_of_label (show (inSlot t s q).label = q.label from Node.relocate_label q)]
  · obtain ⟨-, stop, c, hscan, -, hstop⟩ := hq.of_closed hun
    have hb := hq.bounds
    have hle := (hq.rest.2.scan_bounds hscan).1
    rw [statementText_of_closed hq hun] at htext
    have hagree := agree_of_drop hb.2.1 htext
    obtain ⟨j, rfl⟩ := Nat.exists_eq_add_of_le hle
    rw [← headRank_of_item hq]
    refine headRank_agree hagree (by omega) (Nat.le_of_lt hq.rest.2.lt_size) ?_ hscan
    exact Nat.le_of_lt (hq.rest_agree hagree).2.lt_size

/-! ### The weight of a stylesheet -/

/-- The rank of a place: that of the head which begins there, if a statement starts there. -/
def rankAt (src : Array Char) (pos : Nat) : Nat :=
  if pos ∈ startsFrom .css src 0 then headRank src pos else 0

/-- The weight of a text in plain CSS. -/
def styleWeight (src : Array Char) : Nat :=
  weight (rankAt src) src.toList

theorem rankAt_le (src : Array Char) (pos : Nat) : rankAt src pos ≤ 2 := by
  unfold rankAt
  split
  · exact headRank_le src pos
  · exact Nat.zero_le 2

theorem rankAt_of_mem {pos : Nat} (h : pos ∈ startsFrom .css src 0) : rankAt src pos = headRank src pos :=
  if_pos h

theorem rankAt_inside {start stop pos : Nat} (hm : start ∈ startsFrom .css src 0)
    (hscan : Stylesheet.scan .css src start = .ok (stop, some '{')) (hlt : start < pos) (hle : pos ≤ stop) :
    rankAt src pos = 0 :=
  if_neg (not_mem_startsFrom hm hscan hlt (Nat.lt_succ_of_le hle))

/-- The members of an ascending list before one of them. -/
theorem mem_before_iff {before after : List Nat} {m p : Nat} (h : (before ++ m :: after).Pairwise (· < ·))
    (hp : p < m) : p ∈ before ++ m :: after ↔ p ∈ before := by
  refine ⟨fun hmem => ?_, fun hmem => List.mem_append_left _ hmem⟩
  rcases List.mem_append.1 hmem with hmem | hmem
  · exact hmem
  · rcases List.mem_cons.1 hmem with rfl | hmem
    · omega
    · have := List.rel_of_pairwise_cons (List.pairwise_append.1 h).2.1 hmem
      omega

/-- **Up to the start of a statement the ranks are told by the text before it.** -/
theorem rankAt_agree {m : Nat} (h : Agree src src' 0 0 m) (hm : m ∈ startsFrom .css src 0)
    (hrest : skipTrivia .css src' m = .ok m) (hstarts : Starts src' m) :
    m ∈ startsFrom .css src' 0 ∧ ∀ p, p < m → rankAt src p = rankAt src' p := by
  have hsize := (mem_startsFrom m hm).2.1.lt_size
  have hsize' := hstarts.lt_size
  obtain ⟨before, after, after', h1, h2, hheads⟩ := startsFrom_agree h hrest hstarts hm
  have hs := @startsFrom_sorted .css src 0
  have hs' := @startsFrom_sorted .css src' 0
  rw [h1] at hs
  rw [h2] at hs'
  refine ⟨by rw [h2]; exact List.mem_append_right _ List.mem_cons_self, fun p hp => ?_⟩
  unfold rankAt
  rw [h1, h2]
  simp only [mem_before_iff hs hp, mem_before_iff hs' hp]
  by_cases hmem : p ∈ before
  · obtain ⟨hstart, stop, c, hstop, hscan⟩ := hheads p hmem
    obtain ⟨j, rfl⟩ := Nat.exists_eq_add_of_le (hstart.scan_bounds hscan).1
    have hagree := h.drop p
    rw [Nat.zero_add] at hagree
    rw [if_pos hmem, if_pos hmem]
    exact (headRank_agree hagree (by omega) (by omega) (by omega) hscan).symm
  · rw [if_neg hmem, if_neg hmem]

/-! ### What makes a text lighter -/

theorem toList_split {pos : Nat} {c : Char} (h : src[pos]? = some c) :
    src.toList = src.toList.take pos ++ c :: src.toList.drop (pos + 1) := by
  obtain ⟨hlt, rfl⟩ := Array.getElem?_eq_some_iff.1 h
  have hlt' : pos < src.toList.length := hlt
  have := List.drop_eq_getElem_cons hlt'
  rw [Array.getElem_toList] at this
  rw [← this, List.take_append_drop]

theorem take_of_agree {m : Nat} (h : Agree src src' 0 0 m) : src'.toList.take m = src.toList.take m := by
  apply List.ext_getElem?
  intro i
  by_cases hi : i < m
  · have := h i hi
    rw [Nat.zero_add] at this
    rw [List.getElem?_take_of_lt hi, List.getElem?_take_of_lt hi, Array.getElem?_toList, Array.getElem?_toList,
      this]
  · rw [List.getElem?_eq_none (by rw [List.length_take]; omega),
      List.getElem?_eq_none (by rw [List.length_take]; omega)]

/-- The first digits that differ decide between two texts of plain CSS. -/
theorem styleWeight_lt {pos : Nat} {x y : Char} (h : Agree src src' 0 0 pos) (hx : src[pos]? = some x)
    (hy : src'[pos]? = some y) (hsolid : isSolid x = true) (hsolid' : isSolid y = true)
    (hranks : ∀ p, p < pos → rankAt src p = rankAt src' p)
    (hlt : 2 * rankAt src' pos + commaMark y (src'.toList.drop (pos + 1)) <
      2 * rankAt src pos + commaMark x (src.toList.drop (pos + 1)))
    (hcount : solidCount src'.toList ≤ solidCount src.toList) : styleWeight src' < styleWeight src := by
  have hlen : (src.toList.take pos).length = pos := by
    have := (Array.getElem?_eq_some_iff.1 hx).1
    rw [List.length_take, Array.length_toList]
    omega
  have hs := toList_split hx
  have hs' := toList_split hy
  rw [take_of_agree h] at hs'
  unfold styleWeight
  rw [hs, hs'] at hcount ⊢
  refine weight_lt_of_first (rankAt_le src') hsolid hsolid' ?_ ?_ hcount
  · rw [hlen]
    exact hranks
  · rw [hlen]
    exact hlt

theorem isSolid_of_starts {m : Nat} (hrest : skipTrivia .css src m = .ok m) (hs : Starts src m) :
    ∃ c, src[m]? = some c ∧ isSolid c = true := by
  obtain ⟨c, hc, -, hsemi⟩ := hs
  refine ⟨c, hc, ?_⟩
  rw [isSolid, not_blank_of_rest hrest hc, Bool.not_false, Bool.true_and, bne_iff_ne]
  exact hsemi

/-- **A text is lighter if the first statement that differs is of an earlier group.** -/
theorem weight_lt_of_start {m : Nat} (h : Agree src src' 0 0 m) (hm : m ∈ startsFrom .css src 0)
    (hrest : skipTrivia .css src' m = .ok m) (hstarts : Starts src' m)
    (hlt : headRank src' m < headRank src m)
    (hcount : solidCount src'.toList ≤ solidCount src.toList) : styleWeight src' < styleWeight src := by
  obtain ⟨-, hs, hr⟩ := mem_startsFrom m hm
  obtain ⟨x, hx, hsolid⟩ := isSolid_of_starts hr hs
  obtain ⟨y, hy, hsolid'⟩ := isSolid_of_starts hrest hstarts
  obtain ⟨hm', hranks⟩ := rankAt_agree h hm hrest hstarts
  refine styleWeight_lt h hx hy hsolid hsolid' hranks ?_ hcount
  have := commaMark_le y (src'.toList.drop (m + 1))
  rw [rankAt_of_mem hm, rankAt_of_mem hm']
  omega

/-- **A text is lighter if the first difference is that the line ends after a comma** in the head
of a nested block. -/
theorem weight_lt_of_comma {start stop k : Nat} (h : Agree src src' 0 0 (k + 1))
    (hm : start ∈ startsFrom .css src 0) (hscan : Stylesheet.scan .css src start = .ok (stop, some '{'))
    (hrank : headRank src start = 2) (hlt : start < k) (hk : k < stop) (hc : src[k]? = some ',')
    (hmark : '\n' ∉ (src.toList.drop (k + 1)).takeWhile isStyleBlank)
    (hmark' : '\n' ∈ (src'.toList.drop (k + 1)).takeWhile isStyleBlank)
    (hcount : solidCount src'.toList ≤ solidCount src.toList) : styleWeight src' < styleWeight src := by
  obtain ⟨-, hs, hr⟩ := mem_startsFrom start hm
  have hs' := hs.agree h (by omega)
  have hr' : skipTrivia .css src' start = .ok start :=
    h.skipTrivia_prefix (by omega) (fun _ => by omega) hr
  have hstart := h.mono (show start ≤ k + 1 by omega)
  rcases Nat.lt_or_eq_of_le (headRank_le src' start) with hlt' | heq
  · -- the head is no longer that of a nested block
    exact weight_lt_of_start hstart hm hr' hs' (by omega) hcount
  obtain ⟨hm', hranks⟩ := rankAt_agree hstart hm hr' hs'
  obtain ⟨stop', hscan'⟩ := scan_of_headRank heq
  -- the head goes on behind the comma in both texts
  have hk' : k < stop' := by
    by_contra hle
    have hagree := h.symm.drop start
    rw [Nat.zero_add] at hagree
    obtain ⟨j, rfl⟩ := Nat.exists_eq_add_of_le (hs'.scan_bounds hscan').1
    have := scan_agree hagree (by omega) (Nat.le_of_lt hs'.lt_size) (Nat.le_of_lt hs.lt_size) hscan'
    rw [hscan] at this
    cases this
    omega
  have hc' : src'[k]? = some ',' := by
    have := h k (Nat.lt_succ_self k)
    rw [Nat.zero_add] at this
    exact this.symm.trans hc
  refine styleWeight_lt (h.mono (Nat.le_succ k)) hc hc' (by decide) (by decide) (fun p hp => ?_) ?_ hcount
  · rcases Nat.lt_trichotomy p start with hps | rfl | hps
    · exact hranks p hps
    · rw [rankAt_of_mem hm, rankAt_of_mem hm', hrank, heq]
    · rw [rankAt_inside hm hscan hps (by omega), rankAt_inside hm' hscan' hps (by omega)]
  · rw [rankAt_inside hm hscan hlt (Nat.le_of_lt hk), rankAt_inside hm' hscan' hlt (Nat.le_of_lt hk'), commaMark,
      commaMark, if_neg fun hx => hx.2 hmark', if_pos ⟨rfl, hmark⟩]
    exact Nat.zero_lt_one

end HouseStyle.PropertyOrder
