import HouseStyle.Proofs.Stylesheet.Blocks
import HouseStyle.Proofs.Stylesheet.Starts

/-!
# The selectors of a head

The selectors of a rule stand in its head. A head is split into its selectors by its own characters, but for a
quote or an interpolation that is closed behind it. Where those are closed in another text too, the head splits
there.

* `selectorsFrom_spans`: the selectors of a head stand one after the other inside of it, and none
  begins with white space.
* `head_of_selectorList`: the list of selectors of a tree is the head of a rule.
* `selectorList_repeated`: a head that is repeated in another text splits there.
-/

namespace HouseStyle.Stylesheet

open Cursor (skipWhile le_skipWhile)
open Node (walkList)

variable {d : Dialect} {src : Array Char}

/-- A selector stands between two places and does not begin with white space. -/
structure SelectorIn (src : Array Char) (start stop : Nat) (s : Node) : Prop where
  start_le : start ≤ s.span.start
  lt : s.span.start < s.span.stop
  stop_le : s.span.stop ≤ stop
  first : ∃ c, src[s.span.start]? = some c ∧ isStyleBlank c = false

theorem SelectorIn.mono {start start' stop stop' : Nat} {s : Node} (h : SelectorIn src start stop s)
    (hs : start' ≤ start) (he : stop ≤ stop') : SelectorIn src start' stop' s :=
  ⟨Nat.le_trans hs h.start_le, h.lt, Nat.le_trans h.stop_le he, h.first⟩

/-- Where skipping ends before its bound, the character does not belong to what is skipped. -/
theorem skipWhile_stops {p : Char → Bool} {stop cursor : Nat} (h : skipWhile p src stop cursor < stop) :
    (src[skipWhile p src stop cursor]?).any p = false := by
  fun_induction skipWhile p src stop cursor with
  | case1 cursor _ ih => exact ih h
  | case2 cursor hc =>
    rw [Bool.eq_false_iff]
    exact fun hp => hc ⟨h, hp⟩

theorem selectorBetween_spans {start stop : Nat} (hle : start ≤ stop) (hsize : stop ≤ src.size)
    {found : List Node} (h : selectorBetween src start stop = .ok found) :
    found = [] ∨ ∃ s, found = [s] ∧ SelectorIn src start stop s := by
  simp only [selectorBetween] at h
  have hfirst := @le_skipWhile isStyleBlank src stop start
  have hstop := @skipWhile_le src isStyleBlank _ _ hle
  have hlast := @le_trimEnd src _ _ hstop
  have hlast' := @trimEnd_le src (skipWhile isStyleBlank src stop start) stop
  split at h
  · cases h
    exact .inl rfl
  · rename_i hne
    split at h
    · cases h
    · cases h
      refine .inr ⟨_, rfl, hfirst, ?_, ?_, ?_⟩
      · exact Nat.lt_of_lt_of_le (Nat.lt_of_le_of_ne hlast hne) (Nat.le_max_right _ _)
      · exact Nat.max_le.2 ⟨hstop, hlast'⟩
      · have hlt : skipWhile isStyleBlank src stop start < stop := by omega
        have hchar := Array.getElem?_eq_getElem (Nat.lt_of_lt_of_le hlt hsize)
        have := skipWhile_stops hlt
        rw [hchar, Option.any_some] at this
        exact ⟨_, hchar, this⟩

/-- **The selectors of a head stand one after the other.** By induction on the head; the current
selector starts at `segment`. -/
theorem selectorsFrom_spans {stop segment depth pos : Nat} (hseg : segment ≤ pos) (hstop : segment ≤ stop)
    (hsize : stop ≤ src.size) {found : List Node} (h : selectorsFrom src stop segment depth pos = .ok found) :
    (∀ s ∈ found, SelectorIn src segment stop s) ∧
      found.Pairwise fun a b => a.span.stop < b.span.start := by
  fun_induction selectorsFrom src stop segment depth pos generalizing found with
  | case1 => cases h
  | case2 _ _ _ _ next hq hb ih => exact ih (by omega) hstop h
  | case3 => cases h; exact ⟨List.forall_mem_nil _, .nil⟩
  | case4 _ _ _ _ _ _ _ _ ih => exact ih (by omega) hstop h
  | case5 _ _ _ _ _ _ _ _ _ ih => exact ih (by omega) hstop h
  | case6 => cases h
  | case7 => cases h
  | case8 segment depth pos hlt hq c hc hg hg' hcomma here hhere rest hrest ih =>
    cases h
    obtain ⟨hspans, hpair⟩ := ih (Nat.le_refl _) hlt hrest
    have hleft : ∀ s ∈ here, SelectorIn src segment pos s := by
      rcases selectorBetween_spans hseg (by omega) hhere with rfl | ⟨s, rfl, hs⟩
      · exact List.forall_mem_nil _
      · exact List.forall_mem_singleton.2 hs
    refine ⟨fun s hs => ?_, List.pairwise_append.2 ⟨?_, hpair, fun a ha b hb => ?_⟩⟩
    · rcases List.mem_append.1 hs with hs | hs
      · exact (hleft s hs).mono (Nat.le_refl _) (Nat.le_of_lt hlt)
      · exact (hspans s hs).mono (by omega) (Nat.le_refl _)
    · rcases selectorBetween_spans hseg (by omega) hhere with rfl | ⟨s, rfl, -⟩
      · exact .nil
      · exact List.pairwise_singleton _ _
    · have := (hleft a ha).stop_le
      have := (hspans b hb).start_le
      omega
  | case9 _ _ _ _ _ _ _ _ _ _ ih => exact ih (by omega) hstop h
  | case10 =>
    rcases selectorBetween_spans hstop hsize h with rfl | ⟨s, rfl, hs⟩
    · exact ⟨List.forall_mem_nil _, .nil⟩
    · exact ⟨List.forall_mem_singleton.2 hs, List.pairwise_singleton _ _⟩

/-- The list of selectors of a statement is the head of a rule. -/
theorem headNode_selectorList {start headStop stop : Nat} {block : Option Node} {m x : Node}
    (h : headNode src start headStop stop block = .ok m)
    (hblock : ∀ b, block = some b → b.label = .style .block) (hx : x ∈ m.children)
    (hl : x.label = .style .selectorList) :
    block.isSome = true ∧ (∃ s, m.label = .style (.rule s)) ∧ selectorList src start headStop = .ok x := by
  have hnot {b : Node} (hb : block = some b) (hxb : x = b) : False := by
    rw [hxb, hblock b hb] at hl
    cases hl
  unfold headNode at h
  split at h
  · obtain ⟨name, prelude, mixin, rfl⟩ := atRule_shape h
    exact (hnot (Option.mem_toList.1 hx) rfl).elim
  · split at h
    · obtain ⟨list, hlist, rfl⟩ := rule_shape h
      rcases List.mem_cons.1 hx with rfl | hx
      · exact ⟨rfl, ⟨_, rfl⟩, hlist⟩
      · exact (hnot rfl (List.mem_singleton.1 hx)).elim
    · obtain ⟨property, value, important, name, propertyStop, valueStart, rfl⟩ := declaration_shape h
      rcases List.mem_cons.1 hx with rfl | hx
      · cases hl
      · rw [List.mem_singleton.1 hx] at hl
        cases hl

/-- **A list of selectors is the head of a rule**, whose start is met. -/
theorem Reads.rule_of_selectorList {depth p r : Nat} {ns : List Node} (h : Reads d src depth p ns r)
    {x : Node} (hx : x ∈ walkList ns) (hl : x.label = .style .selectorList) :
    ∃ k m stop, Item d src k m ∧ Starts src m.span.start ∧ m.span.start ∈ startsFrom d src p ∧
      (∃ s, m.label = .style (.rule s)) ∧ scan d src m.span.start = .ok (stop, some '\x7b') ∧
      selectorList src m.span.start (trimEnd src m.span.start stop) = .ok x := by
  obtain ⟨k, m, hitem, hmem, hown⟩ := h.owner hx
  obtain ⟨stop, c, e, block, starts, head, node, hblock, hlabel⟩ := hitem.head
  have hx : x ∈ m.children := by
    rcases hown with rfl | hx | hx
    · obtain ⟨-, -, -, hne, -⟩ := headNode_shape (starts.le_trimEnd head) node
      exact absurd hl hne
    · exact hx
    · exact absurd hl hx.label.1
  obtain ⟨hsome, hrule, hlist⟩ := headNode_selectorList node hlabel hx hl
  obtain rfl := hblock.1 hsome
  exact ⟨k, m, stop, hitem, starts, hmem, hrule, head, hlist⟩

/-- The selectors of a list stand one after the other in the head of its rule. -/
theorem head_of_selectorList {depth p r : Nat} {ns : List Node} (h : Reads d src depth p ns r) {x : Node}
    (hx : x ∈ walkList ns) (hl : x.label = .style .selectorList) :
    ∃ k m stop, Item d src k m ∧ m.span.start ∈ startsFrom d src p ∧ (∃ s, m.label = .style (.rule s)) ∧
      scan d src m.span.start = .ok (stop, some '\x7b') ∧
      (∀ s ∈ x.children, SelectorIn src m.span.start stop s) ∧
      x.children.Pairwise fun a b => a.span.stop < b.span.start := by
  obtain ⟨k, m, stop, hitem, starts, hmem, hrule, head, hlist⟩ := h.rule_of_selectorList hx hl
  have hstop := (starts.scan_bounds head).2.1
  have htrim := @trimEnd_le src m.span.start stop
  unfold selectorList at hlist
  split at hlist
  · cases hlist
  · rename_i selectors hselectors
    cases hlist
    obtain ⟨hspans, hpair⟩ :=
      selectorsFrom_spans (Nat.le_refl _) (starts.le_trimEnd head) (Nat.le_trans htrim hstop) hselectors
    exact ⟨k, m, stop, hitem, hmem, hrule, head, fun s hs => (hspans s hs).mono (Nat.le_refl _) htrim, hpair⟩

end HouseStyle.Stylesheet

namespace HouseStyle.Stylesheet

open Cursor (skipWhile)

variable {src src' : Array Char} {a b n : Nat}

section

variable (h : Agree src src' a b n) {l : Nat} (hl : l < n)
  (hq : ∀ i < l, ∀ r, quotedEnd? src (a + i) = .ok r → ∃ r', quotedEnd? src' (b + i) = .ok r')

include h hl hq

theorem simpleSelectors_repeated {i : Nat} {parts : List Node} (hsize : a + l ≤ src.size)
    (hs : simpleSelectors src (a + l) (a + i) = .ok parts) :
    ∃ parts', simpleSelectors src' (b + l) (b + i) = .ok parts' := by
  -- a character outside of strings and interpolations
  have hplain {i : Nat} {c : Char} (hi : i < l) (hnone : quotedEnd? src (a + i) = .ok none)
      (hc : src[a + i]? = some c) : simpleSelectors src' (b + l) (b + i) =
        if c = '[' then simpleSelectors src' (b + l) (bracketEnd src' (b + l) (b + i))
        else if (c = '#' ∨ c = '.') ∧ startsName src' (b + l) (b + i + 1) then
          (simpleSelectors src' (b + l) (skipWhile isNameChar src' (b + l) (b + i + 1))).map
            (simpleSelector src' c (b + i) (skipWhile isNameChar src' (b + l) (b + i + 1)) :: ·)
        else simpleSelectors src' (b + l) (b + i + 1) := by
    rw [simpleSelectors_of_char (by omega) ((h i (by omega)).symm.trans hc),
      quotedEnd?_agree_none h (by omega) (fun _ => by omega) hnone]
    rfl
  generalize hcur : a + i = cursor at hs
  fun_induction simpleSelectors src (a + l) cursor generalizing i parts with
  | case1 => cases hs
  | case2 cursor hlt next hnext hb ih =>
    subst hcur
    obtain ⟨r', hr'⟩ := hq i (by omega) _ hnext
    rw [simpleSelectors_of_char (by omega) (h.char (by omega) (by omega)), hr']
    obtain ⟨h1, -⟩ | ⟨k, hik, hk, h1, rfl⟩ | ⟨k, k', hk, hk', h1, rfl⟩ :=
      quotedEnd?_agree_cases h (by omega) (fun _ => by omega) hnext hr'
    · cases h1
    · cases h1
      exact ih rfl hs
    · -- the selector ends before the string does
      exact ⟨[], simpleSelectors_of_le (by omega)⟩
  | case3 cursor hlt hnone hc =>
    have := Array.getElem?_eq_none_iff.1 hc
    omega
  | case4 cursor hlt hnone hb hc ih =>
    subst hcur
    obtain ⟨u, -, -, h1, h2⟩ := bracketEnd_agree h (show i < l by omega) (Nat.le_of_lt hl)
    rw [hplain (by omega) hnone hc, if_pos rfl, h2]
    rw [h1] at hs ih
    exact ih rfl hs
  | case5 => cases hs
  | case6 cursor hlt hnone c hc hne hm nameEnd hle rest hrest =>
    rename_i ih
    subst hcur
    obtain ⟨u, -, -, h1, h2⟩ :=
      skipWhile_agree h (p := isNameChar) (show i + 1 ≤ l by omega) (Nat.le_of_lt hl)
    have hname := startsName_agree h (i := i + 1) (Nat.le_of_lt hl)
    obtain ⟨rest', hrest'⟩ := ih h1.symm hrest
    rw [← Nat.add_assoc] at h2
    rw [← Nat.add_assoc, ← Nat.add_assoc] at hname
    rw [hplain (by omega) hnone hc, if_neg hne, hname, if_pos hm, h2, hrest']
    exact ⟨_, rfl⟩
  | case7 cursor hlt hnone c hc hne hm ih =>
    subst hcur
    have hname := startsName_agree h (i := i + 1) (Nat.le_of_lt hl)
    rw [← Nat.add_assoc, ← Nat.add_assoc] at hname
    rw [hplain (by omega) hnone hc, if_neg hne, hname, if_neg hm]
    exact ih (i := i + 1) rfl hs
  | case8 cursor hlt => exact ⟨[], simpleSelectors_of_le (by omega)⟩

theorem selectorBetween_repeated {g : Nat} (hg : g ≤ l) {found : List Node} (hsize : a + l ≤ src.size)
    (hs : selectorBetween src (a + g) (a + l) = .ok found) :
    ∃ found', selectorBetween src' (b + g) (b + l) = .ok found' := by
  obtain ⟨u, -, hu, h1, h2⟩ := skipWhile_agree h (p := isStyleBlank) hg (Nat.le_of_lt hl)
  obtain ⟨v, huv, hv, h3, h4⟩ := trimEnd_agree h hu (Nat.le_of_lt hl)
  simp only [selectorBetween, h1, h2, h3, h4, Nat.add_left_cancel_iff] at hs ⊢
  split at hs
  · rename_i heq
    exact ⟨[], if_pos heq⟩
  · rename_i hne
    rw [if_neg hne]
    split at hs
    · cases hs
    · rename_i parts hparts
      obtain ⟨parts', hparts'⟩ :=
        simpleSelectors_repeated h (by omega) (fun i hi => hq i (by omega)) (by omega) hparts
      rw [hparts']
      exact ⟨_, rfl⟩

theorem selectorsFrom_repeated {g depth i : Nat} (hg : g ≤ i) (hgl : g ≤ l) {found : List Node}
    (hsize : a + l ≤ src.size) (hs : selectorsFrom src (a + l) (a + g) depth (a + i) = .ok found) :
    ∃ found', selectorsFrom src' (b + l) (b + g) depth (b + i) = .ok found' := by
  -- a character outside of strings and interpolations
  have hplain {g depth i : Nat} {c : Char} (hi : i < l) (hnone : quotedEnd? src (a + i) = .ok none)
      (hc : src[a + i]? = some c) : selectorsFrom src' (b + l) (b + g) depth (b + i) =
        if opensGroup c then selectorsFrom src' (b + l) (b + g) (depth + 1) (b + (i + 1))
        else if closesGroup c then selectorsFrom src' (b + l) (b + g) (depth - 1) (b + (i + 1))
        else if c = ',' ∧ depth = 0 then
          (selectorBetween src' (b + g) (b + i)).bind fun here =>
            (selectorsFrom src' (b + l) (b + (i + 1)) 0 (b + (i + 1))).map (here ++ ·)
        else selectorsFrom src' (b + l) (b + g) depth (b + (i + 1)) := by
    rw [selectorsFrom_of_char (by omega) ((h i (by omega)).symm.trans hc),
      quotedEnd?_agree_none h (by omega) (fun _ => by omega) hnone]
    rfl
  generalize hseg : a + g = segment at hs
  generalize hcur : a + i = cursor at hs
  fun_induction selectorsFrom src (a + l) segment depth cursor generalizing g i found with
  | case1 => cases hs
  | case2 segment depth cursor hlt next hnext hb ih =>
    subst hcur hseg
    obtain ⟨r', hr'⟩ := hq i (by omega) _ hnext
    rw [selectorsFrom_of_char (by omega) (h.char (by omega) (by omega)), hr']
    obtain ⟨h1, -⟩ | ⟨k, hik, hk, h1, rfl⟩ | ⟨k, k', hk, hk', h1, rfl⟩ :=
      quotedEnd?_agree_cases h (by omega) (fun _ => by omega) hnext hr'
    · cases h1
    · cases h1
      exact ih (by omega) hgl rfl rfl hs
    · -- the head ends before the string does
      cases h1
      rw [selectorsFrom_of_le (by omega)] at hs
      obtain ⟨found', hfound'⟩ := selectorBetween_repeated h hl hq hgl hsize hs
      exact ⟨found', (selectorsFrom_of_le (by omega)).trans hfound'⟩
  | case3 segment depth cursor hlt hnone hc =>
    have := Array.getElem?_eq_none_iff.1 hc
    omega
  | case4 segment depth cursor hlt hnone c hc ho ih =>
    subst hcur hseg
    rw [hplain (by omega) hnone hc, if_pos ho]
    exact ih (by omega) hgl rfl rfl hs
  | case5 segment depth cursor hlt hnone c hc ho hcl ih =>
    subst hcur hseg
    rw [hplain (by omega) hnone hc, if_neg ho, if_pos hcl]
    exact ih (by omega) hgl rfl rfl hs
  | case6 => cases hs
  | case7 => cases hs
  | case8 segment depth cursor hlt hnone c hc ho hcl hcomma here hhere rest hrest ih =>
    subst hcur hseg
    obtain ⟨here', hhere'⟩ :=
      selectorBetween_repeated h (show i < n by omega) (fun k hk => hq k (by omega)) hg (by omega) hhere
    obtain ⟨rest', hrest'⟩ := ih (Nat.le_refl (i + 1)) (by omega) rfl rfl hrest
    rw [hplain (by omega) hnone hc, if_neg ho, if_neg hcl, if_pos hcomma, hhere', hrest']
    exact ⟨_, rfl⟩
  | case9 segment depth cursor hlt hnone c hc ho hcl hcomma ih =>
    subst hcur hseg
    rw [hplain (by omega) hnone hc, if_neg ho, if_neg hcl, if_neg hcomma]
    exact ih (by omega) hgl rfl rfl hs
  | case10 segment depth cursor hlt =>
    subst hcur hseg
    rw [selectorsFrom_of_le (by omega)]
    exact selectorBetween_repeated h hl hq hgl hsize hs

/-- **A head that is repeated in another text splits there.** -/
theorem selectorList_repeated {s : Nat} (hsl : s ≤ l) {list : Node} (hsize : a + l ≤ src.size)
    (hs : selectorList src (a + s) (a + l) = .ok list) :
    ∃ list', selectorList src' (b + s) (b + l) = .ok list' := by
  unfold selectorList at hs ⊢
  split at hs
  · cases hs
  · rename_i found hfound
    obtain ⟨found', hfound'⟩ := selectorsFrom_repeated h hl hq (Nat.le_refl s) hsl hsize hfound
    rw [hfound']
    exact ⟨_, rfl⟩

end

end HouseStyle.Stylesheet
