import HouseStyle.Proofs.Rule.Mending
import HouseStyle.Proofs.Stylesheet.Pieces
import HouseStyle.Proofs.Text.Selection

/-!
# Commas in comments

The scan of a head passes over comments, but those who read its selectors do not. A comma in a comment parts
selectors for them, and the line is broken behind it.

* `BehindComma`: a line is broken behind a comma that the scan takes for one.
* `parted_of_selectorsFrom`: the readings agree on the commas of heads whose comments are quiet.
* `leavesComments_iff`: no line is broken in a comment, and nothing but white space behind such commas
  changes, exactly if lines are broken behind such commas.
* `breaks_outside_comments`: **when line breaks stay out of comments.**
-/

namespace HouseStyle.SelectorPerLine

open Stylesheet

variable {d : Dialect} {src : Array Char} {t : Source} {tree n : Node} {e : Edit} {start stop depth pos : Nat}
  {c : Char}

/-! ### Two readings of a head -/

/-- The characters that those who read selectors look for. -/
def selectorMarks : List Char :=
  ['"', '\'', '#', '(', '[', ')', ']', ',']

/-- **No comment that begins between two places holds a mark of selectors.** -/
def Quiet (d : Dialect) (src : Array Char) (start stop : Nat) : Prop :=
  ∀ i j, IsComment d src i j → start ≤ i → i < stop → ∀ k c, i ≤ k → k < j → src[k]? = some c → c ∉ selectorMarks

/-- **A head whose comments are quiet**: it is come to, and so is a place behind it. -/
structure QuietHead (d : Dialect) (src : Array Char) (start stop : Nat) : Prop where
  visits : Visits d src (0, 0) (0, start)
  ends : ∃ last, stop ≤ last ∧ Visits d src (0, start) (0, last)
  quiet : Quiet d src start stop

/-- Where the selectors of a head are read: at a place that the scan comes to, or inside of a comment. -/
inductive Along (d : Dialect) (src : Array Char) (start depth pos : Nat) : Prop
  | visits (h : Visits d src (0, start) (depth, pos))
  | inside {i j : Nat} (h : Visits d src (0, start) (depth, i)) (hslash : src[i]? = some '/')
      (hnext : next? d src (depth, i) = some (depth, j)) (hlt : i < pos) (hin : pos < j)

theorem mem_selectorMarks_of_isQuote (h : isQuote c = true) : c ∈ selectorMarks := by
  rw [isQuote, Bool.or_eq_true, beq_iff_eq, beq_iff_eq] at h
  rcases h with rfl | rfl <;> decide

theorem mem_selectorMarks_of_group (h : opensGroup c = true ∨ closesGroup c = true) : c ∈ selectorMarks := by
  simp only [opensGroup, closesGroup, Bool.or_eq_true, beq_iff_eq] at h
  rcases h with (rfl | rfl) | (rfl | rfl) <;> decide

/-- What begins a string or an interpolation is a mark. -/
theorem mark_of_quotedEnd? {next : Nat} (h : quotedEnd? src pos = .ok (some next)) :
    ∃ c, src[pos]? = some c ∧ c ∈ selectorMarks := by
  unfold quotedEnd? at h
  split at h
  · cases h
  · rename_i c hc
    refine ⟨c, hc, ?_⟩
    split at h
    · rename_i hquote
      exact mem_selectorMarks_of_isQuote hquote
    · split at h
      · rename_i hopens
        rw [opensInterpolation, Bool.and_eq_true, beq_iff_eq, hc] at hopens
        cases hopens.1
        decide
      · cases h

/-- Nothing inside of a comment is a mark. -/
theorem QuietHead.not_mark (hhead : QuietHead d src start stop) {i j : Nat} (h : Visits d src (0, start) (depth, i))
    (hslash : src[i]? = some '/') (hnext : next? d src (depth, i) = some (depth, j)) (hi : i < pos) (hj : pos < j)
    (hlt : pos < stop) (hc : src[pos]? = some c) : c ∉ selectorMarks :=
  hhead.quiet i j ⟨hslash, by omega, depth, hhead.visits.trans h, hnext⟩ h.le (Nat.lt_trans hi hlt) pos c
    (Nat.le_of_lt hi) hj hc

/-- A string or an interpolation is passed over by both readings. -/
theorem Along.quoted (hhead : QuietHead d src start stop) (h : Along d src start depth pos) (hlt : pos < stop)
    {next : Nat} (hq : quotedEnd? src pos = .ok (some next)) : Along d src start depth next := by
  cases h with
  | visits h =>
    refine .visits (h.tail ?_)
    rw [next?, opaqueEnd?, hq]
  | inside h hslash hnext hi hj =>
    obtain ⟨c, hc, hmark⟩ := mark_of_quotedEnd? hq
    exact absurd hmark (hhead.not_mark h hslash hnext hi hj hlt hc)

/-- **A character is passed over by both readings**, or it is none that matters to the selectors: it begins
a comment or stands inside of one. -/
theorem Along.step (hhead : QuietHead d src start stop) (h : Along d src start depth pos) (hlt : pos < stop)
    (hq : quotedEnd? src pos = .ok none) (hc : src[pos]? = some c) :
    (Visits d src (0, start) (depth, pos) ∧ Visits d src (0, start) (depthAfter depth c, pos + 1)) ∨
      c ∉ selectorMarks ∧ Along d src start depth (pos + 1) := by
  cases h with
  | visits h =>
    obtain ⟨last, hlast, hend⟩ := hhead.ends
    obtain ⟨q, hnext, -⟩ := h.next_of_lt hend (Nat.lt_of_lt_of_le hlt hlast)
    have hcomment : opaqueEnd? d src depth pos = commentEnd? (d == .scss && depth == 0) src pos := by
      rw [opaqueEnd?, hq]
    cases hwhole : opaqueEnd? d src depth pos with
    | error e =>
      rw [next?, hwhole] at hnext
      cases hnext
    | ok stop? =>
      cases stop? with
      | none => exact .inl ⟨h, h.tail (next?_of_char hwhole hc)⟩
      | some j =>
        rw [hcomment] at hwhole
        have hslash : src[pos]? = some '/' := by
          by_contra hno
          rw [commentEnd?, if_neg hno] at hwhole
          cases hwhole
        cases hc.symm.trans hslash
        refine .inr ⟨by decide, .inside h hslash ?_ (Nat.lt_succ_self _) (commentEnd?_lt hwhole)⟩
        rw [next?, hcomment, hwhole]
  | @inside i j h hslash hnext hi hj =>
    refine .inr ⟨hhead.not_mark h hslash hnext hi hj hlt hc, ?_⟩
    rcases Nat.lt_or_ge (pos + 1) j with hin | hout
    · exact .inside h hslash hnext (Nat.lt_succ_of_lt hi) hin
    · obtain rfl : pos + 1 = j := by omega
      exact .visits (h.tail hnext)

/-- **A comma that the scan takes for one stands between two selectors.** -/
def Parted (d : Dialect) (src : Array Char) (a b : Node) : Prop :=
  ∃ k, Visits d src (0, 0) (0, k) ∧ src[k]? = some ',' ∧ a.span.stop ≤ k ∧ k < b.span.start

/-- **The readings agree on the commas between selectors.** By induction on the reading of the selectors. -/
theorem parted_of_selectorsFrom (hhead : QuietHead d src start stop) (hsize : stop ≤ src.size) {segment : Nat}
    (hsegment : segment ≤ pos) (hstop : segment ≤ stop) {found : List Node} (h : Along d src start depth pos)
    (hfound : selectorsFrom src stop segment depth pos = .ok found) :
    ∀ a b, (a, b) ∈ found.zip found.tail → Parted d src a b := by
  fun_induction selectorsFrom src stop segment depth pos generalizing found with
  | case1 => cases hfound
  | case2 segment depth pos hlt next hq hb ih =>
    exact ih (by omega) hstop (h.quoted hhead hlt hq) hfound
  | case3 => cases hfound; exact fun _ _ hab => absurd hab List.not_mem_nil
  | case4 segment depth pos hlt hq c hc hopens ih =>
    rcases h.step hhead hlt hq hc with ⟨-, hvisits⟩ | ⟨hmark, -⟩
    · rw [depthAfter, if_pos hopens] at hvisits
      exact ih (by omega) hstop (.visits hvisits) hfound
    · exact absurd (mem_selectorMarks_of_group (.inl hopens)) hmark
  | case5 segment depth pos hlt hq c hc hopens hcloses ih =>
    rcases h.step hhead hlt hq hc with ⟨-, hvisits⟩ | ⟨hmark, -⟩
    · rw [depthAfter, if_neg hopens, if_pos hcloses] at hvisits
      exact ih (by omega) hstop (.visits hvisits) hfound
    · exact absurd (mem_selectorMarks_of_group (.inr hcloses)) hmark
  | case6 => cases hfound
  | case7 => cases hfound
  | case8 segment depth pos hlt hq c hc hopens hcloses hcomma here hhere rest hrest ih =>
    cases hfound
    obtain ⟨rfl, rfl⟩ := hcomma
    rcases h.step hhead hlt hq hc with ⟨hvisits, hafter⟩ | ⟨hmark, -⟩
    · have hlater := ih (Nat.le_refl _) hlt (.visits hafter) hrest
      rcases selectorBetween_spans hsegment (by omega) hhere with rfl | ⟨s, rfl, hs⟩
      · exact hlater
      · have hspans := (selectorsFrom_spans (Nat.le_refl _) hlt hsize hrest).1
        cases rest with
        | nil => exact fun _ _ hab => absurd hab List.not_mem_nil
        | cons s' rest =>
          intro a b hab
          rcases List.mem_cons.1 hab with heq | hab
          · cases heq
            exact ⟨pos, hhead.visits.trans hvisits, hc, hs.stop_le, (hspans s' List.mem_cons_self).start_le⟩
          · exact hlater a b hab
    · exact absurd (by decide) hmark
  | case9 segment depth pos hlt hq c hc hopens hcloses hcomma ih =>
    rcases h.step hhead hlt hq hc with ⟨-, hvisits⟩ | ⟨-, hinside⟩
    · rw [depthAfter, if_neg hopens, if_neg hcloses] at hvisits
      exact ih (by omega) hstop (.visits hvisits) hfound
    · exact ih (by omega) hstop hinside hfound
  | case10 =>
    rcases selectorBetween_spans hstop hsize hfound with rfl | ⟨s, rfl, -⟩
    · exact fun _ _ hab => absurd hab List.not_mem_nil
    · exact fun _ _ hab => absurd hab List.not_mem_nil

/-! ### Edits -/

/-- **An edit of the rule** for something that it reports. -/
def IsEdit (t : Source) (tree : Node) (e : Edit) : Prop :=
  ∃ n ∈ Node.walk tree, n.label = .style .selectorList ∧
    ∃ c : Context, c.text = t ∧ ∃ v ∈ check n c, fix v n c = some e

/-- **A line is broken behind a comma** that the scan takes for one: outside of strings, comments,
interpolations, parentheses and brackets. -/
def BehindComma (d : Dialect) (src : Array Char) (e : Edit) : Prop :=
  ∃ k, Visits d src (0, 0) (0, k) ∧ src[k]? = some ',' ∧ e.span.start = k + 1

/-- No comma stands in a gap before the one behind which an edit stands. -/
theorem not_comma_before {a b : Node} {before after : List Char} (hgap : gap t a b = before ++ ',' :: after)
    (hbefore : ',' ∉ before) (hlen : a.span.stop + before.length + 1 + after.length = b.span.start)
    (hsize : b.span.start ≤ t.size) {i : Nat} (hi : a.span.stop ≤ i) (hlt : i < a.span.stop + before.length) :
    t.chars[i]? ≠ some ',' := by
  intro hchar
  have hparts : t.sliceChars a.span.stop (a.span.stop + before.length) ++
      t.sliceChars (a.span.stop + before.length) b.span.start = before ++ ',' :: after := by
    rw [← hgap]
    exact Source.sliceChars_append (Nat.le_add_right _ _) (by omega)
  have hlength : (t.sliceChars a.span.stop (a.span.stop + before.length)).length = before.length := by
    rw [Source.length_sliceChars (by omega), Nat.add_sub_cancel_left]
  rw [← (List.append_inj hparts hlength).1] at hbefore
  exact hbefore (Source.mem_sliceChars_iff.2 ⟨i, hi, hlt, hchar⟩)

/-- White space between selectors, apart from commas, is white space of the language. -/
theorem isStyleBlank_of_gap {a b : Node} {before after : List Char}
    (hgap : ∀ c ∈ gap t a b, isStyleBlank c = true ∨ c = ',') (hsplit : gap t a b = before ++ ',' :: after)
    (hafter : after.all isBlank = true) : ∀ c ∈ after, isStyleBlank c = true := by
  intro c hc
  have hmem : c ∈ gap t a b := by
    rw [hsplit]
    exact List.mem_append_right _ (List.mem_cons_of_mem _ hc)
  refine (hgap c hmem).resolve_right ?_
  rintro rfl
  exact absurd (List.all_eq_true.1 hafter _ hc) (by decide)

/-- An edit breaks the line before a selector, behind the first comma after the selector before. -/
structure BreaksBetween (d : Dialect) (src : Array Char) (a b : Node) (k : Nat) (e : Edit) : Prop where
  first : ∀ i, a.span.stop ≤ i → i < k → src[i]? ≠ some ','
  stop : e.span.stop = b.span.start
  breaks : BreaksLine d src k e

/-- **What an edit of the rule does.** -/
theorem breaksBetween_of_isEdit (hparse : Stylesheet.parse d t.chars = .ok tree) (h : IsEdit t tree e) :
    ∃ n ∈ Node.walk tree, n.label = .style .selectorList ∧
      ∃ a b k, (a, b) ∈ neighbours n ∧ BreaksBetween d t.chars a b k e := by
  obtain ⟨n, hn, hlabel, c, rfl, v, hv, hfix⟩ := h
  obtain ⟨a, b, hfind, hline, -, hgap⟩ := lookup_of_check hparse hn hlabel hv
  obtain ⟨a', b', before, after, hfind', hsplit, hbefore, hafter, hspan, hreplacement⟩ := fix_shape hfix
  cases hfind.symm.trans hfind'
  have hab : (a, b) ∈ neighbours n := List.mem_of_find?_eq_some hfind
  obtain ⟨ns, r, hr, -, rfl⟩ := parse_iff.1 hparse
  obtain ⟨k, m, stop, -, hmem, -, hhead, hspans, hpair⟩ :=
    head_of_selectorList hr (mem_walkList_of_root hn (by rw [hlabel]; nofun)) hlabel
  have hb := hspans b (List.mem_of_mem_tail (List.of_mem_zip hab).2)
  obtain ⟨x, hx, hsolid⟩ := hb.first
  obtain ⟨hcomma, hdrop, hlen⟩ := comma_in_gap hsplit (rel_of_zip hpair hab) hx
  have hsize := Nat.le_of_lt (Array.getElem?_eq_some_iff.1 hx).1
  have hblank := isStyleBlank_of_gap hgap hsplit hafter
  have hstop : e.span.stop = b.span.start := by
    rw [hspan, Span.between_stop]
    omega
  refine ⟨n, hn, hlabel, a, b, a.span.stop + before.length, hab,
    fun i => not_comma_before hsplit hbefore hlen hsize, hstop, ?_⟩
  exact {
    comma := hcomma
    start := by rw [hspan, Span.between_start]
    ends := by
      refine ⟨(0, stop), (visits_startsFrom hmem).trans (visits_scanFrom hhead), ?_⟩
      rw [hstop]
      exact Nat.lt_of_lt_of_le hb.lt hb.stop_le
    blank := by
      rw [hstop]
      refine fun i hi hlt => ⟨blank_of_drop hdrop hblank hi (by rwa [hlen]), fun hchar => hline ?_⟩
      exact Source.mem_sliceChars_iff.2 ⟨i, by omega, hlt, hchar⟩
    solid := by rw [hstop, hx, Option.any_some, hsolid]
    replacement := by rw [hreplacement]; exact isStyleBlank_replacement _ _
    breaks := by rw [hreplacement]; exact newline_mem_replacement _ _ }

theorem breaksLine_of_isEdit (hparse : Stylesheet.parse d t.chars = .ok tree) (h : IsEdit t tree e) :
    ∃ k, BreaksLine d t.chars k e := by
  obtain ⟨_, -, -, _, _, k, -, hbetween⟩ := breaksBetween_of_isEdit hparse h
  exact ⟨k, hbetween.breaks⟩

/-- **Edits that leave comments alone**, and what stands outside of them but for white space behind commas:
no edit stands in a comment, and the text with all of them performed has the same pieces. -/
structure LeavesComments (d : Dialect) (t : Source) (edits : List Edit) : Prop where
  outside : ∀ e ∈ edits, ∀ i j, IsComment d t.chars i j → e.span.stop ≤ i ∨ j ≤ e.span.start
  chosen : ∀ e ∈ edits, ∃ e' ∈ Edit.select edits, e'.span = e.span
  performed : ∃ done, Edit.applyAll t.chars.toList (Edit.select edits) = .ok done ∧
    pieces d done.toArray = pieces d t.chars

/-- Each edit is performed, or another one at its place is. -/
theorem exists_chosen (hparse : Stylesheet.parse d t.chars = .ok tree) {edits : List Edit}
    (hedits : ∀ e ∈ edits, IsEdit t tree e) (he : e ∈ edits) : ∃ e' ∈ Edit.select edits, e'.span = e.span := by
  rcases List.mem_append.1 ((Edit.select_append_skipped edits).mem_iff.2 he) with hkept | hskipped
  · exact ⟨e, hkept, rfl⟩
  · obtain ⟨e', he', hover, -⟩ := Edit.exists_overlaps_of_mem_skipped hskipped
    obtain ⟨k, hbreaks⟩ := breaksLine_of_isEdit hparse (hedits e he)
    obtain ⟨k', hbreaks'⟩ := breaksLine_of_isEdit hparse (hedits e' (Edit.mem_of_mem_select he'))
    refine ⟨e', he', ?_⟩
    rcases hbreaks.apart hbreaks' with heq | hapart
    · exact heq.symm
    · rw [Edit.Apart, hover] at hapart
      cases hapart

/-- **Line breaks stay out of comments exactly if they stand behind commas of the scan.** -/
theorem leavesComments_iff (hparse : Stylesheet.parse d t.chars = .ok tree) {edits : List Edit}
    (hedits : ∀ e ∈ edits, IsEdit t tree e) :
    LeavesComments d t edits ↔ ∀ e ∈ edits, BehindComma d t.chars e := by
  have hbreaks (e : Edit) (he : e ∈ edits) := breaksLine_of_isEdit hparse (hedits e he)
  -- the edits that are performed, in order
  have hsorted := Edit.sorted_perm (Edit.select edits)
  have hbefore := Edit.sorted_before (Edit.select_apart edits)
  have happly := @Edit.applyAll_of_apart_eq t.chars.toList _ (Edit.select_apart edits)
  have hmem {e : Edit} (he : e ∈ Edit.sorted (Edit.select edits)) : e ∈ edits :=
    Edit.mem_of_mem_select (hsorted.mem_iff.1 he)
  constructor
  · intro h e he
    obtain ⟨e', he', hspan⟩ := h.chosen e he
    obtain ⟨done, hdone, hpieces⟩ := h.performed
    obtain ⟨k, hk⟩ := @visits_of_applyBackwards d t.chars.toList done _ hbefore (fun e he => hbreaks e (hmem he))
      (happly ▸ hdone) hpieces e' (hsorted.mem_iff.2 he')
    exact ⟨k, hk.visits, hk.comma, hspan ▸ hk.start⟩
  · intro h
    have hrespaces (e : Edit) (he : e ∈ edits) : ∃ k, Respaces d t.chars k e := by
      obtain ⟨k, hvisits, -, hstart⟩ := h e he
      obtain ⟨k', hk'⟩ := hbreaks e he
      obtain rfl : k' = k := Nat.succ.inj (hk'.start.symm.trans hstart)
      exact ⟨k', hk'.respaces hvisits⟩
    refine ⟨fun e he i j hcomment => ?_, fun e he => exists_chosen hparse hedits he, ?_⟩
    · obtain ⟨k, hk⟩ := hrespaces e he
      exact hk.outside hcomment
    · obtain ⟨done, hdone, hpieces⟩ := @applyBackwards_pieces d t.chars.toList _ hbefore fun e he =>
        hrespaces e (hmem he)
      exact ⟨done, happly.trans hdone, hpieces⟩

/-- Where comments are quiet the rule breaks lines behind commas of the scan. -/
theorem behindComma_of_quiet (hparse : Stylesheet.parse d t.chars = .ok tree)
    (hquiet : ∀ n ∈ Node.walk tree, n.label = .style .selectorList → Quiet d t.chars n.span.start n.span.stop)
    (hedit : IsEdit t tree e) : BehindComma d t.chars e := by
  obtain ⟨n, hn, hlabel, a, b, k, hab, hbetween⟩ := breaksBetween_of_isEdit hparse hedit
  have hquiet := hquiet n hn hlabel
  obtain ⟨ns, r, hr, -, rfl⟩ := parse_iff.1 hparse
  obtain ⟨-, m, stop, -, starts, hmem, -, head, hlist⟩ :=
    hr.rule_of_selectorList (mem_walkList_of_root hn (by rw [hlabel]; nofun)) hlabel
  have hle := starts.le_trimEnd head
  have hlast : trimEnd t.chars m.span.start stop ≤ stop := trimEnd_le
  have hsize := (starts.scan_bounds head).2.1
  unfold selectorList at hlist
  split at hlist
  · cases hlist
  · rename_i selectors hselectors
    cases hlist
    have hhead : QuietHead d t.chars m.span.start (trimEnd t.chars m.span.start stop) := by
      refine ⟨visits_startsFrom hmem, ⟨stop, hlast, visits_scanFrom head⟩, ?_⟩
      rw [nodeOf, Span.between_start, Span.between_stop, Nat.max_eq_right hle] at hquiet
      exact hquiet
    obtain ⟨k', hvisits, hcomma, hle', hlt'⟩ := parted_of_selectorsFrom hhead (Nat.le_trans hlast hsize)
      (Nat.le_refl _) hle (.visits .refl) hselectors a b hab
    -- the comma is the first one, and no other one follows it
    obtain rfl : k = k' := by
      rcases Nat.lt_trichotomy k k' with hlt | heq | hgt
      · have := (hbetween.breaks.blank k' hlt (hbetween.stop ▸ hlt')).1
        rw [hcomma] at this
        cases this
      · exact heq
      · exact absurd hcomma (hbetween.first k' hle' hgt)
    exact ⟨k, hvisits, hcomma, hbetween.breaks.start⟩

/-- **When line breaks stay out of comments.** The edits of the rule for a stylesheet leave its comments
alone, and all else but white space behind commas, exactly if they stand behind commas that the scan
takes for such. They do if no comment in a list of selectors holds a quote, a hash, a parenthesis, a
bracket or a comma. -/
theorem breaks_outside_comments (hparse : Stylesheet.parse d t.chars = .ok tree) {edits : List Edit}
    (hedits : ∀ e ∈ edits, IsEdit t tree e) :
    (LeavesComments d t edits ↔ ∀ e ∈ edits, BehindComma d t.chars e) ∧
      ((∀ n ∈ Node.walk tree, n.label = .style .selectorList → Quiet d t.chars n.span.start n.span.stop) →
        ∀ e ∈ edits, BehindComma d t.chars e) :=
  ⟨leavesComments_iff hparse hedits, fun hquiet e he => behindComma_of_quiet hparse hquiet (hedits e he)⟩

/-- The context of the rule in a text. -/
def contextIn (t : Source) : Context :=
  contextFor t .default (.document 0) selectorPerLine

/-- Whether a list of selectors has a report with a given edit. -/
def offers (t : Source) (e : Edit) (n : Node) : Bool :=
  match n.label with
  | .style .selectorList => (check n (contextIn t)).any fun v => fix v n (contextIn t) == some e
  | _ => false

theorem exists_isEdit (h : ((Stylesheet.parse d t.chars).toOption.bind fun tree =>
    (Node.walk tree).find? (offers t e)).isSome = true) :
    ∃ tree, Stylesheet.parse d t.chars = .ok tree ∧ IsEdit t tree e := by
  obtain ⟨n, hn⟩ := Option.isSome_iff_exists.1 h
  simp only [Option.bind_eq_some_iff, toOption_eq_some] at hn
  obtain ⟨tree, htree, hfind⟩ := hn
  have hoffers := List.find?_some hfind
  unfold offers at hoffers
  split at hoffers
  · rename_i hlabel
    obtain ⟨v, hv, hfix⟩ := List.any_eq_true.1 hoffers
    exact ⟨tree, htree, n, List.mem_of_find?_eq_some hfind, hlabel, contextIn t, rfl, v, hv, beq_iff_eq.1 hfix⟩
  · cases hoffers

/-- The edit that breaks the line at an offset. -/
def breakAt (start : Nat) : Edit :=
  { span := .between start (start + 1), replacement := "\n", rule := selectorPerLine.info.id }

/-- A comma outside of a comment. -/
theorem breaks_outside_comments_two : ∃ tree,
    Stylesheet.parse .css (Source.ofString "a, b /* c */ \x7b\x7d").chars = .ok tree ∧
      IsEdit (.ofString "a, b /* c */ \x7b\x7d") tree (breakAt 2) ∧
      BehindComma .css (Source.ofString "a, b /* c */ \x7b\x7d").chars (breakAt 2) ∧
      LeavesComments .css (.ofString "a, b /* c */ \x7b\x7d") [breakAt 2] := by
  have hedit : ∃ tree, Stylesheet.parse .css (Source.ofString "a, b /* c */ \x7b\x7d").chars = .ok tree ∧
      IsEdit (.ofString "a, b /* c */ \x7b\x7d") tree (breakAt 2) := exists_isEdit (by decide +kernel)
  obtain ⟨tree, htree, hedit⟩ := hedit
  have hcomma : BehindComma .css (Source.ofString "a, b /* c */ \x7b\x7d").chars (breakAt 2) :=
    ⟨1, .single (by decide +kernel), by decide +kernel, rfl⟩
  refine ⟨tree, htree, hedit, hcomma, ?_⟩
  exact (breaks_outside_comments htree (List.forall_mem_singleton.2 hedit)).1.2 (List.forall_mem_singleton.2 hcomma)

/-- **A line is broken in a comment** behind a comma in it, and where a line comment is broken, what stood
in it stands outside of it. -/
theorem breaks_in_comment :
    (∃ tree, Stylesheet.parse .css (Source.ofString "a /* x, y */ \x7b\x7d").chars = .ok tree ∧
      IsEdit (.ofString "a /* x, y */ \x7b\x7d") tree (breakAt 7) ∧
      IsComment .css (Source.ofString "a /* x, y */ \x7b\x7d").chars 2 12) ∧
    ∃ tree, Stylesheet.parse .scss (Source.ofString "a // x, y\n\x7b\x7d").chars = .ok tree ∧
      IsEdit (.ofString "a // x, y\n\x7b\x7d") tree (breakAt 7) ∧
      IsComment .scss (Source.ofString "a // x, y\n\x7b\x7d").chars 2 9 ∧
      Edit.applyAll "a // x, y\n\x7b\x7d".toList [breakAt 7] = .ok "a // x,\ny\n\x7b\x7d".toList ∧
      .comment "// x, y".toList ∈ pieces .scss "a // x, y\n\x7b\x7d".toList.toArray ∧
      .text ['y'] ∈ pieces .scss "a // x,\ny\n\x7b\x7d".toList.toArray ∧
      .text ['y'] ∉ pieces .scss "a // x, y\n\x7b\x7d".toList.toArray := by
  have happly : Edit.applyAll "a // x, y\n\x7b\x7d".toList [breakAt 7] = .ok "a // x,\ny\n\x7b\x7d".toList := by
    rw [Edit.applyAll_singleton (by decide +kernel)]
    exact congrArg _ (by decide +kernel)
  have hcss : ∃ tree, Stylesheet.parse .css (Source.ofString "a /* x, y */ \x7b\x7d").chars = .ok tree ∧
      IsEdit (.ofString "a /* x, y */ \x7b\x7d") tree (breakAt 7) := exists_isEdit (by decide +kernel)
  have hscss : ∃ tree, Stylesheet.parse .scss (Source.ofString "a // x, y\n\x7b\x7d").chars = .ok tree ∧
      IsEdit (.ofString "a // x, y\n\x7b\x7d") tree (breakAt 7) := exists_isEdit (by decide +kernel)
  obtain ⟨tree, htree, hedit⟩ := hcss
  obtain ⟨tree', htree', hedit'⟩ := hscss
  refine ⟨⟨tree, htree, hedit, by decide +kernel, by decide, 0, ?_, by decide +kernel⟩, tree', htree', hedit',
    ⟨by decide +kernel, by decide, 0, ?_, by decide +kernel⟩, happly, by decide +kernel, by decide +kernel,
    by decide +kernel⟩
  · exact .tail (.single (b := (0, 1)) (by decide +kernel)) (by decide +kernel)
  · exact .tail (.single (b := (0, 1)) (by decide +kernel)) (by decide +kernel)

end HouseStyle.SelectorPerLine
