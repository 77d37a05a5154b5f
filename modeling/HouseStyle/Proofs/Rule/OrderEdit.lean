import HouseStyle.Proofs.Rule.Lightening
import HouseStyle.Proofs.Rule.OutOfOrder
import HouseStyle.Proofs.Rule.Reordering

/-!
# Putting a block in order makes the text lighter

The first slot that is given a statement of another group is given one of an earlier group. The
slots before it keep their statements, so the text before it stays as it was.

* `item_of_movable`: a child of a block that takes part in the order is a statement of the text.
* `exists_earlier`: the first slot that is filled with an earlier group.
* `lightens_of_fix`: the edit makes the text lighter.
-/

namespace HouseStyle.PropertyOrder

open Stylesheet
open Node (walkList)

variable {d : Dialect} {t : Source} {src : Array Char}

/-! ### Statements of the text -/

/-- The children of a statement are not in the order of a block. -/
theorem bucket_of_child {start headStop stop : Nat} {block : Option Node} {m x : Node}
    (h : headNode src start headStop stop block = .ok m)
    (hblock : ∀ b, block = some b → b.label = .style .block) (hx : x ∈ m.children) : bucket? x = none := by
  have hnone {b : Node} (hb : block = some b) : bucket? b = none := by
    rw [bucket?, hblock b hb]
  unfold headNode at h
  split at h
  · obtain ⟨name, prelude, mixin, rfl⟩ := atRule_shape h
    exact hnone (Option.mem_toList.1 hx)
  · split at h
    · obtain ⟨list, hl, rfl⟩ := rule_shape h
      rcases List.mem_cons.1 hx with rfl | hx
      · rw [(selectorList_shape hl).1]
        rfl
      · rw [List.mem_singleton.1 hx]
        exact hnone rfl
    · obtain ⟨property, value, important, name, propertyStop, valueStart, rfl⟩ := declaration_shape h
      rcases List.mem_cons.1 hx with rfl | hx
      · rfl
      · rw [List.mem_singleton.1 hx]
        rfl

theorem bucket_of_part {x : Node} (h : IsSelectorPart x) : bucket? x = none := by
  unfold IsSelectorPart at h
  unfold bucket?
  split at h <;> rename_i hl
  · rw [hl]
  · rw [hl]
  · rw [hl]
  · cases h

/-- **A node that takes part in the order of a block is a statement** whose start is met. -/
theorem item_of_movable {depth p r : Nat} {ns : List Node} (h : Reads d src depth p ns r) {x : Node}
    (hx : x ∈ walkList ns) (hm : isMovable x = true) :
    x.span.start ∈ startsFrom d src p ∧ ∃ k, Item d src k x := by
  obtain ⟨k, m, hitem, hmem, hown⟩ := h.owner hx
  rcases hown with rfl | hx | hx
  · exact ⟨hmem, k, hitem⟩
  · obtain ⟨stop, c, e, block, -, -, node, -, hblock⟩ := hitem.head
    rw [isMovable, bucket_of_child node hblock hx] at hm
    cases hm
  · rw [isMovable, bucket_of_part hx] at hm
    cases hm

/-- An unclosed statement ends where the reading ends. -/
theorem stop_of_unclosed {depth p r : Nat} {ns : List Node} (h : Reads d src depth p ns r) :
    ∀ m ∈ ns, ∀ stop c, Stylesheet.scan d src m.span.start = .ok (stop, c) → c = some '}' ∨ c = none →
      stop = r := by
  induction h with
  | done => exact fun _ hm => nomatch hm
  | semicolon skip char rest ih => exact ih
  | closed skip starts head node rest ih =>
    intro m hm stop c hscan hc
    rcases List.mem_cons.1 hm with rfl | hm
    · rw [headNode_start (starts.le_trimEnd head) node, head] at hscan
      cases hscan
      rcases hc with hc | hc <;> cases hc
    · exact ih m hm stop c hscan hc
  | unclosed skip starts head char node =>
    intro m hm stop c hscan hc
    rw [List.mem_singleton.1 hm, headNode_start (starts.le_trimEnd head) node, head] at hscan
    cases hscan
    rfl
  | nested skip starts head inner trivia char node rest ihi ih =>
    intro m hm stop c hscan hc
    rcases List.mem_cons.1 hm with rfl | hm
    · rw [headNode_start (starts.le_trimEnd head) node, head] at hscan
      cases hscan
      rcases hc with hc | hc <;> cases hc
    · exact ih m hm stop c hscan hc

/-- **An unclosed child of a block ends at the brace that closes the block.** -/
theorem scan_of_unclosed {depth p last close : Nat} {ns : List Node} (h : Reads d src depth p ns last)
    (hp : p ≤ src.size) (trivia : skipTrivia d src last = .ok close) (char : src[close]? = some '}')
    {m : Node} (hm : m ∈ ns) (hun : Unclosed d src m) :
    ∃ stop, Stylesheet.scan d src m.span.start = .ok (stop, some '}') := by
  obtain ⟨stop, c, hscan, hc⟩ := hun
  obtain rfl := stop_of_unclosed h m hm stop c hscan hc
  rcases hc with rfl | rfl
  · exact ⟨stop, hscan⟩
  · -- the text does not end there
    have hend := (((h.items hp m hm).1.rest.2).scan_bounds hscan).2.2
    rw [skipTrivia_of_end (Array.getElem?_eq_none_iff.1 hend)] at trivia
    cases trivia
    rw [hend] at char
    cases char

/-! ### The first slot that is filled with another group -/

theorem interleave_head (a : List Char) (rest gs : List (List Char)) :
    ∃ more, interleave (a :: rest) gs = a ++ more := by
  cases rest with
  | nil => exact ⟨[], (List.append_nil a).symm⟩
  | cons b rest =>
    cases gs with
    | nil => exact ⟨_, rfl⟩
    | cons g gs => exact ⟨g ++ interleave (b :: rest) gs, by rw [interleave_cons, List.append_assoc]⟩

/-- **The first slot that is filled with another group is filled with an earlier one**, and the
text before it stays as it was. By induction on the slots: one that keeps its group keeps its
statement. -/
theorem exists_earlier {depth : Nat} {ms : List Node} : ∀ {old : Nat} {m : Node}, Stands t old (m :: ms) →
    (∀ x ∈ m :: ms, Item d t.chars depth x) →
    (∀ x ∈ m :: ms, Unclosed d t.chars x → (m :: ms).getLast? = some x) →
    ¬ InRankOrder (m :: ms) → ∀ tail : List Char, ∃ x ∈ m :: ms, ∃ q ∈ m :: ms, rankOf q < rankOf x ∧
      ∃ more, t.chars.toList.take m.span.start ++
          (interleave ((byRank (m :: ms)).map (statementText t)) (gaps t (m :: ms)) ++ tail) =
        t.chars.toList.take x.span.start ++ (statementText t q ++ more) := by
  induction ms with
  | nil => exact fun _ _ _ hout => absurd (List.pairwise_singleton _ _) hout
  | cons m' ms ih =>
    intro old m hstands hitems hlast hout tail
    obtain ⟨q, qs, hqs, hq, hleast⟩ := byRank_first m (m' :: ms)
    by_cases hlt : rankOf q < rankOf m
    · refine ⟨m, List.mem_cons_self, q, hq, hlt, ?_⟩
      obtain ⟨more, hmore⟩ := interleave_head (statementText t q) (qs.map (statementText t)) (gaps t (m :: m' :: ms))
      refine ⟨more ++ tail, ?_⟩
      rw [hqs, List.map_cons, hmore, List.append_assoc]
    · -- the statement in the first slot stays
      have hkeeps : ∀ x ∈ m' :: ms, rankOf m ≤ rankOf x := fun x hx => by
        have := hleast x (List.mem_cons_of_mem _ hx)
        omega
      have hb := hstands.bounds m List.mem_cons_self
      have hrest := hstands.2.2.2
      have hb' := hrest.bounds m' List.mem_cons_self
      have hclosed : ¬ Unclosed d t.chars m := by
        intro hun
        have hend := hlast m List.mem_cons_self hun
        rw [List.getLast?_cons_cons] at hend
        have := hrest.bounds m (List.mem_of_getLast? hend)
        omega
      obtain ⟨x, hx, q', hq', hearlier, more, hmore⟩ :=
        ih hrest (fun x hx => hitems x (List.mem_cons_of_mem _ hx))
          (fun x hx hun => by
            have := hlast x (List.mem_cons_of_mem _ hx) hun
            rwa [List.getLast?_cons_cons] at this)
          (fun h => hout (List.pairwise_cons.2 ⟨hkeeps, h⟩)) tail
      refine ⟨x, List.mem_cons_of_mem _ hx, q', List.mem_cons_of_mem _ hq', hearlier, more, ?_⟩
      obtain ⟨y, ys, hys, -, -⟩ := byRank_first m' ms
      rw [← hmore, byRank_cons hkeeps, hys, List.map_cons, List.map_cons, gaps, interleave_cons,
        statementText_of_closed (hitems m List.mem_cons_self) hclosed]
      rw [← @take_append_slice t.chars _ _ hb'.1, ← @take_append_slice t.chars _ _ (Nat.le_of_lt hb.2.1)]
      simp only [Source.sliceChars, List.append_assoc]

/-! ### Characters that count -/

theorem length_gaps (t : Source) (m : Node) (ms : List Node) : (gaps t (m :: ms)).length = ms.length := by
  induction ms generalizing m with
  | nil => rfl
  | cons x ms ih => rw [gaps, List.length_cons, ih, List.length_cons]

theorem solidCount_interleave {rest : List (List Char)} : ∀ {a : List Char} {gs : List (List Char)},
    gs.length = rest.length → solidCount (interleave (a :: rest) gs) =
      ((a :: rest).map solidCount).sum + (gs.map solidCount).sum := by
  induction rest with
  | nil =>
    intro a gs hlen
    rw [List.length_eq_zero_iff.1 hlen]
    simp [interleave]
  | cons b rest ih =>
    intro a gs hlen
    cases gs with
    | nil => cases hlen
    | cons g gs =>
      rw [interleave_cons, solidCount_append, solidCount_append, ih (Nat.succ.inj hlen)]
      simp only [List.map_cons, List.sum_cons]
      omega

/-- A semicolon does not count. -/
theorem solidCount_statementText (t : Source) (q : Node) :
    solidCount (statementText t q) = solidCount (t.sliceChars q.span.start q.span.stop) := by
  rcases statementText_cases t q with h | h
  · rw [h]
  · rw [h, solidCount_append]
    rfl

/-- The text from the first to the last of some statements. -/
theorem slice_eq_interleave {ms : List Node} : ∀ {old : Nat} {m : Node}, Stands t old (m :: ms) →
    t.sliceChars m.span.start (ms.getLastD m).span.stop =
      interleave ((m :: ms).map fun x => t.sliceChars x.span.start x.span.stop) (gaps t (m :: ms)) := by
  induction ms with
  | nil => exact fun _ => rfl
  | cons x ms ih =>
    intro old m h
    obtain ⟨-, hlt, -, hrest⟩ := h
    have hx := hrest.1
    have hlast := hrest.last.1
    have := ih hrest
    rw [List.map_cons] at this
    rw [List.map_cons, List.map_cons, gaps, interleave_cons, ← this, List.getLastD_cons,
      Source.sliceChars_append (Nat.le_of_lt hlt) hx, Source.sliceChars_append (by omega) (Nat.le_of_lt hlast)]

/-- **Filling the slots anew adds no characters that count.** -/
theorem solidCount_reordered {old : Nat} {m : Node} {ms : List Node} (h : Stands t old (m :: ms)) :
    solidCount (interleave ((byRank (m :: ms)).map (statementText t)) (gaps t (m :: ms))) =
      solidCount (t.sliceChars m.span.start (ms.getLastD m).span.stop) := by
  obtain ⟨q, qs, hqs, -, -⟩ := byRank_first m ms
  have hlen : qs.length = ms.length := by
    have := length_byRank (m :: ms)
    rw [hqs] at this
    exact Nat.succ.inj this
  have hsum := ((byRank_perm (m :: ms)).map fun q => solidCount (statementText t q)).sum_nat
  rw [hqs] at hsum
  rw [slice_eq_interleave h, hqs, List.map_cons, List.map_cons,
    solidCount_interleave (by rw [length_gaps, List.length_map, hlen]),
    solidCount_interleave (by rw [length_gaps, List.length_map])]
  simp only [List.map_cons, List.map_map, Function.comp_def, solidCount_statementText] at hsum ⊢
  rw [hsum]

/-! ### The edit -/

/-- **Putting a block in order makes the text lighter.** -/
theorem lightens_of_fix {c : Context} {tree : Node} {e : Edit}
    (hparse : Stylesheet.parse .css c.text.chars = .ok tree) (h : Misplaced c.text tree c)
    (hfix : fix c = some e) : Lightens c.text e := by
  obtain ⟨-, hmem, hlabel, hout⟩ := h
  set t := c.text with ht
  obtain ⟨ns, r, hr, -, rfl⟩ := parse_iff.1 hparse
  have hblock := mem_walkList_of_block hmem hlabel
  obtain ⟨k, brace, children, last, close, hshape, -, hlt, hle, -, hin, trivia, char⟩ :=
    hr.block (Nat.zero_le _) hblock hlabel
  have hclose := (Array.getElem?_eq_some_iff.1 char).1
  have hp : brace + 1 ≤ t.chars.size := by omega
  obtain ⟨m, ms, hms, hspan, hreplacement⟩ := fix_shape hfix
  have hchildren : c.scope.parent.children = children := by rw [hshape]; rfl
  rw [movable, hchildren] at hms
  rw [movable, hchildren] at hout
  change children.filter isMovable = m :: ms at hms
  change ¬ InRankOrder (children.filter isMovable) at hout
  have hstands := (stands_of_reads hin hp).filter isMovable
  have hlast := getLast?_of_movable hin hp
  rw [hms] at hout hstands hlast
  have hmem : ∀ x ∈ m :: ms, x ∈ children := fun x hx => by
    rw [← hms] at hx
    exact (List.mem_filter.1 hx).1
  have hmovable : ∀ x ∈ m :: ms, isMovable x = true := fun x hx => by
    rw [← hms] at hx
    exact (List.mem_filter.1 hx).2
  have hitems : ∀ x ∈ m :: ms, Item .css t.chars k x := fun x hx => (hin.items hp x (hmem x hx)).1
  have hstop : e.span.stop = (ms.getLastD m).span.stop := by
    rw [hspan, Span.between_stop, Nat.max_eq_right (Nat.le_of_lt hstands.last.1)]
  have hstart : e.span.start = m.span.start := by rw [hspan, Span.between_start]
  refine lightens_of_count ?_ fun src' more hsrc' hcount => ?_
  · rw [hreplacement, solidCount_reordered hstands, hstart, hstop]
  obtain ⟨x, hx, q, hq, hearlier, more', heq⟩ := exists_earlier hstands hitems hlast hout more
  rw [hreplacement, hstart, heq] at hsrc'
  have hxstart := (hitems x hx).rest.2.lt_size
  obtain ⟨hagree, hdrop⟩ := agree_of_take (Nat.le_of_lt hxstart) hsrc'
  have hrest : skipTrivia .css src' x.span.start = .ok x.span.start ∧ Starts src' x.span.start := by
    obtain ⟨extra, hextra⟩ := statementText_prefix t q
    rw [hextra, List.append_assoc] at hdrop
    exact (hitems q hq).rest_agree (agree_of_drop (hitems q hq).bounds.2.1 hdrop)
  have hwalk : x ∈ walkList ns := by
    exact Node.mem_walkList_trans (Node.mem_walk_of_child (hchildren ▸ hmem x hx)) ns hblock
  refine weight_lt_of_start hagree (item_of_movable hr hwalk (hmovable x hx)).1 hrest.1 hrest.2 ?_ hcount
  rw [headRank_of_item (hitems x hx),
    headRank_inSlot (hitems q hq) (fun hun => scan_of_unclosed hin hp trivia char (hmem q hq) hun) hdrop]
  exact hearlier

end HouseStyle.PropertyOrder
