import HouseStyle.Fix.Edits
import HouseStyle.Proofs.Check.Walk
import HouseStyle.Proofs.Parse.Parsed
import HouseStyle.Proofs.Text.Lines
import HouseStyle.Proofs.Text.Selection
import HouseStyle.Rule.MetaPosition

/-!
# The options class in its place

* `layout?_spec`: a layout is that of the last field and the first options class.
* `check_eq_nil_iff`: when there is nothing to report of a class.
* `visible_of_fix`: the move writes the options class after the code up to the last field,
  or before the code that it follows, and adds nothing but blanks.
* `visible_apply_fix`: so it keeps the code of a class, blanks apart.
* `Keeps`: what the move has to keep of a class.
-/

namespace HouseStyle.MetaPosition

variable {t : Source} {o : ModelMetaOptions} {n : Node} {c : Context}

/-- The statements of the body of a class. -/
def members (n : Node) : List Node :=
  ((n.children.find? fun c => c.hasShape .indentedBlock).map Node.children).getD []

/-! ### The layout of a class -/

/-- The last place with a property is one with it, and no later one is. -/
theorem lastIndex?_spec {α : Type} {p : α → Bool} {items : List α} {i : Nat}
    (h : lastIndex? p items = some i) :
    ∃ x, items[i]? = some x ∧ p x = true ∧ ∀ j y, i < j → items[j]? = some y → p y = false := by
  obtain ⟨k, hk, rfl⟩ := Option.map_eq_some_iff.1 h
  obtain ⟨hlt, hp, hbefore⟩ := List.findIdx?_eq_some_iff_getElem.1 hk
  rw [List.length_reverse] at hlt
  rw [List.getElem_reverse] at hp
  refine ⟨_, List.getElem?_eq_getElem _, hp, fun j y hj hy => ?_⟩
  obtain ⟨hjlt, rfl⟩ := List.getElem?_eq_some_iff.1 hy
  have := hbefore (items.length - 1 - j) (by omega)
  rw [List.getElem_reverse] at this
  simp only [show items.length - 1 - (items.length - 1 - j) = j by omega] at this
  exact Bool.eq_false_iff.2 this

theorem lastIndex?_eq_none_iff {α : Type} {p : α → Bool} {items : List α} :
    lastIndex? p items = none ↔ ∀ x ∈ items, p x = false := by
  rw [lastIndex?, Option.map_eq_none_iff, List.findIdx?_eq_none_iff]
  simp only [List.mem_reverse]

/-- A layout is that of a class: of its last field and its first options class. -/
structure Layout.Of (t : Source) (o : ModelMetaOptions) (n : Node) (l : Layout) : Prop where
  optionsClass : (members n)[l.metaIndex]? = some l.optionsClass
  isMeta : isMeta o l.optionsClass = true
  first : ∀ j m, j < l.metaIndex → (members n)[j]? = some m → MetaPosition.isMeta o m = false
  field : ∃ m, (members n)[l.fieldIndex]? = some m ∧ isField m = true ∧ l.fieldLastLine = lastLine t m
  last : ∀ j m, l.fieldIndex < j → (members n)[j]? = some m → isField m = false
  metaLastLine : l.metaLastLine = lastLine t l.optionsClass
  metaChunkStart : l.metaChunkStart = commentStart t (firstLine t l.optionsClass)

theorem layout?_spec {l : Layout} (h : layout? t o n = some l) : l.Of t o n := by
  unfold layout? at h
  split at h
  · cases h
  rename_i body hbody
  have hmembers : members n = body.children := by rw [members, hbody]; rfl
  split at h
  · rename_i i k hi hk
    split at h
    · rename_i m f hm hf
      cases h
      obtain ⟨hlt, hmeta, hfirst⟩ := List.findIdx?_eq_some_iff_getElem.1 hi
      obtain ⟨f', hf', hfield, hlast⟩ := lastIndex?_spec hk
      obtain rfl : f' = f := Option.some.inj (hf'.symm.trans hf)
      obtain ⟨_, hget⟩ := List.getElem?_eq_some_iff.1 hm
      rw [hget] at hmeta
      rw [← hmembers] at hm hf hlast
      refine ⟨hm, hmeta, fun j m hj hm => ?_, ⟨_, hf, hfield, rfl⟩, hlast, rfl, rfl⟩
      rw [hmembers] at hm
      obtain ⟨_, rfl⟩ := List.getElem?_eq_some_iff.1 hm
      exact Bool.eq_false_iff.2 (hfirst j hj)
    · cases h
  · cases h

/-- A class has a layout when it has a field and an options class. -/
theorem layout?_eq_none_iff :
    layout? t o n = none ↔
      (∀ m ∈ members n, isMeta o m = false) ∨ ∀ m ∈ members n, isField m = false := by
  unfold layout? members
  split
  · rename_i hbody
    rw [hbody]
    exact ⟨fun _ => .inl (List.forall_mem_nil _), fun _ => rfl⟩
  rename_i body hbody
  rw [hbody, Option.map_some, Option.getD_some, ← List.findIdx?_eq_none_iff, ← lastIndex?_eq_none_iff]
  cases hi : body.children.findIdx? (isMeta o) with
  | none => simp
  | some i =>
    cases hk : lastIndex? isField body.children with
    | none => simp
    | some k =>
      obtain ⟨hlt, -⟩ := List.findIdx?_eq_some_iff_getElem.1 hi
      obtain ⟨f, hf, -⟩ := lastIndex?_spec hk
      simp [hlt, hf]

/-! ### What is reported -/

theorem problem?_eq_none_iff {l : Layout} :
    problem? t l = none ↔ l.metaIndex = l.fieldIndex + 1 ∧ l.metaChunkStart = l.fieldLastLine + 2 ∧
      isBlankText (t.lineText (l.fieldLastLine + 1)) = true := by
  unfold problem? hasSeparator
  by_cases hplace : l.metaIndex = l.fieldIndex + 1
  · rw [if_neg (not_not.2 hplace)]
    simp [hplace]
  · rw [if_pos hplace]
    simp [hplace]

/-- **There is nothing to report of a class** exactly when it lacks a field or an options
class, or the options class follows the last field after one blank line. -/
theorem check_eq_nil_iff : check n c = [] ↔
    ∀ l, layout? c.text (c.options .modelMetaPosition) n = some l →
      l.metaIndex = l.fieldIndex + 1 ∧ l.metaChunkStart = l.fieldLastLine + 2 ∧
        isBlankText (c.text.lineText (l.fieldLastLine + 1)) = true := by
  unfold check
  split
  · rename_i hnone
    exact ⟨fun _ l h => by simp [hnone] at h, fun _ => rfl⟩
  · rename_i l hl
    constructor
    · intro h l' hl'
      obtain rfl : l = l' := Option.some.inj (hl.symm.trans hl')
      split at h
      · rename_i hproblem
        exact problem?_eq_none_iff.1 hproblem
      · cases h
    · intro h
      rw [problem?_eq_none_iff.2 (h l hl)]

/-! ### The move -/

theorem replace_eq_ok {start stop : Nat} {text : String} {e : Edit}
    (h : replace c start stop text = .ok (some e)) :
    e.span.start = start ∧ e.span.stop = stop ∧ e.replacement = text := by
  unfold replace Span.ofBounds? at h
  split at h
  · rename_i span hspan
    split at hspan
    · cases hspan
      cases h
      exact ⟨Int.toNat_natCast _, Int.toNat_natCast _, rfl⟩
    · cases hspan
  · cases h

theorem visible_tidy (t : Source) (cs : List Char) : visible (tidy t.newline cs).toList = visible cs := by
  have hkept : visible (dropEnds (·.all isBlank) (splitLines cs)).flatten = visible cs := by
    rw [visible_flatten_dropEnds, flatten_splitLines]
  unfold tidy
  simp only
  split
  · rw [String.toList_ofList, hkept]
  · rw [String.toList_append, String.toList_ofList, visible_append, hkept, t.visible_newline, List.append_nil]

theorem visible_metaText (t : Source) (start stop : Nat) :
    visible (metaText t start stop).toList = visible (t.sliceChars start stop) := by
  unfold metaText
  simp only
  split
  · rw [String.toList_ofList]
  · rw [String.toList_append, String.toList_ofList, visible_append, t.visible_newline, List.append_nil]

/-- The move writes the options class after the code that follows it up to the last
field, or before the code between the last field and it, or only puts a line break
between the two; besides blanks it writes nothing else. -/
theorem visible_of_fix {e : Edit} (h : fix n c = .ok (some e)) :
    ∃ l, layout? c.text (c.options .modelMetaPosition) n = some l ∧
      let metaStart := c.text.lineStart l.metaChunkStart
      let metaStop := c.text.lineEndWithBreak l.metaLastLine
      let fieldStop := c.text.lineEndWithBreak l.fieldLastLine
      ((l.metaIndex < l.fieldIndex ∧ e.span.start = metaStart ∧ e.span.stop = fieldStop ∧
          visible e.replacement.toList = visible (c.text.sliceChars metaStop fieldStop) ++
            visible (c.text.sliceChars metaStart metaStop)) ∨
        (l.fieldIndex + 1 < l.metaIndex ∧ e.span.start = fieldStop ∧ e.span.stop = metaStop ∧
          visible e.replacement.toList = visible (c.text.sliceChars metaStart metaStop) ++
            visible (c.text.sliceChars fieldStop metaStart)) ∨
        (e.span.start = fieldStop ∧ e.span.stop = metaStart ∧ e.replacement = c.text.newline ∧
          visible (c.text.sliceChars fieldStop metaStart) = [])) := by
  unfold fix at h
  simp only at h
  split at h
  · cases h
  rename_i l hl
  refine ⟨l, hl, ?_⟩
  split at h
  · obtain ⟨hstart, hstop, htext⟩ := replace_eq_ok h
    refine .inl ⟨‹_›, hstart, hstop, ?_⟩
    rw [htext, String.toList_append, String.toList_append, visible_append, visible_append, visible_tidy,
      visible_metaText, c.text.visible_newline, List.append_nil]
  split at h
  · obtain ⟨hstart, hstop, htext⟩ := replace_eq_ok h
    refine .inr (.inl ⟨‹_›, hstart, hstop, ?_⟩)
    simp only [htext, String.toList_append, visible_append, visible_tidy, visible_metaText,
      c.text.visible_newline, List.append_nil, List.nil_append]
  split at h
  · cases h
  split at h
  · obtain ⟨hstart, hstop, htext⟩ := replace_eq_ok h
    exact .inr (.inr ⟨hstart, hstop, htext, visible_eq_nil ‹_›⟩)
  · cases h

/-- The move ends in the text. -/
theorem stop_le_of_fix {e : Edit} (h : fix n c = .ok (some e)) :
    e.span.stop ≤ c.text.chars.toList.length := by
  obtain ⟨l, -, hcases⟩ := visible_of_fix h
  rw [Array.length_toList]
  rcases hcases with ⟨-, -, hstop, -⟩ | ⟨-, -, hstop, -⟩ | ⟨-, hstop, -⟩
  · exact hstop ▸ c.text.lineEndWithBreak_le_size _
  · exact hstop ▸ c.text.lineEndWithBreak_le_size _
  · exact hstop ▸ c.text.lineStart_le_size _

/-- **The move keeps the code of a class**: the text has the same characters before and
after it, blanks apart, when the lines of the class come in the order of its statements. -/
theorem visible_apply_fix {e : Edit} {l : Layout} {text : List Char} (h : fix n c = .ok (some e))
    (hl : layout? c.text (c.options .modelMetaPosition) n = some l)
    (hmeta : l.metaChunkStart ≤ l.metaLastLine)
    (hbefore : l.metaIndex < l.fieldIndex → l.metaLastLine ≤ l.fieldLastLine)
    (hafter : l.fieldIndex + 1 < l.metaIndex → l.fieldLastLine < l.metaChunkStart)
    (happly : Edit.applyAll c.text.chars.toList [e] = .ok text) :
    (visible text).Perm (visible c.text.chars.toList) := by
  rw [Edit.applyAll_singleton (stop_le_of_fix h)] at happly
  cases happly
  -- what is replaced and what replaces it have the same visible characters
  suffices hpart : (visible e.replacement.toList).Perm
      (visible (c.text.sliceChars e.span.start e.span.stop)) by
    rw [Edit.splice, visible_append, visible_append]
    conv_rhs => rw [← List.take_append_drop e.span.start c.text.chars.toList,
      ← Source.sliceChars_append_drop e.span.start_le_stop, visible_append, visible_append,
      ← List.append_assoc]
    exact (hpart.append_left _).append_right _
  have hchunk := c.text.lineStart_le_lineEndWithBreak hmeta
  obtain ⟨l', hl', hcases⟩ := visible_of_fix h
  obtain rfl : l = l' := Option.some.inj (hl.symm.trans hl')
  rcases hcases with
    ⟨hlt, hstart, hstop, htext⟩ | ⟨hlt, hstart, hstop, htext⟩ | ⟨hstart, hstop, htext, hblank⟩
  · rw [hstart, hstop, htext, ← Source.sliceChars_append hchunk (c.text.lineEndWithBreak_mono (hbefore hlt)),
      visible_append]
    exact List.perm_append_comm
  · rw [hstart, hstop, htext,
      ← Source.sliceChars_append (c.text.lineEndWithBreak_le_lineStart (hafter hlt)) hchunk, visible_append]
    exact List.perm_append_comm
  · rw [hstart, hstop, htext, hblank, c.text.visible_newline]

/-! ### What has to stay -/

/-- What moving the options class has to keep of a class: its statements, the order of
those that are no options class, and the code outside of the class; and there is
nothing left to report of the class. -/
structure Keeps (o : ModelMetaOptions) (t : Source) (n : Node) (t' : Source) (n' : Node) : Prop where
  statements : ((members n').map (t'.sliceSpan ·.span)).Perm ((members n).map (t.sliceSpan ·.span))
  order : ((members n').filter (!isMeta o ·)).map (t'.sliceSpan ·.span) =
    ((members n).filter (!isMeta o ·)).map (t.sliceSpan ·.span)
  before : t'.chars.toList.take n'.span.start = t.chars.toList.take n.span.start
  after : t'.chars.toList.drop n'.span.stop = t.chars.toList.drop n.span.stop
  silent : ∀ c : Context, c.text = t' → c.options .modelMetaPosition = o → check n' c = []

/-- A line of a string that looks like a comment is moved along with the options class
below it, and the string swallows a field. -/
theorem offer_loses_field : ∃ p tree found f edit text,
    parse .python (.ofString
        "class A:\n    x = \"\"\"\n    # foo\"\"\"\n    class Meta:\n        pass\n    y = 1\n") = .ok p ∧
      p.tree? = some tree ∧ matchTree p [modelMetaPosition] .default = .ok found ∧ f ∈ found ∧
      f.rule = modelMetaPosition ∧ f.offer = .ok (some edit) ∧
      Edit.applyAll p.text.chars.toList [edit] = .ok text ∧
      ¬ ∃ p' tree' n', parse .python (.ofChars text.toArray) = .ok p' ∧ p'.tree? = some tree' ∧
        n' ∈ Node.walk tree' ∧
        Keeps (schema .modelMetaPosition).default p.text f.node (.ofChars text.toArray) n' := by
  set t : Source := .ofString
    "class A:\n    x = \"\"\"\n    # foo\"\"\"\n    class Meta:\n        pass\n    y = 1\n" with ht
  -- whatever the new text is parsed to has no class with as many statements
  have hb : ((parse .python t).toOption.bind fun p => p.tree?.bind fun _ =>
      (matchTree p [modelMetaPosition] .default).toOption.bind fun found => found.head?.bind fun f =>
      (fix f.node f.context).toOption.bind fun edit? => edit?.filter fun edit =>
        ((parse .python (.ofChars (Edit.splice p.text.chars.toList edit).toArray)).toOption.bind
          Parsed.tree?).all fun tree' =>
            (Node.walk tree').all fun n' => (members n').length != (members f.node).length).isSome = true := by
    rw [ht]
    decide +kernel
  obtain ⟨_, hb⟩ := Option.isSome_iff_exists.1 hb
  simp only [Option.bind_eq_some_iff, toOption_eq_some, Option.filter_eq_some_iff] at hb
  obtain ⟨p, hp, tree, htree, found, hfound, f, hf, _, hedit, rfl, hread⟩ := hb
  have hmem : f ∈ found := List.mem_of_mem_head? hf
  obtain ⟨hrule, htext⟩ := origin_of_matchTree hfound f hmem
  replace hrule := List.mem_singleton.1 hrule
  have hstop := stop_le_of_fix hedit
  rw [htext] at hstop
  refine ⟨p, tree, found, f, _, _, hp, htree, hfound, hmem, hrule, ?_, Edit.applyAll_singleton hstop, ?_⟩
  · rw [Finding.offer, hrule]
    exact hedit
  rintro ⟨p', tree', n', hp', htree', hn', hkeeps⟩
  rw [hp', Except.toOption, Option.bind_some, htree', Option.all_some, List.all_eq_true] at hread
  have hlen := hkeeps.statements.length_eq
  rw [List.length_map, List.length_map] at hlen
  exact bne_iff_ne.1 (hread n' hn') hlen

end HouseStyle.MetaPosition
