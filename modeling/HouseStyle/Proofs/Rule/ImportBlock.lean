import HouseStyle.Fix.Edits
import HouseStyle.Proofs.Check.Walk
import HouseStyle.Proofs.Parse.Parsed
import HouseStyle.Proofs.Text.Lines
import HouseStyle.Proofs.Text.Selection
import HouseStyle.Rule.ImportGrouping
import Mathlib.Data.List.Basic
import Mathlib.Data.Prod.Lex
import Mathlib.Data.String.Basic

/-!
# The block of imports in order

* `before_iff`: entries are compared by a key; `sorted_pairwise`, `sorted_stable`: putting
  them in order is a stable sort by that key.
* `rewrite`: the edit for the block of imports in any order.
* `apply_fix`: it can be performed, and puts the texts of the groups in place of the block;
  `join_groupTexts`: these hold the lines of each entry once.
* `Keeps`: what the edit has to keep of a module.
-/

namespace HouseStyle.ImportGrouping

variable {t : Source}

/-! ### Order -/

/-- What entries are compared by. -/
def Entry.key (e : Entry) : Nat ×ₗ String ×ₗ Nat ×ₗ String :=
  toLex (e.group.rank, toLex (caseFold e.path, toLex (e.isFrom.toNat, e.path)))

theorem isFrom_eq_iff {a b : Entry} : a.isFrom = b.isFrom ↔ a.isFrom.toNat = b.isFrom.toNat := by
  cases a.isFrom <;> cases b.isFrom <;> decide

theorem before_iff {a b : Entry} : a.before b = true ↔ a.key < b.key := by
  unfold Entry.before Entry.key
  simp only [Bool.or_eq_true, Bool.and_eq_true, decide_eq_true_eq, beq_iff_eq, isFrom_eq_iff,
    Prod.Lex.toLex_lt_toLex]

theorem before_eq_false_iff {a b : Entry} : b.before a = false ↔ a.key ≤ b.key := by
  rw [← Bool.not_eq_true, before_iff, not_lt]

theorem notBefore_trans (a b c : Entry) (hab : (!b.before a) = true) (hbc : (!c.before b) = true) :
    (!c.before a) = true := by
  rw [Bool.not_eq_true', before_eq_false_iff] at hab hbc ⊢
  exact le_trans hab hbc

theorem notBefore_total (a b : Entry) : (!b.before a || !a.before b) = true := by
  rw [Bool.or_eq_true, Bool.not_eq_true', Bool.not_eq_true', before_eq_false_iff, before_eq_false_iff]
  exact le_total _ _

theorem sorted_perm (es : List Entry) : (sorted es).Perm es :=
  List.mergeSort_perm _ _

/-- **The entries in order** never come before an earlier one. -/
theorem sorted_pairwise (es : List Entry) : (sorted es).Pairwise fun a b => b.before a = false := by
  have hsorted := List.pairwise_mergeSort notBefore_trans notBefore_total es
  exact hsorted.imp fun h => by simpa using h

/-- Entries that compare alike stay in their order. -/
theorem sorted_stable {a b : Entry} {es : List Entry} (h : b.before a = false) (hab : [a, b].Sublist es) :
    [a, b].Sublist (sorted es) := by
  refine List.sublist_mergeSort notBefore_trans notBefore_total ?_ hab
  exact List.pairwise_pair.2 (by rw [h]; rfl)

/-! ### What has to stay -/

/-- The documentation string of a module. -/
def docstring? (root : Node) : Option Node :=
  root.children.head?.filter isDocstring

/-- The statements of a module after its block of imports. -/
def afterImports (t : Source) (o : ImportGroupingOptions) (root : Node) : List Node :=
  let statements := if (docstring? root).isSome then root.children.tail else root.children
  statements.drop (entries t o root).length

/-- What a rewrite of the block of imports has to keep of a module: its documentation
string and the statements after the block; and the statements of the block, which
are then in order and give nothing to report. -/
structure Keeps (o : ImportGroupingOptions) (t : Source) (root : Node) (t' : Source) (root' : Node) :
    Prop where
  docstring : (docstring? root').map (t'.sliceSpan ·.span) = (docstring? root).map (t.sliceSpan ·.span)
  after : (afterImports t' o root').map (t'.sliceSpan ·.span) =
    (afterImports t o root).map (t.sliceSpan ·.span)
  imports : ((entries t' o root').map (t'.sliceSpan ·.node.span)).Perm
    ((entries t o root).map (t.sliceSpan ·.node.span))
  ordered : (entries t' o root').Pairwise fun a b => b.before a = false
  silent : ∀ c : Context, c.text = t' → c.options .importGrouping = o → check root' c = []

/-! ### The edit -/

/-- The edit that puts the entries `queue` in place of the entries `es`. -/
def rewrite (c : Context) (es queue : List Entry) : Option Edit :=
  let t := c.text
  match es, es.getLast? with
  | first :: _ :: _, some last =>
    if sharesLine es then none
    else
      let start := t.lineStart first.chunkStart
      let stop := t.lineEndWithBreak last.lastLine
      let before := t.sliceChars start stop
      let text := (t.newline.intercalate (groupTexts t queue)).toList
      let after := if before.getLast? == some '\n' then text
        else text.take (text.length - t.newline.length)
      if after = before then none
      else some { span := .between start stop, replacement := String.ofList after, rule := c.info.id }
  | _, _ => none

theorem fix_eq_rewrite (n : Node) (c : Context) : fix n c =
    rewrite c (entries c.text (c.options .importGrouping) n)
      (sorted (entries c.text (c.options .importGrouping) n)) :=
  rfl

/-- Group by group, the texts hold the lines of each entry once. -/
theorem join_groupTexts (t : Source) (es : List Entry) :
    String.join (groupTexts t es) = String.join (es.map (chunk t)) := by
  induction es with
  | nil => rfl
  | cons e rest ih =>
    rw [List.map_cons, String.join_cons, ← ih]
    conv_lhs => unfold groupTexts
    split
    · rename_i text more hmore
      rw [hmore, String.join_cons]
      split
      · rw [String.join_cons, String.append_assoc]
      · rw [String.join_cons, String.join_cons]
    · rw [String.join_cons]

/-- What the edit for the block is, if there is one: `n` is the length of a line break
when the block ends the text without one, and zero otherwise. -/
theorem rewrite_cases {c : Context} {es queue : List Entry} {e : Edit} (h : rewrite c es queue = some e) :
    ∃ first last n, es.head? = some first ∧ es.getLast? = some last ∧ n ≤ c.text.newline.length ∧
      e.span = .between (c.text.lineStart first.chunkStart) (c.text.lineEndWithBreak last.lastLine) ∧
      e.replacement.toList =
        let full := (c.text.newline.intercalate (groupTexts c.text queue)).toList
        full.take (full.length - n) := by
  unfold rewrite at h
  split at h
  · rename_i first second rest last hlast
    split at h
    · cases h
    · simp only at h
      split at h
      · split at h
        · cases h
        · cases h
          refine ⟨first, last, 0, rfl, hlast, Nat.zero_le _, rfl, ?_⟩
          exact String.toList_ofList.trans List.take_length.symm
      · split at h
        · cases h
        · cases h
          exact ⟨first, last, _, rfl, hlast, Nat.le_refl _, rfl, String.toList_ofList⟩
  · cases h

/-- The edit for the block ends in the text. -/
theorem stop_le_of_rewrite {c : Context} {es queue : List Entry} {e : Edit} (h : rewrite c es queue = some e) :
    e.span.stop ≤ c.text.chars.toList.length := by
  obtain ⟨first, last, -, -, -, -, hspan, -⟩ := rewrite_cases h
  rw [hspan, Span.between_stop, Array.length_toList]
  exact max_le (c.text.lineStart_le_size _) (c.text.lineEndWithBreak_le_size _)

/-- **The edit for the block can be performed**: the texts of the groups in order stand
in place of the lines from the first entry to the last. -/
theorem apply_fix {n : Node} {c : Context} {e : Edit} (h : fix n c = some e) :
    ∃ first last k, (entries c.text (c.options .importGrouping) n).head? = some first ∧
      (entries c.text (c.options .importGrouping) n).getLast? = some last ∧
      k ≤ c.text.newline.length ∧
      Edit.applyAll c.text.chars.toList [e] =
        let start := c.text.lineStart first.chunkStart
        let stop := max start (c.text.lineEndWithBreak last.lastLine)
        let full := (reordered c.text (entries c.text (c.options .importGrouping) n)).toList
        .ok (c.text.chars.toList.take start ++ full.take (full.length - k) ++
          c.text.chars.toList.drop stop) := by
  rw [fix_eq_rewrite] at h
  obtain ⟨first, last, k, hfirst, hlast, hk, hspan, htext⟩ := rewrite_cases h
  refine ⟨first, last, k, hfirst, hlast, hk, ?_⟩
  rw [Edit.applyAll_singleton (stop_le_of_rewrite h), Edit.splice, hspan, htext]
  rfl

theorem sorted_swap {a b : Entry} (h : b.before a = true) : sorted [a, b] = [b, a] := by
  simp [sorted, List.mergeSort, h]

/-- A line of the documentation string that looks like a comment is moved along
with the import below it. -/
theorem offer_moves_docstring : ∃ p tree found f edit text,
    parse .python (.ofString "\"\"\"doc\n# note\"\"\"\nimport os\nimport abc\n") = .ok p ∧
      p.tree? = some tree ∧ matchTree p [importGrouping] .default = .ok found ∧ f ∈ found ∧
      f.rule = importGrouping ∧
      f.offer = .ok (some edit) ∧ Edit.applyAll p.text.chars.toList [edit] = .ok text ∧
      ¬ ∃ p' tree', parse .python (.ofChars text.toArray) = .ok p' ∧ p'.tree? = some tree' ∧
        Keeps (schema .importGrouping).default p.text tree (.ofChars text.toArray) tree' := by
  set t : Source := .ofString "\"\"\"doc\n# note\"\"\"\nimport os\nimport abc\n" with ht
  -- the order of the two entries is tested by itself, for sorting does not evaluate
  have hb : ((parse .python t).toOption.bind fun p => p.tree?.bind fun tree =>
      (matchTree p [importGrouping] .default).toOption.bind fun found => found.head?.bind fun f =>
      let es := entries f.context.text (f.context.options .importGrouping) f.node
      es[0]?.bind fun a => es[1]?.bind fun b => (rewrite f.context [a, b] [b, a]).filter fun edit =>
        es.length == 2 && b.before a &&
          ((parse .python (.ofChars (Edit.splice p.text.chars.toList edit).toArray)).toOption.bind
            fun p' => p'.tree?.map fun tree' => (docstring? tree').map (p'.text.sliceSpan ·.span)).all
              fun text => text != (docstring? tree).map (p.text.sliceSpan ·.span)).isSome = true := by
    rw [ht]
    decide +kernel
  obtain ⟨_, hb⟩ := Option.isSome_iff_exists.1 hb
  simp only [Option.bind_eq_some_iff, toOption_eq_some, Option.filter_eq_some_iff, Bool.and_eq_true,
    beq_iff_eq] at hb
  obtain ⟨p, hp, tree, htree, found, hfound, f, hf, a, ha, b, hb, hedit, ⟨hlen, hbefore⟩, hread⟩ := hb
  have hes : entries f.context.text (f.context.options .importGrouping) f.node = [a, b] := by
    obtain ⟨x, y, hes⟩ := List.length_eq_two.1 hlen
    rw [hes] at ha hb ⊢
    cases ha
    cases hb
    rfl
  have hmem : f ∈ found := List.mem_of_mem_head? hf
  obtain ⟨hrule, htext⟩ := origin_of_matchTree hfound f hmem
  replace hrule := List.mem_singleton.1 hrule
  have hstop := stop_le_of_rewrite hedit
  rw [htext] at hstop
  refine ⟨p, tree, found, f, _, _, hp, htree, hfound, hmem, hrule, ?_, Edit.applyAll_singleton hstop, ?_⟩
  · rw [Finding.offer, hrule]
    show Except.ok (fix f.node f.context) = _
    rw [fix_eq_rewrite, hes, sorted_swap hbefore, hedit]
  rintro ⟨p', tree', hp', htree', hkeeps⟩
  rw [hp', Except.toOption, Option.bind_some, htree', Option.map_some, Option.all_some,
    parse_text hp'] at hread
  exact bne_iff_ne.1 hread hkeeps.docstring

end HouseStyle.ImportGrouping
