import HouseStyle.Fix.Edits
import HouseStyle.Proofs.Parse.Parsed
import HouseStyle.Proofs.Rule.OutOfOrder
import Mathlib.Data.List.Forall2

/-!
# A stylesheet with one block in order

* `reorderedText`, `reorderedBlock`: the text and the block that the edit leads to.
* `Rearranges`: what became of the children of the block.
* `parse_reordered`: exactly when the edit leads to the tree with that block.
-/

namespace HouseStyle.PropertyOrder

open Stylesheet
open Node (relocateList walkList Replaced)

variable {d : Dialect} {t : Source}

/-- The text in which the children of a block are in order. -/
def reorderedText (t : Source) (block : Node) : List Char :=
  let inside := block.span.start + 1
  t.chars.toList.take inside ++ refill t inside (movable block) (ordered block)

/-- The block whose children are in order. -/
def reorderedBlock (t : Source) (block : Node) : Node :=
  let inside := block.span.start + 1
  nodeOf .block block.span.start ((reorderedText t block).length - (t.size - block.span.stop))
    (place t inside inside (ordered block) block.children)

theorem refill_tail {close : Nat} {ms : List Node} : ∀ {old : Nat} (queue : List Node), old ≤ close →
    (∀ m ∈ ms, m.span.stop ≤ close) →
    ∃ before, refill t old ms queue = before ++ t.chars.toList.drop close := by
  induction ms with
  | nil => exact fun _ hle _ => ⟨_, (Source.sliceChars_append_drop hle).symm⟩
  | cons m ms ih =>
    intro old queue hle hms
    cases queue with
    | nil => exact ⟨_, (Source.sliceChars_append_drop hle).symm⟩
    | cons q queue =>
      obtain ⟨before, hbefore⟩ := ih queue (hms m List.mem_cons_self)
        fun x hx => hms x (List.mem_cons_of_mem _ hx)
      refine ⟨t.sliceChars old m.span.start ++ (statementText t q ++ before), ?_⟩
      rw [refill, hbefore, List.append_assoc, List.append_assoc]

/-- The text in which a block is in order differs from the source inside the block only. -/
theorem reorderedText_agree {block : Node} {brace close : Nat} {src' : Array Char}
    (hsrc : src' = (reorderedText t block).toArray) (hstart : block.span.start = brace) (hlt : brace < close)
    (hclose : close < t.size) (hstops : ∀ m ∈ movable block, m.span.stop ≤ close) :
    src'.toList.drop (brace + 1) = refill t (brace + 1) (movable block) (ordered block) ∧
      Agree t.chars src' 0 0 (brace + 1) ∧
      ∃ close', brace < close' ∧ src'.size = close' + (t.size - close) ∧
        Agree t.chars src' close close' (t.size - close + 1) := by
  have hs : t.size = t.chars.size := rfl
  have hlist : src'.toList = t.chars.toList.take (brace + 1) ++
      refill t (brace + 1) (movable block) (ordered block) := by
    rw [hsrc, ← hstart]
    rfl
  have hlen : (t.chars.toList.take (brace + 1)).length = brace + 1 := by
    rw [List.length_take, Array.length_toList]
    omega
  obtain ⟨hagree, hdrop⟩ := agree_of_take (show brace + 1 ≤ t.chars.size by omega) hlist
  obtain ⟨inside, hinside⟩ := refill_tail (ordered block) (Nat.succ_le_of_lt hlt) hstops
  have hall : src'.toList = (t.chars.toList.take (brace + 1) ++ inside) ++ t.chars.toList.drop close := by
    rw [hlist, hinside, List.append_assoc]
  have hdropAll : src'.toList.drop (brace + 1 + inside.length) = t.chars.toList.drop close := by
    rw [hall, List.drop_left' (by rw [List.length_append, hlen])]
  have hsize := congrArg List.length hall
  rw [Array.length_toList, List.length_append, List.length_append, hlen, List.length_drop,
    Array.length_toList] at hsize
  exact ⟨hdrop, hagree, brace + 1 + inside.length, by omega, hsize, (agree_of_drop_all hdropAll).1⟩

theorem mem_walk_of_replaced {old new n n' : Node} (h : Replaced old new n n') : new ∈ Node.walk n' := by
  induction h with
  | here => exact Node.mem_walk_self _
  | inside inner _ _ ih =>
    rw [Node.walk_eq, Node.walkList_append, Node.walkList_cons]
    exact List.mem_cons_of_mem _ (List.mem_append_right _ (List.mem_append_left _ ih))

/-- The statements of a block fill its slots in order. -/
theorem fills_ordered {depth p r : Nat} {ns : List Node} (h : Reads d t.chars depth p ns r)
    (hp : p ≤ t.size) : Fills d t depth (byRank (ns.filter isMovable)) ns := by
  refine ⟨length_byRank _, fun q hq => ?_, fun q hq => ?_, fun q hq hun => ?_⟩
  · exact (h.items hp q (List.mem_filter.1 (mem_byRank.1 hq)).1).1
  · exact (List.mem_filter.1 (mem_byRank.1 hq)).2
  · exact h.getLast_of_unclosed hp q (List.mem_filter.1 (mem_byRank.1 hq)).1 hun

/-- A block of a tree stands below its root. -/
theorem mem_walkList_of_block {block : Node} {start stop : Nat} {ns : List Node}
    (h : block ∈ Node.walk (nodeOf .stylesheet start stop ns)) (hlabel : block.label = .style .block) :
    block ∈ walkList ns :=
  mem_walkList_of_root h (by rw [hlabel]; nofun)

/-- **Exactly when the edit leads to the tree with the block in order**: when each
statement that must close in its new slot does, and the heads of the rules split. -/
theorem parse_reordered {tree block : Node} (hparse : Stylesheet.parse d t.chars = .ok tree)
    (hblock : block ∈ Node.walk tree) (hlabel : block.label = .style .block) :
    ∃ tree', Replaced block (reorderedBlock t block) tree tree' ∧
      (Stylesheet.parse d (reorderedText t block).toArray = .ok tree' ↔
        Seals d t (ordered block) ∧ HeadsSplit (reorderedText t block).toArray [tree']) := by
  have hs : t.size = t.chars.size := rfl
  obtain ⟨ns, r, hr, htail, rfl⟩ := parse_iff.1 hparse
  have hmem := mem_walkList_of_block hblock hlabel
  obtain ⟨k, brace, children, last, close, hshape, -, hlt, hle, hcr, hin, htrivia, hchar⟩ :=
    hr.block (Nat.zero_le _) hmem hlabel
  have hclose := (Array.getElem?_eq_some_iff.1 hchar).1
  have hstart : block.span.start = brace := by rw [hshape]; rfl
  have hstop : block.span.stop = close + 1 := by rw [hshape]; exact Nat.max_eq_right (by omega)
  have hchildren : block.children = children := by rw [hshape]; rfl
  have hmovable : movable block = children.filter isMovable := by rw [← hchildren]; rfl
  have hstops : ∀ m ∈ movable block, m.span.stop ≤ close := by
    intro m hm
    rw [hmovable] at hm
    have := stop_le_of_reads hin (by omega) m (List.mem_filter.1 hm).1
    omega
  generalize hsrc : (reorderedText t block).toArray = src'
  obtain ⟨hdrop, hbefore, close', hlt', hsize, hafter⟩ :=
    reorderedText_agree hsrc.symm hstart (by omega) hclose hstops
  have hreordered : reorderedBlock t block = nodeOf .block brace (close' + 1)
      (place t (brace + 1) (brace + 1) (ordered block) children) := by
    have hlen : (reorderedText t block).length = src'.size := by rw [← hsrc, List.size_toArray]
    simp only [reorderedBlock, hstart, hstop, hchildren, hlen]
    congr 1
    omega
  have hfills {k last : Nat} (hin : Reads d t.chars k (brace + 1) children last) :
      Fills d t k (ordered block) children := by
    rw [ordered_eq, hchildren]
    exact fills_ordered hin (by omega)
  rw [hmovable] at hdrop
  rw [hreordered]
  rw [hshape] at hmem
  obtain ⟨-, before, m, after, m', rfl, hrep, hread⟩ := hr.replace (Nat.zero_le _) hmem hbefore
    (Nat.lt_succ_self brace) hafter (by omega) (Nat.le_of_lt hlt')
    (place t (brace + 1) (brace + 1) (ordered block) children)
  have htree := replaced_nodeOf .stylesheet 0 t.size src'.size before after (by omega)
    (Nat.le_of_lt hlt') hrep (Nat.zero_le _) (by omega) (by omega)
  rw [← hshape] at htree
  refine ⟨_, htree, fun hparse' => ?_, fun ⟨hseals, hsplit⟩ => ?_⟩
  · obtain ⟨ns', r', hr', -, htree'⟩ := parse_iff.1 hparse'
    refine ⟨?_, ?_⟩
    · -- the block is read in its new order
      have hmem' : nodeOf .block brace (close' + 1)
          (place t (brace + 1) (brace + 1) (ordered block) children) ∈ walkList ns' := by
        have := mem_walk_of_replaced htree
        rw [htree'] at this
        exact mem_walkList_of_block this rfl
      obtain ⟨k', brace', children', last', close'', hshape', -, hlt'', hle'', -, hin', -, hchar'⟩ :=
        hr'.block (Nat.zero_le _) hmem' rfl
      obtain ⟨rfl, rfl, rfl⟩ := nodeOf_block_inj (Nat.le_of_lt hlt') (by omega) hshape'
      refine seals_of_reads hin' (by omega) hdrop (fun m hm => ?_) (hfills hin)
      have := ((hin.items (by omega) m hm).1).bounds
      omega
    · rw [htree']
      exact .of_children (nomatch ·) hr'.splits
  · refine parse_iff.2 ⟨_, _, hread (fun k last hin htrivia hinside => ?_) hsplit.children, ?_, rfl⟩
    · -- inside of the block its slots are filled anew
      obtain ⟨last', hlast', hskip'⟩ := reads_place hchar hin htrivia (Nat.le_refl _) (by omega) (by omega)
        hdrop (hfills hin) hseals hinside
      rw [Nat.sub_self, Nat.add_zero] at hlast'
      refine ⟨last', hlast', ?_⟩
      rw [hskip']
      congr 1
      omega
    · -- and what follows the last statement ends the new text too
      have := skipTrivia_move hafter (Nat.le_of_lt hcr) (by omega)
        (fun hc => by rw [Array.getElem?_eq_none (Nat.le_refl _)] at hc; cases hc) htail
      rw [show close' + 1 + (r - (close + 1)) = close' + (r - close) by omega, this]
      congr 1
      omega

/-! ### What became of the children -/

/-- A statement that stands elsewhere, with its tree and its text, to which a semicolon
may have been added. -/
structure Restated (t t' : Source) (q q' : Node) : Prop where
  label : q'.label = q.label
  children : q'.children = relocateList q.span.start q'.span.start q.children
  text : t'.sliceChars q'.span.start q'.span.stop = statementText t q

/-- A statement that stands elsewhere, as it was. -/
structure Moved (t t' : Source) (q q' : Node) : Prop where
  node : ∃ old new, old ≤ q.span.start ∧ q' = q.relocate old new
  text : t'.sliceChars q'.span.start q'.span.stop = t.sliceChars q.span.start q.span.stop

/-- **What becomes of the children of a block**: those that take part in the order are
sorted by group, and those of one group stay in their order; the others stay. -/
structure Rearranges (t t' : Source) (block block' : Node) : Prop where
  perm : (ordered block).Perm (movable block)
  sorted : InRankOrder (ordered block)
  stable : ∀ k, (ordered block).filter (fun m => rankOf m = k) = (movable block).filter fun m => rankOf m = k
  statements : List.Forall₂ (Restated t t') (ordered block) (movable block')
  others : List.Forall₂ (Moved t t') (block.children.filter fun m => !isMovable m)
    (block'.children.filter fun m => !isMovable m)

theorem isMovable_of_label {m q : Node} (h : m.label = q.label) : isMovable m = isMovable q := by
  rw [isMovable, isMovable, bucket_of_label h]

theorem sliceChars_of_drop {t' : Source} {s : Nat} {w rest : List Char}
    (h : t'.chars.toList.drop s = w ++ rest) : t'.sliceChars s (s + w.length) = w := by
  rw [Source.sliceChars, Array.toList_extract, List.extract_eq_take_drop, Nat.add_sub_cancel_left, h,
    List.take_left]

theorem sliceChars_of_agree {t' : Source} {a b n : Nat} (h : Agree t.chars t'.chars a b n) {start stop : Nat}
    (hstart : a ≤ start) (hle : start ≤ stop) (hstop : stop ≤ a + n) :
    t'.sliceChars (b + (start - a)) (b + (stop - a)) = t.sliceChars start stop := by
  obtain ⟨i, rfl⟩ := Nat.exists_eq_add_of_le hstart
  obtain ⟨j, rfl⟩ := Nat.exists_eq_add_of_le (Nat.le_trans hstart hle)
  have := congrArg String.toList (text_agree h (i := i) (show j ≤ n by omega))
  rw [Cursor.text, Cursor.text, String.toList_ofList, String.toList_ofList] at this
  rw [Nat.add_sub_cancel_left, Nat.add_sub_cancel_left]
  exact this

/-- The children of a block whose slots were filled anew, by induction on those children. -/
theorem place_children (t' : Source) {ns : List Node} : ∀ {old new : Nat} {queue : List Node},
    Stands t old ns → queue.length = (ns.filter isMovable).length → (∀ q ∈ queue, isMovable q = true) →
    t'.chars.toList.drop new = refill t old (ns.filter isMovable) queue →
    List.Forall₂ (Restated t t') queue ((place t old new queue ns).filter isMovable) ∧
      List.Forall₂ (Moved t t') (ns.filter fun m => !isMovable m)
        ((place t old new queue ns).filter fun m => !isMovable m) := by
  induction ns with
  | nil =>
    intro old new queue _ hlen _ _
    obtain rfl : queue = [] := List.length_eq_zero_iff.1 hlen
    rw [place]
    exact ⟨.nil, .nil⟩
  | cons c ns ih =>
    intro old new queue hstands hlen hqueue htext
    obtain ⟨hle, hlt, hsize, hrest⟩ := hstands
    by_cases hc : isMovable c = true
    · -- a slot: the next statement in order stands in it
      rw [List.filter_cons_of_pos hc] at hlen htext
      cases queue with
      | nil => cases hlen
      | cons q queue =>
        rw [refill] at htext
        have hdrop := drop_of_drop htext
        rw [Source.length_sliceChars (by omega)] at hdrop
        obtain ⟨hslots, hothers⟩ := ih hrest (Nat.succ.inj hlen)
          (fun x hx => hqueue x (List.mem_cons_of_mem _ hx)) (drop_of_drop hdrop)
        have hq := hqueue q List.mem_cons_self
        have hslot : isMovable (inSlot t (new + (c.span.start - old)) q) = true := by
          rw [← hq]
          exact isMovable_of_label (Node.relocate_label q)
        rw [place_slot hc, List.filter_cons_of_pos hslot, List.filter_cons_of_neg (by simp [hc]),
          List.filter_cons_of_neg (by simp [hslot])]
        refine ⟨.cons ⟨Node.relocate_label q, Node.relocate_children q, ?_⟩ hslots, hothers⟩
        rw [inSlot_span.1, inSlot_span.2]
        exact sliceChars_of_drop hdrop
    · -- any other child only moves along with the text
      have hcf : isMovable c = false := by simpa using hc
      rw [List.filter_cons_of_neg hc] at hlen htext
      obtain ⟨hslots, hothers⟩ := ih (hrest.mono (by omega)) hlen hqueue htext
      have hmoved : isMovable (c.relocate old new) = false := by
        rw [← hcf]
        exact isMovable_of_label (Node.relocate_label c)
      have hagree := agree_of_refill htext hsize fun m hm => by
        have := (hrest.filter isMovable).bounds m hm
        omega
      rw [place_fixed hcf, List.filter_cons_of_neg (by simp [hmoved]), List.filter_cons_of_pos (by simp [hcf]),
        List.filter_cons_of_pos (by simp [hmoved])]
      refine ⟨hslots, .cons ⟨⟨old, new, hle, rfl⟩, ?_⟩ hothers⟩
      rw [Node.relocate_span]
      exact sliceChars_of_agree hagree hle (Nat.le_of_lt hlt) (by omega)

/-- The children of a block of a tree stand one after the other inside of it. -/
theorem block_of_parse {tree block : Node} (hparse : Stylesheet.parse d t.chars = .ok tree)
    (hblock : block ∈ Node.walk tree) (hlabel : block.label = .style .block) :
    block.span.start < t.size ∧
      ∃ k last, Reads d t.chars k (block.span.start + 1) block.children last := by
  obtain ⟨ns, r, hr, -, rfl⟩ := parse_iff.1 hparse
  obtain ⟨k, brace, children, last, close, rfl, -, hlt, hle, -, hin, -, hchar⟩ :=
    hr.block (Nat.zero_le _) (mem_walkList_of_block hblock hlabel) hlabel
  have hclose := (Array.getElem?_eq_some_iff.1 hchar).1
  refine ⟨?_, k, last, hin⟩
  show brace < t.chars.size
  omega

theorem rearranges_reordered {tree block : Node} (hparse : Stylesheet.parse d t.chars = .ok tree)
    (hblock : block ∈ Node.walk tree) (hlabel : block.label = .style .block) :
    Rearranges t (.ofChars (reorderedText t block).toArray) block (reorderedBlock t block) := by
  obtain ⟨hlt, k, last, hin⟩ := block_of_parse hparse hblock hlabel
  have hdrop : (reorderedText t block).drop (block.span.start + 1) =
      refill t (block.span.start + 1) (movable block) (ordered block) := by
    rw [reorderedText, List.drop_left']
    rw [List.length_take, Array.length_toList]
    have hs : t.size = t.chars.size := rfl
    omega
  obtain ⟨hstatements, hothers⟩ := place_children (.ofChars (reorderedText t block).toArray)
    (stands_of_reads hin hlt) (length_byRank _) (fun q hq => (List.mem_filter.1 (mem_byRank.1 hq)).2) hdrop
  exact ⟨byRank_perm _, byRank_sorted _, byRank_stable _, hstatements, hothers⟩

/-- Of the children that take part in the order, too, only the last one can be unclosed. -/
theorem getLast?_of_movable {depth p r : Nat} {ns : List Node} (h : Reads d src depth p ns r)
    (hp : p ≤ src.size) : ∀ m ∈ ns.filter isMovable, Unclosed d src m →
      (ns.filter isMovable).getLast? = some m := by
  intro m hm hun
  obtain ⟨hm, hmovable⟩ := List.mem_filter.1 hm
  obtain ⟨front, hfront⟩ := List.getLast?_eq_some_iff.1 (h.getLast_of_unclosed hp m hm hun)
  have hlast : [m].filter isMovable = [m] := List.filter_cons_of_pos hmovable
  rw [hfront, List.filter_append, hlast, List.getLast?_concat]

/-- A block that is out of order is given an edit, which puts it in order. -/
theorem fix_of_outOfOrder {c : Context} {tree : Node} (hparse : Stylesheet.parse d c.text.chars = .ok tree)
    (h : Misplaced c.text tree c) : ∃ e, fix c = some e ∧
      Edit.applyAll c.text.chars.toList [e] = .ok (reorderedText c.text c.scope.parent) := by
  obtain ⟨-, hmem, hblock, hout⟩ := h
  obtain ⟨hlt, k, last, hin⟩ := block_of_parse hparse hmem hblock
  have hstands := (stands_of_reads hin hlt).filter isMovable
  -- an edit that changed nothing would not be offered
  have hne : refill c.text (c.scope.parent.span.start + 1) (movable c.scope.parent)
      (byRank (movable c.scope.parent)) ≠ c.text.chars.toList.drop (c.scope.parent.span.start + 1) := by
    intro hsame
    refine hout (@inRankOrder_of_refill d _ k _ _ hstands (fun m hm => ?_) (fun m hm hun => ?_) hsame)
    · obtain ⟨hm, hmovable⟩ := List.mem_filter.1 hm
      exact ⟨(hin.items hlt m hm).1, hmovable⟩
    · exact getLast?_of_movable hin hlt m hm hun
  rcases hms : movable c.scope.parent with _ | ⟨m, _ | ⟨m', ms⟩⟩
  · rw [hms] at hout
    exact absurd List.Pairwise.nil hout
  · rw [hms] at hout
    exact absurd (List.pairwise_singleton _ _) hout
  · have hstands' : Stands c.text (c.scope.parent.span.start + 1) (movable c.scope.parent) := hstands
    have happly := fun e (he : fix c = some e) => apply_of_fix he hstands'
    rw [hms] at hne hstands'
    obtain ⟨e, he⟩ := exists_fix hms hstands' hne
    exact ⟨e, he, happly e he⟩

/-! ### Edits that evaluate -/

/-- Whether the edit for the first finding in a text leads to a tree such that `p` holds of it and the
block with the finding. Sorting does not evaluate, so the groups of the block are put one after the
other. -/
def leadsTo (t : Source) (p : Node → Node → Bool) : Bool :=
  match Stylesheet.parse .scss t.chars, matchTree (parseStylesheet .scss .scss t) [propertyOrder] .default with
  | .ok _, .ok (f :: _) =>
    let block := f.context.scope.parent
    let inside := block.span.start + 1
    let queue := inGroups (movable block)
    let text := t.chars.toList.take inside ++ refill t inside (movable block) queue
    (Stylesheet.parse .scss text.toArray).toOption.any (p block)
  | _, _ => false

/-- What is offered for the first finding in a text, and what that leads to. -/
structure Offered (t : Source) (tree : Node) (found : List Finding) (f : Finding) (edit : Edit) (tree' : Node) :
    Prop where
  parse : Stylesheet.parse .scss t.chars = .ok tree
  matched : matchTree (parseStylesheet .scss .scss t) [propertyOrder] .default = .ok found
  mem : f ∈ found
  rule : f.rule = propertyOrder
  misplaced : Misplaced t tree f.context
  fix : fix f.context = some edit
  apply : Edit.applyAll t.chars.toList [edit] = .ok (reorderedText t f.context.scope.parent)
  read : Stylesheet.parse .scss (reorderedText t f.context.scope.parent).toArray = .ok tree'

theorem exists_of_leadsTo {p : Node → Node → Bool} (h : leadsTo t p = true) :
    ∃ tree found f edit tree', Offered t tree found f edit tree' ∧ p f.context.scope.parent tree' = true := by
  unfold leadsTo at h
  split at h
  swap
  · cases h
  rename_i tree f found htree hfound
  obtain ⟨tree', htree', hp⟩ := (Option.any_eq_true ..).1 h
  rw [toOption_eq_some] at htree'
  have hmem : f ∈ f :: found := List.mem_cons_self
  have hrule := List.mem_singleton.1 (origin_of_matchTree hfound f hmem).1
  have hmisplaced := outOfOrder_of_matchTree (parseStylesheet_tree.2 htree)
    (fun r hr _ => List.mem_singleton.1 hr) hfound f hmem hrule
  rw [parseStylesheet_text] at hmisplaced
  have htext := hmisplaced.text
  have htree'' : Stylesheet.parse .scss f.context.text.chars = .ok tree := by rwa [htext]
  obtain ⟨edit, hedit, happly⟩ := fix_of_outOfOrder htree'' (by rwa [htext])
  rw [htext] at happly
  refine ⟨tree, _, f, edit, tree', ⟨htree, hfound, hmem, hrule, hmisplaced, hedit, happly, ?_⟩, hp⟩
  rw [reorderedText, ordered_eq, byRank_eq]
  exact htree'

theorem Offered.offer {tree tree' : Node} {found : List Finding} {f : Finding} {edit : Edit}
    (h : Offered t tree found f edit tree') : f.offer = .ok (some edit) := by
  rw [Finding.offer, h.rule]
  exact congrArg Except.ok h.fix

/-- **The edit for a block that is out of order puts it in order.** There always is one;
it leads to a text with the children of the block rearranged, and that text has the
tree with the block so rearranged and nothing else changed exactly when each
statement that must close in its new slot does and the heads of the rules split. -/
theorem offer_reorders {language : Language} {tree : Node} {rules : List Rule} {settings : Settings}
    {found : List Finding} (htree : (parseStylesheet language d t).tree? = some tree)
    (hrules : ∀ r ∈ rules, r.id = propertyOrder.id → r = propertyOrder)
    (hfound : matchTree (parseStylesheet language d t) rules settings = .ok found) {f : Finding}
    (hf : f ∈ found) (hrule : f.rule = propertyOrder) :
    ∃ edit text tree' block', f.offer = .ok (some edit) ∧
      Edit.applyAll t.chars.toList [edit] = .ok text ∧
      Replaced f.context.scope.parent block' tree tree' ∧
      Rearranges t (.ofChars text.toArray) f.context.scope.parent block' ∧
      ((parseStylesheet language d (.ofChars text.toArray)).tree? = some tree' ↔
        Seals d t (ordered f.context.scope.parent) ∧ HeadsSplit text.toArray [tree']) := by
  have hmisplaced := outOfOrder_of_matchTree htree hrules hfound f hf hrule
  rw [parseStylesheet_text] at hmisplaced
  obtain ⟨htext, hmem, hblock, -⟩ := id hmisplaced
  have hparse := parseStylesheet_tree.1 htree
  obtain ⟨tree', hreplaced, hiff⟩ := parse_reordered hparse hmem hblock
  subst htext
  obtain ⟨edit, hedit, happly⟩ := fix_of_outOfOrder hparse hmisplaced
  refine ⟨edit, _, tree', _, ?_, happly, hreplaced, rearranges_reordered hparse hmem hblock, ?_⟩
  · rw [Finding.offer, hrule]
    exact congrArg Except.ok hedit
  · rw [parseStylesheet_tree]
    exact hiff

theorem offer_reorders_nested : ∃ tree found f,
    (parseStylesheet .scss .scss (.ofString ".a \x7b .b \x7b\x7d color: red \x7d")).tree? = some tree ∧
      matchTree (parseStylesheet .scss .scss (.ofString ".a \x7b .b \x7b\x7d color: red \x7d"))
        [propertyOrder] .default = .ok found ∧
      f ∈ found ∧ f.rule = propertyOrder ∧ ∃ edit, f.offer = .ok (some edit) := by
  set t : Source := .ofString ".a \x7b .b \x7b\x7d color: red \x7d" with ht
  obtain ⟨tree, found, f, _, _, h, -⟩ := @exists_of_leadsTo t (fun _ _ => true) (by rw [ht]; decide +kernel)
  have htree : (parseStylesheet .scss .scss t).tree? = some tree := parseStylesheet_tree.2 h.parse
  have hrules : ∀ r ∈ [propertyOrder], r.id = propertyOrder.id → r = propertyOrder :=
    fun r hr _ => List.mem_singleton.1 hr
  obtain ⟨edit, _, _, _, hedit, -⟩ := offer_reorders htree hrules h.matched h.mem h.rule
  exact ⟨tree, found, f, htree, h.matched, h.mem, h.rule, edit, hedit⟩

/-- A comment that runs to the end of its line swallows the semicolon and the nested block
after a declaration that was the last one. -/
theorem offer_swallows_nested : ∃ tree found f edit text,
    (parseStylesheet .scss .scss (.ofString ".a \x7b .b \x7b\x7d color: red // c\n\x7d")).tree? = some tree ∧
      matchTree (parseStylesheet .scss .scss (.ofString ".a \x7b .b \x7b\x7d color: red // c\n\x7d"))
        [propertyOrder] .default = .ok found ∧
      f ∈ found ∧ f.rule = propertyOrder ∧ f.offer = .ok (some edit) ∧
      Edit.applyAll (Source.ofString ".a \x7b .b \x7b\x7d color: red // c\n\x7d").chars.toList [edit] =
        .ok text ∧
      ¬ ∃ tree' block', (parseStylesheet .scss .scss (.ofChars text.toArray)).tree? = some tree' ∧
        Replaced f.context.scope.parent block' tree tree' ∧
        Rearranges (.ofString ".a \x7b .b \x7b\x7d color: red // c\n\x7d") (.ofChars text.toArray)
          f.context.scope.parent block' := by
  set t : Source := .ofString ".a \x7b .b \x7b\x7d color: red // c\n\x7d" with ht
  obtain ⟨tree, found, f, edit, tree', h, hp⟩ := @exists_of_leadsTo t (fun block tree' =>
    (movable block).length == 2 && (Node.walk tree').all fun m => decide ((movable m).length < 2))
    (by rw [ht]; decide +kernel)
  rw [Bool.and_eq_true, beq_iff_eq, List.all_eq_true] at hp
  obtain ⟨hlen, hread⟩ := hp
  refine ⟨tree, found, f, edit, _, parseStylesheet_tree.2 h.parse, h.matched, h.mem, h.rule, h.offer, h.apply, ?_⟩
  rintro ⟨tree'', block', htree'', hreplaced, hrearranges⟩
  obtain rfl : tree' = tree'' := Except.ok.inj (h.read.symm.trans (parseStylesheet_tree.1 htree''))
  -- no block of the new text has both statements
  have hfew := of_decide_eq_true (hread block' (mem_walk_of_replaced hreplaced))
  rw [← hrearranges.statements.length_eq, hrearranges.perm.length_eq, hlen] at hfew
  exact absurd hfew (Nat.lt_irrefl 2)

end HouseStyle.PropertyOrder
