import HouseStyle.Proofs.Rule.Reordering

/-!
# Branches in a block that is put in order

An `@else` belongs to the `@if` or `@else` right before it. Both are nested blocks, so they stay
neighbours in the order of the block. But they need not land in slots that are neighbours: a child
that does not take part in the order keeps its place, and may come to stand between them.

* `elsesFollow`: each `@else` comes right after a child that opens a branch.
* `elsesLand`: no `@else` lands right behind a child that keeps its place and opens no branch.
* `elsesFollow_place`: that is what it takes for the branches to stay together.
* `elsesFollow_of_fix`: so for the edit of the rule.
-/

namespace HouseStyle.PropertyOrder

open Stylesheet
open Node (Replaced)

variable {d : Dialect} {t : Source}

/-! ### Branches -/

/-- Whether a child of a block is an at-rule under one of these names. -/
def isNamed (names : List String) (n : Node) : Bool :=
  match n.label with
  | .style (.atRule name _ _ _) => names.contains name
  | _ => false

/-- Whether a child of a block is an `@else`. -/
def isElse (n : Node) : Bool :=
  isNamed ["else"] n

/-- Whether an `@else` may come right after a child of a block. -/
def opensBranch (n : Node) : Bool :=
  isNamed ["if", "else"] n

/-- Whether a child of a block is an `@if` or `@else` with a block. -/
def isBranch (n : Node) : Bool :=
  opensBranch n && !isBlockless n

/-- Each `@else` comes right after a child of a kind; `previous` is the child before the first. -/
def elsesFollow (opens : Node → Bool) : Option Node → List Node → Bool
  | _, [] => true
  | previous, n :: ns => (!isElse n || previous.any opens) && elsesFollow opens (some n) ns

variable {opens : Node → Bool} {previous : Option Node} {n : Node} {ns : List Node}

theorem elsesFollow_cons : elsesFollow opens previous (n :: ns) = true ↔
    (isElse n = true → previous.any opens = true) ∧ elsesFollow opens (some n) ns = true := by
  rw [elsesFollow, Bool.and_eq_true, Bool.or_eq_true, Bool.not_eq_true']
  cases isElse n <;> simp

/-- An `@else` that comes first comes right after nothing. -/
theorem elsesFollow_of_first (h : elsesFollow opens none ns = true) : elsesFollow opens previous ns = true := by
  cases ns with
  | nil => exact rfl
  | cons n ns =>
    obtain ⟨hfirst, hrest⟩ := elsesFollow_cons.1 h
    exact elsesFollow_cons.2 ⟨fun helse => (nomatch hfirst helse), hrest⟩

theorem elsesFollow_mono {opens' : Node → Bool} (hopens : ∀ n, opens n = true → opens' n = true) :
    ∀ {previous : Option Node}, elsesFollow opens previous ns = true →
      elsesFollow opens' previous ns = true := by
  induction ns with
  | nil => exact fun _ => rfl
  | cons n ns ih =>
    intro previous h
    obtain ⟨hfirst, hrest⟩ := elsesFollow_cons.1 h
    refine elsesFollow_cons.2 ⟨fun helse => ?_, ih hrest⟩
    cases previous with
    | none => exact nomatch hfirst helse
    | some x => exact hopens x (hfirst helse)

/-- Children that no `@else` belongs to may be left out. By induction on the children: the last
one that is kept is the last one, if that opens a branch. -/
theorem elsesFollow_filter {keep : Node → Bool} (hkeep : ∀ n, opens n = true → keep n = true) :
    ∀ {previous kept : Option Node}, (∀ x, previous = some x → opens x = true → kept = some x) →
      elsesFollow opens previous ns = true → elsesFollow opens kept (ns.filter keep) = true := by
  induction ns with
  | nil => exact fun _ _ => rfl
  | cons n ns ih =>
    intro previous kept hlast h
    obtain ⟨hfirst, hrest⟩ := elsesFollow_cons.1 h
    by_cases hn : keep n = true
    · rw [List.filter_cons_of_pos hn]
      refine elsesFollow_cons.2 ⟨fun helse => ?_, ih (fun x hx _ => hx) hrest⟩
      cases previous with
      | none => exact nomatch hfirst helse
      | some x =>
        -- the `@else` belongs to the child before it, so that is kept too
        have hx : opens x = true := hfirst helse
        rw [hlast x rfl hx]
        exact hx
    · rw [List.filter_cons_of_neg hn]
      refine ih (fun x hx hopen => ?_) hrest
      cases hx
      exact absurd (hkeep n hopen) hn

theorem elsesFollow_append {ms : List Node} (hms : ∀ m ∈ ms, isElse m = false)
    (h : elsesFollow opens none ns = true) : ∀ {previous : Option Node},
      elsesFollow opens previous (ms ++ ns) = true := by
  induction ms with
  | nil => exact elsesFollow_of_first h
  | cons m ms ih =>
    refine elsesFollow_cons.2 ⟨fun helse => ?_, ih fun x hx => hms x (List.mem_cons_of_mem _ hx)⟩
    rw [hms m List.mem_cons_self] at helse
    cases helse

/-! ### Where an `@else` lands -/

/-- No `@else` of the queue lands in a slot right behind a child that keeps its place and opens no
branch. -/
def elsesLand : Option Node → List Node → List Node → Bool
  | _, _, [] => true
  | _, [], _ :: _ => true
  | previous, q :: queue, n :: ns =>
    if isMovable n then
      (!isElse q || previous.any fun x => isMovable x || opensBranch x) && elsesLand (some n) queue ns
    else elsesLand (some n) (q :: queue) ns

theorem isNamed_of_label {names : List String} {m q : Node} (h : m.label = q.label) :
    isNamed names m = isNamed names q := by
  rw [isNamed, isNamed, h]

/-- What comes before a slot opens a branch: the child that stands there, or the statement that
landed in its slot. -/
def branchBefore (previous landed : Option Node) : Bool :=
  previous.any fun x => if isMovable x then landed.any opensBranch else opensBranch x

/-- **Each `@else` of the filled slots comes right after a branch exactly if it lands so.** By
induction on the children: in the queue it does come right after a branch, so only the child that
keeps its place before its slot matters. -/
theorem elsesFollow_place (hfixed : ∀ n ∈ ns, isMovable n = false → isElse n = false) :
    ∀ {old new : Nat} {queue : List Node} {previous landed placed : Option Node},
      queue.length = (ns.filter isMovable).length → elsesFollow opensBranch landed queue = true →
      placed.any opensBranch = branchBefore previous landed →
      elsesFollow opensBranch placed (place t old new queue ns) = elsesLand previous queue ns := by
  induction ns with
  | nil =>
    intro old new queue previous landed placed _ _ _
    rw [place, elsesLand, elsesFollow]
  | cons n ns ih =>
    intro old new queue previous landed placed hlen hqueue hplaced
    have ih := @ih fun m hm => hfixed m (List.mem_cons_of_mem _ hm)
    by_cases hn : isMovable n = true
    · rw [List.filter_cons_of_pos hn] at hlen
      cases queue with
      | nil => cases hlen
      | cons q queue =>
        have hlabel : (inSlot t (new + (n.span.start - old)) q).label = q.label := Node.relocate_label q
        obtain ⟨hq, hrest⟩ := elsesFollow_cons.1 hqueue
        -- behind a slot stands what the queue has before this statement, and that opens a branch
        have hbefore : (!isElse q || branchBefore previous landed) =
            (!isElse q || previous.any fun x => isMovable x || opensBranch x) := by
          cases helse : isElse q with
          | false => rfl
          | true =>
            cases previous with
            | none => rfl
            | some x =>
              have hopen := hq helse
              simp only [branchBefore, Option.any_some, hopen]
              cases isMovable x <;> rfl
        rw [place_slot hn, elsesFollow, elsesLand, if_pos hn, hplaced,
          show isElse (inSlot t (new + (n.span.start - old)) q) = isElse q from isNamed_of_label hlabel,
          hbefore]
        congr 1
        refine ih (Nat.succ.inj hlen) hrest ?_
        simp only [branchBefore, Option.any_some, hn, if_true]
        exact isNamed_of_label hlabel
    · have hnf : isMovable n = false := by simpa using hn
      rw [List.filter_cons_of_neg hn] at hlen
      have hlabel : (n.relocate old new).label = n.label := Node.relocate_label n
      have helse : isElse (n.relocate old new) = false :=
        (isNamed_of_label hlabel).trans (hfixed n List.mem_cons_self hnf)
      have hland : elsesLand previous queue (n :: ns) = elsesLand (some n) queue ns := by
        cases queue with
        | cons q queue => rw [elsesLand, if_neg hn]
        | nil => cases ns <;> rfl
      rw [place_fixed hnf, elsesFollow, helse, hland, Bool.not_false, Bool.true_or, Bool.true_and]
      refine ih hlen hqueue ?_
      simp only [branchBefore, Option.any_some, hnf, Bool.false_eq_true, if_false]
      exact isNamed_of_label hlabel

/-! ### A block in order -/

/-- An at-rule with a block that opens a branch is a nested block. -/
theorem nested_of_isBranch (h : isBranch n = true) : isMovable n = true ∧ rankOf n = 2 := by
  rw [isBranch, Bool.and_eq_true, Bool.not_eq_true'] at h
  obtain ⟨hopens, hblock⟩ := h
  rw [opensBranch, isNamed] at hopens
  split at hopens
  · rename_i name prelude mixin hasBlock hlabel
    rw [isBlockless, hlabel, Bool.not_eq_false'] at hblock
    have hname : name ≠ "include" := by
      rintro rfl
      exact absurd hopens (by decide)
    have hbucket : bucket? n = some .nested := by
      rw [bucket?, hlabel]
      simp only [if_neg hname, if_pos hblock]
    rw [isMovable, rankOf, hbucket]
    exact ⟨rfl, rfl⟩
  · cases hopens

theorem isBranch_of_isElse (h : isElse n = true) (hblock : isBlockless n = false) : isBranch n = true := by
  rw [isBranch, hblock, Bool.not_false, Bool.and_true]
  unfold isElse at h
  unfold opensBranch
  unfold isNamed at h ⊢
  split at h
  · have hname := List.mem_singleton.1 (List.contains_iff_mem.1 h)
    rw [hname]
    decide
  · cases h

/-- **In the order of a block the branches stay together**: they are nested blocks, which keep
their order. -/
theorem elsesFollow_ordered {block : Node}
    (hblocks : ∀ n ∈ block.children, isElse n = true → isBlockless n = false)
    (hfollow : elsesFollow isBranch none block.children = true) :
    elsesFollow isBranch none (ordered block) = true := by
  have hmovable : elsesFollow isBranch none (block.children.filter isMovable) = true :=
    elsesFollow_filter (fun m hm => (nested_of_isBranch hm).1) (fun _ hx _ => hx) hfollow
  -- the nested blocks keep their order, and an `@else` is one of them
  have hnested : elsesFollow isBranch none
      ((block.children.filter isMovable).filter fun m => rankOf m = 2) = true :=
    elsesFollow_filter (fun m hm => decide_eq_true (nested_of_isBranch hm).2) (fun _ hx _ => hx) hmovable
  have hother : ∀ k, k < 2 → ∀ m ∈ (block.children.filter isMovable).filter fun m => rankOf m = k,
      isElse m = false := by
    intro k hk m hm
    rw [List.mem_filter, List.mem_filter, decide_eq_true_eq] at hm
    obtain ⟨⟨hm, -⟩, hrank⟩ := hm
    by_contra helse
    rw [Bool.not_eq_false] at helse
    have := (nested_of_isBranch (isBranch_of_isElse helse (hblocks m hm helse))).2
    omega
  rw [ordered_eq, byRank_eq, inGroups]
  exact elsesFollow_append (hother 0 (by decide)) (elsesFollow_append (hother 1 (by decide)) hnested)

/-- Where every child takes part in the order, each `@else` lands behind a slot. -/
theorem elsesLand_of_slots (hns : ∀ n ∈ ns, isMovable n = true) : ∀ {queue : List Node} {previous : Option Node},
    previous.any isMovable = true ∨ elsesFollow opens none queue = true →
      elsesLand previous queue ns = true := by
  induction ns with
  | nil => exact fun _ => by rw [elsesLand]
  | cons n ns ih =>
    intro queue previous hfirst
    cases queue with
    | nil => rw [elsesLand]
    | cons q queue =>
      have hn := hns n List.mem_cons_self
      have hrest := @ih (fun x hx => hns x (List.mem_cons_of_mem _ hx)) queue (some n) (.inl hn)
      rw [elsesLand, if_pos hn, hrest, Bool.and_true, Bool.or_eq_true, Bool.not_eq_true']
      rcases hfirst with hslot | hqueue
      · obtain ⟨x, hx, hmovable⟩ := (Option.any_eq_true ..).1 hslot
        rw [hx, Option.any_some, hmovable]
        exact .inr rfl
      · -- the first of the queue is no `@else`
        refine .inl (Bool.eq_false_iff.2 fun helse => ?_)
        exact nomatch (elsesFollow_cons.1 hqueue).1 helse

/-- **In a block that is put in order each `@else` comes right after a branch exactly if it lands so.** -/
theorem elsesFollow_reordered {block : Node}
    (hblocks : ∀ n ∈ block.children, isElse n = true → isBlockless n = false)
    (hfollow : elsesFollow isBranch none block.children = true) :
    elsesFollow opensBranch none (reorderedBlock t block).children =
      elsesLand none (ordered block) block.children := by
  -- what keeps its place is no `@else`, since that has a block
  have hfixed : ∀ n ∈ block.children, isMovable n = false → isElse n = false := by
    intro n hn hmovable
    by_contra helse
    rw [Bool.not_eq_false] at helse
    have := (nested_of_isBranch (isBranch_of_isElse helse (hblocks n hn helse))).1
    rw [hmovable] at this
    cases this
  have hqueue : elsesFollow opensBranch none (ordered block) = true :=
    elsesFollow_mono (fun m hm => (Bool.and_eq_true_iff.1 hm).1) (elsesFollow_ordered hblocks hfollow)
  exact elsesFollow_place hfixed (length_byRank _) hqueue rfl

/-- A block all of whose children take part in the order keeps its branches together. -/
theorem elsesFollow_reordered_of_slots {block : Node} (hall : ∀ n ∈ block.children, isMovable n = true)
    (hblocks : ∀ n ∈ block.children, isElse n = true → isBlockless n = false)
    (hfollow : elsesFollow isBranch none block.children = true) :
    elsesFollow opensBranch none (reorderedBlock t block).children = true := by
  rw [elsesFollow_reordered hblocks hfollow]
  exact elsesLand_of_slots hall (.inr (elsesFollow_ordered hblocks hfollow))

/-- **Branches stay together when a block is put in order, exactly if each `@else` lands behind
one.** Before that each `@else` has a block and comes right after an `@if` or `@else` with a block.
The edit leads to the text in which the children are so rearranged, and that text has the tree with
the block so rearranged exactly when each statement that must close in its new slot does and the
heads of the rules split. -/
theorem elsesFollow_of_fix {c : Context} {tree : Node} {e : Edit}
    (hparse : Stylesheet.parse d c.text.chars = .ok tree) (hblock : c.scope.parent ∈ Node.walk tree)
    (hlabel : c.scope.parent.label = .style .block)
    (hblocks : ∀ n ∈ c.scope.parent.children, isElse n = true → isBlockless n = false)
    (hfollow : elsesFollow isBranch none c.scope.parent.children = true) (hfix : fix c = some e) :
    ∃ text tree' block', Edit.applyAll c.text.chars.toList [e] = .ok text ∧
      Replaced c.scope.parent block' tree tree' ∧
      Rearranges c.text (.ofChars text.toArray) c.scope.parent block' ∧
      (Stylesheet.parse d text.toArray = .ok tree' ↔
        Seals d c.text (ordered c.scope.parent) ∧ HeadsSplit text.toArray [tree']) ∧
      (elsesFollow opensBranch none block'.children = true ↔
        elsesLand none (ordered c.scope.parent) c.scope.parent.children = true) := by
  obtain ⟨hlt, k, last, hin⟩ := block_of_parse hparse hblock hlabel
  obtain ⟨tree', hreplaced, hiff⟩ := parse_reordered hparse hblock hlabel
  have happly := apply_of_fix hfix ((stands_of_reads hin hlt).filter isMovable)
  refine ⟨_, tree', _, happly, hreplaced, rearranges_reordered hparse hblock hlabel, hiff, ?_⟩
  rw [elsesFollow_reordered hblocks hfollow]

theorem elsesFollow_of_fix_if : ∃ tree c e,
    Stylesheet.parse .scss c.text.chars = .ok tree ∧
      c.text = .ofString ".a \x7b @if $x \x7b\x7d @else \x7b\x7d color: red; \x7d" ∧ fix c = some e ∧
      ∃ text tree' block', Edit.applyAll c.text.chars.toList [e] = .ok text ∧
        Replaced c.scope.parent block' tree tree' ∧ elsesFollow opensBranch none block'.children = true := by
  obtain ⟨tree, found, f, e, _, h, hp⟩ :=
    @exists_of_leadsTo (.ofString ".a \x7b @if $x \x7b\x7d @else \x7b\x7d color: red; \x7d")
      (fun block _ => block.children.all (fun n => !isElse n || !isBlockless n) &&
        elsesFollow isBranch none block.children &&
        elsesLand none (inGroups (movable block)) block.children) (by decide +kernel)
  rw [Bool.and_eq_true, Bool.and_eq_true, List.all_eq_true] at hp
  obtain ⟨⟨hblocks, hfollow⟩, hland⟩ := hp
  obtain ⟨htext, hmem, hlabel, -⟩ := h.misplaced
  have htree := h.parse
  rw [← htext] at htree
  have hblocks' : ∀ n ∈ f.context.scope.parent.children, isElse n = true → isBlockless n = false := by
    intro n hn helse
    have := hblocks n hn
    rw [helse] at this
    simpa using this
  obtain ⟨text, tree', block', happly, hreplaced, -, -, hiff⟩ :=
    elsesFollow_of_fix htree hmem hlabel hblocks' hfollow h.fix
  refine ⟨tree, f.context, e, htree, htext, h.fix, text, tree', block', happly, hreplaced, hiff.2 ?_⟩
  rw [ordered_eq, byRank_eq]
  exact hland

/-- In a block of a text each `@else` comes right after an `@if` or `@else`, and the edit for the
block leads to a text in which one does not. -/
def PartsElse (t : Source) : Prop :=
  ∃ tree c e text tree' block', Stylesheet.parse .scss t.chars = .ok tree ∧ c.text = t ∧
    c.scope.parent ∈ Node.walk tree ∧ c.scope.parent.label = .style .block ∧
    elsesFollow opensBranch none c.scope.parent.children = true ∧ fix c = some e ∧
    Edit.applyAll t.chars.toList [e] = .ok text ∧ Stylesheet.parse .scss text.toArray = .ok tree' ∧
    block' ∈ Node.walk tree' ∧ block'.kind = "block" ∧
    block'.span.start = c.scope.parent.span.start ∧ elsesFollow opensBranch none block'.children = false

theorem partsElse_of_leadsTo (h : leadsTo t (fun block tree' =>
    elsesFollow opensBranch none block.children && (Node.walk tree').any fun b => b.kind == "block" &&
      b.span.start == block.span.start && !elsesFollow opensBranch none b.children) = true) : PartsElse t := by
  obtain ⟨tree, found, f, e, tree', h, hp⟩ := exists_of_leadsTo h
  rw [Bool.and_eq_true, List.any_eq_true] at hp
  obtain ⟨hfollow, block', hmem', hb⟩ := hp
  simp only [Bool.and_eq_true, beq_iff_eq, Bool.not_eq_true'] at hb
  obtain ⟨⟨hkind, hstart⟩, hparted⟩ := hb
  obtain ⟨htext, hmem, hlabel, -⟩ := h.misplaced
  exact ⟨tree, f.context, e, _, tree', block', h.parse, htext, hmem, hlabel, hfollow, h.fix, h.apply, h.read,
    hmem', hkind, hstart, hparted⟩

/-- The three ways in which an `@else` is parted from its branch: a child that keeps its place comes
between them, or one of the two has no block and keeps its place itself. -/
theorem fix_parts_else :
    PartsElse (.ofString ".a \x7b @if $x \x7b\x7d @else \x7b\x7d @extend .b; color: red; \x7d") ∧
      PartsElse (.ofString ".a \x7b @if $x \x7b\x7d @else; color: red; \x7d") ∧
      PartsElse (.ofString ".a \x7b @if $x; @else \x7b\x7d color: red; \x7d") :=
  ⟨partsElse_of_leadsTo (by decide +kernel), partsElse_of_leadsTo (by decide +kernel),
    partsElse_of_leadsTo (by decide +kernel)⟩

end HouseStyle.PropertyOrder
