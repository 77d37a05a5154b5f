import HouseStyle.Proofs.Rule.ImportBlock
import Mathlib.Data.List.Chain

/-!
# What is reported about the block of imports

The check goes through the block once. It keeps the entry that the next one must not come before, which
moves on only past entries that are in order, and the entry right above, which always moves on.

* `Decides`: which statements are imports; `Block`: the block is made of those that begin a module, and what
  its entries tell of them.
* `Tops`: the entry that is kept is one of the greatest so far; `Tops.keep`, `Tops.raise`: one step.
* `Told`: what is said of an entry, by the entries before it; `Told.unique`: there is one thing to say.
* `check_reports`: **the check says of each entry what there is to say, and nothing else.**
-/

namespace HouseStyle.ImportGrouping

variable {t : Source} {o : ImportGroupingOptions} {c : Context}

/-! ### The block -/

/-- The statements of a module after its documentation string. -/
def body (root : Node) : List Node :=
  if (docstring? root).isSome then root.children.tail else root.children

/-- A line of imports and nothing else, the first of which is `first`. -/
structure ImportLine (n first : Node) : Prop where
  shape : n.hasShape .simpleStatementLine = true
  children : ∃ rest, n.children = first :: rest
  imports : ∀ m ∈ n.children, isImport m = true

/-- The import that decides the place of a statement, and its group: the first one of a line of imports, or
of the guarded body of a `try` statement that is made of such lines. -/
inductive Decides (o : ImportGroupingOptions) (n first : Node) : Group → Prop where
  | line (line : ImportLine n first) : Decides o n first (groupOf o first)
  | guarded {block line : Node} {more : List Node} (shape : n.hasShape .tryStatement = true)
      (body : n.children.find? (fun c => c.hasShape .indentedBlock) = some block)
      (children : block.children = line :: more) (head : ImportLine line first)
      (lines : ∀ s ∈ more, ∃ m, ImportLine s m) : Decides o n first .guarded

theorem importLine?_eq_some_iff {n : Node} {ms : List Node} :
    importLine? n = some ms ↔ ms = n.children ∧ ∃ first, ImportLine n first := by
  unfold importLine?
  rw [Option.ite_none_right_eq_some, Bool.and_eq_true, Bool.and_eq_true, List.all_eq_true, Option.some.injEq]
  constructor
  · rintro ⟨⟨⟨hshape, hne⟩, himports⟩, rfl⟩
    obtain ⟨first, rest, hchildren⟩ := List.exists_cons_of_ne_nil (l := n.children) (by simpa using hne)
    exact ⟨rfl, first, hshape, ⟨rest, hchildren⟩, himports⟩
  · rintro ⟨rfl, first, hshape, ⟨rest, hchildren⟩, himports⟩
    exact ⟨⟨⟨hshape, by rw [hchildren]; rfl⟩, himports⟩, rfl⟩

theorem mapM_importLine? {ns : List Node} {lines : List (List Node)} :
    ns.mapM importLine? = some lines ↔ lines = ns.map Node.children ∧ ∀ n ∈ ns, ∃ first, ImportLine n first := by
  induction ns generalizing lines with
  | nil => simp [eq_comm]
  | cons n rest ih =>
    simp only [List.mapM_cons, Option.bind_eq_bind, Option.bind_eq_some_iff, Option.pure_def, Option.some.injEq,
      importLine?_eq_some_iff, ih, List.map_cons, List.forall_mem_cons]
    constructor
    · rintro ⟨_, ⟨rfl, hline⟩, _, ⟨rfl, hlines⟩, rfl⟩
      exact ⟨rfl, hline, hlines⟩
    · rintro ⟨rfl, hline, hlines⟩
      exact ⟨_, ⟨rfl, hline⟩, _, ⟨rfl, hlines⟩, rfl⟩

theorem guardedImports?_eq_some_iff {n : Node} {ms : List Node} : guardedImports? n = some ms ↔
    n.hasShape .tryStatement = true ∧ ∃ block, n.children.find? (fun c => c.hasShape .indentedBlock) = some block ∧
      block.children ≠ [] ∧ ms = (block.children.map Node.children).flatten ∧
      ∀ s ∈ block.children, ∃ m, ImportLine s m := by
  unfold guardedImports?
  rw [Option.ite_none_right_eq_some]
  refine and_congr_right fun _ => ?_
  cases n.children.find? fun c => c.hasShape .indentedBlock with
  | none => simp
  | some block =>
    simp only [Option.some.injEq, exists_eq_left']
    rw [Option.ite_none_left_eq_some, List.isEmpty_iff, Option.map_eq_some_iff]
    simp only [mapM_importLine?]
    refine and_congr_right fun _ => ⟨?_, ?_⟩
    · rintro ⟨_, ⟨rfl, hlines⟩, rfl⟩
      exact ⟨rfl, hlines⟩
    · rintro ⟨rfl, hlines⟩
      exact ⟨_, ⟨rfl, hlines⟩, rfl⟩

theorem hasShape_unique {n : Node} {shape shape' : Python.Shape} (h : n.hasShape shape = true)
    (h' : n.hasShape shape' = true) : shape = shape' := by
  unfold Node.hasShape at h
  split at h
  · rename_i hlabel
    rw [Node.hasShape, hlabel] at h'
    exact (beq_iff_eq.1 h).symm.trans (beq_iff_eq.1 h')
  · cases h

/-- **Which statements are imports.** -/
theorem classify?_eq_some_iff {n first : Node} {group : Group} :
    classify? o n = some (first, group) ↔ Decides o n first group := by
  unfold classify?
  constructor
  · intro h
    split at h
    · rename_i head rest hline
      obtain ⟨hchildren, _, hshape, -, himports⟩ := importLine?_eq_some_iff.1 hline
      cases h
      exact .line ⟨hshape, ⟨rest, hchildren.symm⟩, himports⟩
    · split at h
      · rename_i head rest hguarded
        obtain ⟨hshape, block, hblock, hne, hflat, hlines⟩ := guardedImports?_eq_some_iff.1 hguarded
        cases h
        obtain ⟨line, more, hchildren⟩ := List.exists_cons_of_ne_nil hne
        rw [hchildren, List.forall_mem_cons] at hlines
        obtain ⟨⟨m, hm⟩, hmore⟩ := hlines
        obtain ⟨others, hothers⟩ := hm.children
        rw [hchildren, List.map_cons, List.flatten_cons, hothers, List.cons_append, List.cons.injEq] at hflat
        exact .guarded hshape hblock hchildren (hflat.1 ▸ hm) hmore
      · cases h
  · rintro (⟨⟨hshape, ⟨rest, hchildren⟩, himports⟩⟩ | ⟨hshape, hblock, hchildren, hhead, hlines⟩)
    · have hline : importLine? n = some (first :: rest) :=
        importLine?_eq_some_iff.2 ⟨hchildren.symm, first, hshape, ⟨rest, hchildren⟩, himports⟩
      rw [hline]
    · -- a `try` statement is no line
      rename_i block line more
      have hline : importLine? n = none := by
        rw [importLine?, if_neg]
        rw [Bool.and_eq_true, Bool.and_eq_true]
        exact fun h => absurd (hasShape_unique hshape h.1.1) (by decide)
      obtain ⟨others, hothers⟩ := hhead.children
      have hguarded : guardedImports? n = some (first :: (others ++ (more.map Node.children).flatten)) := by
        refine guardedImports?_eq_some_iff.2 ⟨hshape, block, hblock, ?_, ?_, ?_⟩
        · rw [hchildren]
          exact List.cons_ne_nil _ _
        · rw [hchildren, List.map_cons, List.flatten_cons, hothers, List.cons_append]
        · rw [hchildren, List.forall_mem_cons]
          exact ⟨⟨first, hhead⟩, hlines⟩
      rw [hline, hguarded]

theorem classify?_eq_none_iff {n : Node} : classify? o n = none ↔ ∀ first group, ¬ Decides o n first group := by
  rw [Option.eq_none_iff_forall_ne_some, Prod.forall]
  exact forall₂_congr fun first group => not_congr classify?_eq_some_iff

/-- What an entry tells of its statement: the group, the path and the form of the import that decides
its place, and its lines. -/
structure Entry.Describes (t : Source) (o : ImportGroupingOptions) (e : Entry) : Prop where
  place : ∃ first, Decides o e.node first e.group ∧ e.path = importPath first ∧
    (e.isFrom = false ↔ ∃ names, first.label = .python (.importNames names))
  firstLine : e.firstLine = t.lineOf e.node.span.start
  lastLine : e.lastLine = t.lineOf (max e.node.span.start (e.node.span.stop - 1))

/-- The block of imports of a module: all statements up to the first that is no import. -/
structure Block (t : Source) (o : ImportGroupingOptions) (root : Node) (es : List Entry) : Prop where
  statements : ∃ after, body root = es.map Entry.node ++ after ∧
    ∀ n ∈ after.head?, ∀ first group, ¬ Decides o n first group
  described : ∀ e ∈ es, e.Describes t o

/-! ### Its entries -/

theorem entryOf_describes {previous : Option Entry} {n first : Node} {group : Group}
    (h : Decides o n first group) : (entryOf t previous n first group).Describes t o := by
  refine ⟨⟨first, h, rfl, ?_⟩, rfl, rfl⟩
  unfold entryOf
  dsimp only
  split
  · rename_i names hlabel
    exact ⟨fun _ => ⟨names, hlabel⟩, fun _ => rfl⟩
  · rename_i hlabel
    exact ⟨(nomatch ·), fun ⟨names, hnames⟩ => absurd hnames (hlabel names)⟩

theorem entriesFrom_spec (previous : Option Entry) (ns : List Node) :
    (∃ after, ns = (entriesFrom t o previous ns).map Entry.node ++ after ∧
        ∀ n ∈ after.head?, ∀ first group, ¬ Decides o n first group) ∧
      ∀ e ∈ entriesFrom t o previous ns, e.Describes t o := by
  induction ns generalizing previous with
  | nil => exact ⟨⟨[], rfl, fun n hn => absurd hn (Option.not_mem_none n)⟩, List.forall_mem_nil _⟩
  | cons n rest ih =>
    unfold entriesFrom
    split
    · rename_i hnone
      refine ⟨⟨n :: rest, rfl, fun m hm => ?_⟩, List.forall_mem_nil _⟩
      rw [← Option.mem_some_iff.1 hm]
      exact classify?_eq_none_iff.1 hnone
    · rename_i first group hsome
      obtain ⟨⟨after, hnodes, hafter⟩, hdescribed⟩ := ih (some (entryOf t previous n first group))
      exact ⟨⟨after, congrArg (n :: ·) hnodes, hafter⟩,
        List.forall_mem_cons.2 ⟨entryOf_describes (classify?_eq_some_iff.1 hsome), hdescribed⟩⟩

theorem entries_eq (t : Source) (o : ImportGroupingOptions) (root : Node) :
    entries t o root = entriesFrom t o none (body root) := by
  unfold entries body docstring?
  cases root.children with
  | nil => rfl
  | cons first rest => cases hdoc : isDocstring first <;> simp [hdoc, Option.filter]

theorem entries_block (root : Node) : Block t o root (entries t o root) := by
  rw [entries_eq]
  obtain ⟨hstatements, hdescribed⟩ := entriesFrom_spec (t := t) (o := o) none (body root)
  exact ⟨hstatements, hdescribed⟩

/-! ### What is said of an entry -/

/-- Two neighbours of different groups have a blank line between them. -/
def Entry.Apart (t : Source) (a b : Entry) : Prop :=
  a.group ≠ b.group → ∃ line, a.lastLine < line ∧ line < b.firstLine ∧ isBlankLine t line = true

/-- What is said of an entry after the entries `before`. -/
inductive Told (t : Source) (before : List Entry) (e : Entry) : Option String → Prop where
  /-- It is below the greatest of them. -/
  | outOfOrder {top : Entry} : top ∈ before → (∀ a ∈ before, a.key ≤ top.key) → e.key < top.key →
      Told t before e (some (orderMessage e top))
  /-- It is in order, and begins a group right below the entry above it. -/
  | unseparated {above : Entry} : (∀ a ∈ before, a.key ≤ e.key) → before.getLast? = some above →
      ¬ above.Apart t e → Told t before e (some (separatorMessage above e))
  /-- It is in order and stands apart from another group. -/
  | quiet : (∀ a ∈ before, a.key ≤ e.key) → (∀ above ∈ before.getLast?, above.Apart t e) → Told t before e none

/-- What is reported of entries after the entries `before`: of each what there is to say, in turn. -/
inductive Reports (c : Context) : List Entry → List Entry → List Violation → Prop where
  | done {before : List Entry} : Reports c before [] []
  | next {before rest : List Entry} {e : Entry} {message : Option String} {vs : List Violation} :
      Told c.text before e message → Reports c (before ++ [e]) rest vs →
      Reports c before (e :: rest) ((message.map (c.violation e.node.span)).toList ++ vs)

theorem rank_injective : Function.Injective Group.rank := fun a b h => by
  cases a <;> cases b <;> first | rfl | exact absurd h (by decide)

/-- Messages tell no difference between entries that compare alike. -/
theorem orderMessage_congr {e a b : Entry} (h : a.key = b.key) : orderMessage e a = orderMessage e b := by
  rw [Entry.key, Entry.key, toLex_inj, Prod.mk.injEq, toLex_inj, Prod.mk.injEq, toLex_inj, Prod.mk.injEq] at h
  rw [orderMessage, orderMessage, rank_injective h.1, h.2.2.2]

/-- There is one thing to say of an entry. -/
theorem Told.unique {before : List Entry} {e : Entry} {m m' : Option String} (h : Told t before e m)
    (h' : Told t before e m') : m = m' := by
  cases h with
  | outOfOrder hmem hle hlt =>
    cases h' with
    | outOfOrder hmem' hle' _ => rw [orderMessage_congr (le_antisymm (hle' _ hmem) (hle _ hmem'))]
    | unseparated hall => exact absurd (hall _ hmem) hlt.not_ge
    | quiet hall => exact absurd (hall _ hmem) hlt.not_ge
  | unseparated hall habove hclose =>
    cases h' with
    | outOfOrder hmem _ hlt => exact absurd (hall _ hmem) hlt.not_ge
    | unseparated _ habove' => rw [Option.some.inj (habove.symm.trans habove')]
    | quiet _ hapart => exact absurd (hapart _ habove) hclose
  | quiet hall hapart =>
    cases h' with
    | outOfOrder hmem _ hlt => exact absurd (hall _ hmem) hlt.not_ge
    | unseparated _ habove hclose => exact absurd (hapart _ habove) hclose
    | quiet => rfl

theorem Reports.unique {before es : List Entry} {vs vs' : List Violation} (h : Reports c before es vs)
    (h' : Reports c before es vs') : vs = vs' := by
  induction h generalizing vs' with
  | done => cases h' with | done => rfl
  | next htold _ ih => cases h' with | next htold' hrest' => rw [htold.unique htold', ih hrest']

theorem hasBlankLine_iff {after before : Nat} : hasBlankLine t after before = true ↔
    ∃ line, after < line ∧ line < before ∧ isBlankLine t line = true := by
  rw [hasBlankLine, List.any_eq_true]
  refine exists_congr fun line => ?_
  rw [List.mem_range'_1, ← and_assoc]
  exact and_congr_left' (by omega)

theorem lacksSeparator_eq_false_iff {previous : Option Entry} {e : Entry} :
    lacksSeparator t previous e = false ↔ ∀ above ∈ previous, above.Apart t e := by
  cases previous with
  | none => exact ⟨fun _ above h => (Option.not_mem_none above h).elim, fun _ => rfl⟩
  | some above =>
    simp only [lacksSeparator, Bool.and_eq_false_imp, bne_iff_ne, Bool.not_eq_false', hasBlankLine_iff,
      Option.mem_some_iff, forall_eq', Entry.Apart]

theorem lacksSeparator_eq_true_iff {previous : Option Entry} {e : Entry} :
    lacksSeparator t previous e = true ↔ ∃ above ∈ previous, ¬ above.Apart t e := by
  rw [← Bool.not_eq_false, lacksSeparator_eq_false_iff]
  simp only [not_forall, exists_prop]

/-! ### The entry that is kept -/

/-- The entry that is kept after the entries `before`: one of the greatest of them. -/
inductive Tops : List Entry → Option Entry → Prop where
  | none : Tops [] none
  | some {before : List Entry} {top : Entry} : top ∈ before → (∀ a ∈ before, a.key ≤ top.key) →
      Tops before (some top)

namespace Tops

variable {before : List Entry} {highest : Option Entry} {e top : Entry}

theorem le_of_filter (h : Tops before highest) (hnone : highest.filter e.before = Option.none) :
    ∀ a ∈ before, a.key ≤ e.key := by
  cases h with
  | none => exact fun a ha => nomatch ha
  | some _ hle =>
    rename_i top _
    have hbefore : e.before top = false := by simpa [Option.filter] using hnone
    exact fun a ha => (hle a ha).trans (before_eq_false_iff.1 hbefore)

/-- An entry that is out of order is passed over. -/
theorem keep (h : Tops before (Option.some top)) (hlt : e.key < top.key) : Tops (before ++ [e]) (Option.some top) := by
  cases h with
  | some hmem hle =>
    refine .some (List.mem_append_left _ hmem) ?_
    rw [List.forall_mem_append, List.forall_mem_singleton]
    exact ⟨hle, hlt.le⟩

/-- An entry that is in order is kept next. -/
theorem raise (h : ∀ a ∈ before, a.key ≤ e.key) : Tops (before ++ [e]) (Option.some e) := by
  refine .some (List.mem_append_right _ (List.mem_singleton_self e)) ?_
  rw [List.forall_mem_append, List.forall_mem_singleton]
  exact ⟨h, le_refl _⟩

end Tops

/-! ### The whole block -/

/-- **What is reported of the entries to come**, by induction on them; after each the entry that is kept
is one of the greatest before. -/
theorem reports_checkFrom {before : List Entry} {highest : Option Entry} (h : Tops before highest) (es : List Entry) :
    Reports c before es (checkFrom c highest before.getLast? es) := by
  induction es generalizing before highest with
  | nil => exact .done
  | cons e rest ih =>
    have hlast : (before ++ [e]).getLast? = some e := List.getLast?_concat
    unfold checkFrom
    split
    · -- out of order: the same entry is kept
      rename_i top htop
      obtain ⟨rfl, hbefore⟩ := Option.filter_eq_some_iff.1 htop
      have hlt : e.key < top.key := before_iff.1 hbefore
      have hrest := ih (h.keep hlt)
      rw [hlast] at hrest
      cases h with
      | some hmem hle => exact .next (.outOfOrder hmem hle hlt) hrest
    · -- in order: this entry is kept, whether it stands apart or not
      rename_i hnone
      have hle := h.le_of_filter hnone
      have hrest := ih (Tops.raise hle)
      rw [hlast] at hrest
      cases hlacks : lacksSeparator c.text before.getLast? e with
      | false =>
        have hquiet := Reports.next (.quiet hle (lacksSeparator_eq_false_iff.1 hlacks)) hrest
        split <;> exact hquiet
      | true =>
        obtain ⟨above, habove, hclose⟩ := lacksSeparator_eq_true_iff.1 hlacks
        rw [habove]
        exact .next (.unseparated hle habove hclose) hrest

/-- Nothing is said of an entry that is in order and stands apart. -/
theorem Told.eq_none_iff {before : List Entry} {e : Entry} {message : Option String} (h : Told t before e message) :
    message = none ↔ (∀ a ∈ before, a.key ≤ e.key) ∧ ∀ above ∈ before.getLast?, above.Apart t e := by
  cases h with
  | outOfOrder hmem hle hlt => exact ⟨(nomatch ·), fun h => absurd (h.1 _ hmem) hlt.not_ge⟩
  | unseparated hle habove hclose => exact ⟨(nomatch ·), fun h => absurd (h.2 _ habove) hclose⟩
  | quiet hle hapart => exact ⟨fun _ => ⟨hle, hapart⟩, fun _ => rfl⟩

/-- Nothing is reported when nothing is said of any entry. -/
theorem Reports.eq_nil_iff {before es : List Entry} {vs : List Violation} (h : Reports c before es vs) :
    vs = [] ↔ (∀ a ∈ before, ∀ e ∈ es, a.key ≤ e.key) ∧ es.Pairwise (fun a b => a.key ≤ b.key) ∧
      (∀ above ∈ before.getLast?, ∀ e ∈ es.head?, above.Apart c.text e) ∧ es.IsChain (Entry.Apart c.text) := by
  induction h with
  | done => simp
  | next htold _ ih =>
    rename_i before rest e message vs _
    rw [List.append_eq_nil_iff, Option.toList_eq_nil_iff, Option.map_eq_none_iff, htold.eq_none_iff, ih,
      List.getLast?_concat, List.forall_mem_append, List.forall_mem_singleton, List.pairwise_cons, List.isChain_cons]
    simp only [Option.mem_def, Option.some.injEq, forall_eq', List.head?_cons, List.forall_mem_cons, forall_and]
    tauto

/-- **The check says of each entry of the block what there is to say, and nothing else.** It is silent
exactly when the block is in order and each group stands apart from the one above it. -/
theorem check_reports (n : Node) (c : Context) (m : Memory) :
    ∃ es vs, importGrouping.check n c m = (.ok vs, m) ∧ Block c.text (c.options .importGrouping) n es ∧
      Reports c [] es vs ∧ (∀ vs', Reports c [] es vs' → vs' = vs) ∧
      (vs = [] ↔ (es.map Entry.key).Pairwise (· ≤ ·) ∧ es.IsChain (Entry.Apart c.text)) := by
  have hreports : Reports c [] (entries c.text (c.options .importGrouping) n) (check n c) :=
    reports_checkFrom .none _
  refine ⟨_, _, rfl, entries_block n, hreports, fun _ hother => hother.unique hreports, ?_⟩
  rw [List.pairwise_map, hreports.eq_nil_iff]
  simp

/-- The import below the greatest one and the import that begins a group right below another. -/
example : ((parse .python (.ofString "import os\nimport abc\nfrom django import http\n")).toOption.bind fun p =>
    (matchTree p [importGrouping] .default).toOption.map fun found =>
      found.map fun f => (f.violation.location.start.line, f.violation.message)) =
    some [(2, "Import 'abc' is not alphabetized within standard library imports (should come before 'os')"),
      (3, "Missing blank line between standard library and framework imports")] := by
  decide +kernel

end HouseStyle.ImportGrouping
