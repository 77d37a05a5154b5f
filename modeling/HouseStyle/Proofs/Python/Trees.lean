import HouseStyle.Proofs.Parse.Parsed
import HouseStyle.Proofs.Python.Places
import HouseStyle.Proofs.Python.Statements

/-!
# Trees index the text

The whole grammar builds what stands in the characters that it reads. Where the grammar and the text count
lines and columns alike, a module has a tree that stands in the text itself.

* `grammar_builds`: by induction on the depth of nesting.
* `parse_named`: **names that a module tells stand on one line each**.
* `parse_comes`: nodes of a module come from what the grammar built.
* `Comes.inOrder`: the statements of a block are in order.
* `Comes.literal`: literals are shown at their places, or one character too early behind a byte-order mark.
* `parse_indexes`: **names and literals of a tree stand at their places.**
-/

namespace HouseStyle.Python

open Recognizer

variable {W : Window} {t : Source}

theorem production_builds {g : Grammar} (hg : ∀ V x, Builds V (g x)) (x : Nonterminal) :
    Builds W (production g x) := by
  have hg' := hg W
  cases x with
  | expression => exact expression_builds hg'
  | namedExpression => exact namedExpression_builds hg'
  | starNamedExpression => exact starNamedExpression_builds hg'
  | starExpressions => exact starExpressions_builds hg'
  | yieldOrStarExpressions => exact yieldOrStarExpressions_builds hg'
  | groupContents => exact groupContents_builds hg'
  | disjunction => exact disjunction_builds hg'
  | inversion => exact inversion_builds hg'
  | factor => exact factor_builds hg'
  | bitwiseOr => exact bitwiseOr_builds hg'
  | starTargets => exact starTargets_builds hg'
  | starTarget => exact starTarget_builds hg'
  | formatField => exact formatField_builds hg'
  | pattern => exact pattern_builds hg'
  | maybeStarPattern => exact maybeStarPattern_builds hg'
  | block => exact block_builds hg

/-- **The grammar builds what stands in the text**, however deep its forms are nested. -/
theorem grammar_builds (depth : Nat) (x : Nonterminal) : Builds W (grammar depth x) := by
  induction depth generalizing W x with
  | zero => exact .giveUp
  | succ depth ih => exact production_builds (fun _ x => ih x) x

theorem moduleStatements_builds : Builds W moduleStatements :=
  (statement_builds (grammar_builds _)).many.bind fun _ h => .skip fun _ => .pure h

/-- The statements of a module stand in the window of its text. -/
theorem moduleStatements_within {src : Array Char} {tokens : Array Token} (htokens : tokenize src = some tokens)
    {statements : List Node} {next : Nat} {h : 0 ≤ next} (hfound : moduleStatements tokens 0 = .found statements next h) :
    ∃ W : Window, W.chars = src ∧ ∀ m ∈ Node.walkList statements, Within W m := by
  -- the last token of the module has been read
  have hnext : next ≤ tokens.size := by
    obtain ⟨_, _, _, _, -, hrest⟩ := found_of_bind hfound
    obtain ⟨_, _, _, _, hlast, hpure⟩ := found_of_bind hrest
    cases hpure
    exact next_le_of_satisfy hlast
  let W : Window := ⟨src, tokens, 0, next, tokenize_stands htokens, tokenize_inRow htokens, hnext⟩
  have hstands : stands W statements :=
    moduleStatements_builds (W := W) 0 (Nat.le_refl 0) statements next h hfound (Nat.le_refl next)
  exact ⟨W, rfl, stands_nodes.1 hstands⟩

theorem moduleStatements_spelled {src : Array Char} {tokens : Array Token} (htokens : tokenize src = some tokens)
    {statements : List Node} {next : Nat} {h : 0 ≤ next} (hfound : moduleStatements tokens 0 = .found statements next h) :
    ∀ m ∈ Node.walkList statements, Spelled src m := by
  obtain ⟨W, rfl, hwithin⟩ := moduleStatements_within htokens hfound
  exact fun m hm => (hwithin m hm).spelled

/-- A tree indexes a text: its nodes lie inside of the text, and where the spelling of a name or of a literal
is told it is what stands at the place of the node. -/
structure Indexes (t : Source) (tree : Node) : Prop where
  inside : ∀ n ∈ Node.walk tree, n.span.stop ≤ t.size
  name : ∀ n ∈ Node.walk tree, ∀ value, n.label = .python (.name value) → t.sliceSpan n.span = value
  literal : ∀ n ∈ Node.walk tree, ∀ value marker quote,
    n.label = .python (.simpleString value marker quote) → t.sliceSpan n.span = value

/-- A node of a module stands for the whole of it, or comes from a node that stands in the characters that
the grammar counts. -/
def Comes (t : Source) (n : Node) : Prop :=
  (n.label = .python (.plain .moduleFile) ∧ n.span.stop = t.size) ∨
    ∃ m, Spelled (counted t).toArray m ∧ Moved (placed t) m n

/-- Where no carriage return ends a line by itself, no position is lost, and all nodes come from what stands
in the text. -/
theorem parse_comes (h : returnsPaired t.chars.toList = true) :
    parse t ≠ .error .lostPosition ∧ ∀ tree, parse t = .ok tree → ∀ n ∈ Node.walk tree, Comes t n := by
  have hfault (e : ParseError) : (.error (.fault e) : Except ModuleError Node) ≠ .error .lostPosition := by
    rintro ⟨⟩
  have hnone (e : ModuleError) (tree : Node) : .error e = Except.ok tree → ∀ n ∈ Node.walk tree, Comes t n := by
    rintro ⟨⟩
  have hplaces : ∀ i ≤ (counted t).length,
      placeOf t (lineColumns 0 0 (counted t)).toArray i = some (placed t i) :=
    fun i hi => (placeOf_eq h i).trans (if_pos hi)
  have hcounted : (if t.chars.toList.head? = some byteOrderMark then t.chars.toList.tail else t.chars.toList) =
      counted t := rfl
  simp only [parse, hcounted]
  cases htokens : tokenize (counted t).toArray with
  | none => exact ⟨hfault _, hnone _⟩
  | some tokens =>
    dsimp only
    cases hfound : moduleStatements tokens 0 with
    | absent => exact ⟨hfault _, hnone _⟩
    | tooDeep => exact ⟨hfault _, hnone _⟩
    | found statements next =>
      have hspelled := moduleStatements_spelled htokens hfound
      obtain ⟨ns, hns, -, hfrom⟩ := relocateList_moved hplaces statements fun n hn => (hspelled n hn).inside
      dsimp only
      by_cases hdeep : nestingLimit < Node.heightList statements
      · rw [if_pos hdeep]
        exact ⟨hfault _, hnone _⟩
      · rw [if_neg hdeep, hns]
        refine ⟨by rintro ⟨⟩, ?_⟩
        rintro _ ⟨⟩ n hn
        rw [Node.walk, List.mem_cons] at hn
        rcases hn with rfl | hn
        · exact .inl ⟨rfl, rfl⟩
        · obtain ⟨m, hm, hmoved⟩ := hfrom n hn
          exact .inr ⟨m, hspelled m hm, hmoved⟩

/-- Statements that are shifted stay in order. -/
theorem precedes_of_shifted {place : Nat → Nat} (hplace : Monotone place) {a b a' b' : Node} (h : Precedes a b)
    (ha : Shifted place a a') (hb : Shifted place b b') : Precedes a' b' := by
  have hclass {m n : Node} (hshifted : Shifted place m n) (hn : IsClass n) : IsClass m := by
    obtain ⟨name, bases, hlabel⟩ := hn
    exact ⟨name, bases, hshifted.label.symm.trans hlabel⟩
  refine ⟨fun hn => ?_, fun hn => ?_⟩
  · rw [ha.span, hb.span]
    exact hplace (h.start_le (hclass ha hn))
  · rw [ha.span, hb.span]
    exact Nat.max_le.2 ⟨hplace (Nat.le_trans a.span.start_le_stop (h.stop_le (hclass hb hn))),
      hplace (h.stop_le (hclass hb hn))⟩

theorem inOrder_of_shifted {place : Nat → Nat} (hplace : Monotone place) {ms ns : List Node}
    (hshifted : List.Forall₂ (Shifted place) ms ns) (h : InOrder ms) : InOrder ns := by
  obtain ⟨hlength, hget⟩ := List.forall₂_iff_get.1 hshifted
  refine List.pairwise_iff_getElem.2 fun i j hi hj hij => ?_
  have hm := List.pairwise_iff_getElem.1 h i j (hlength ▸ hi) (hlength ▸ hj) hij
  exact precedes_of_shifted hplace hm (hget i (hlength ▸ hi) hi) (hget j (hlength ▸ hj) hj)

/-- The statements of a block are in order, also where a byte-order mark moves them. -/
theorem Comes.inOrder {n : Node} (hn : Comes t n) (hlabel : n.label = .python (.plain .indentedBlock)) :
    InOrder n.children := by
  obtain ⟨hother, -⟩ | ⟨m, hm, hmoved⟩ := hn
  · cases hother.symm.trans hlabel
  · exact inOrder_of_shifted (placed_mono t) hmoved.children (hm.inOrder (hmoved.label.symm.trans hlabel))

/-- Where lines and columns are counted alike, a node is spelled at its own place. -/
theorem spelled_of_comes (h : countsAlike t = true) {n : Node} (hn : Comes t n) : Spelled t.chars n := by
  have hinOrder := hn.inOrder
  rcases hn with ⟨hlabel, hstop⟩ | ⟨m, hm, ⟨hlabel, hspan⟩, -⟩
  · refine ⟨Nat.le_of_eq hstop, fun form hform value hvalue => ?_, fun value marker quote hform => ?_, hinOrder⟩
    · cases hlabel.symm.trans hform
      cases hvalue
    · cases hlabel.symm.trans hform
  · obtain ⟨hinside, htext, hliteral, -⟩ := hm
    have hsame : n.span = m.span := by
      rw [hspan, placed_of_alike h, placed_of_alike h]
      exact Span.ext rfl (Nat.max_eq_right m.span.start_le_stop)
    rw [counted_of_alike h, Array.toArray_toList] at hinside htext
    refine ⟨?_, ?_, ?_, hinOrder⟩
    · rwa [hsame]
    · rwa [hsame, hlabel]
    · rwa [hlabel]

/-- What stands at a place that may be one character too early, as a byte-order mark makes it. -/
inductive Shown (cs : List Char) : List Char → Prop
  | whole : Shown cs cs
  | early (c : Char) : Shown cs (c :: cs.dropLast)
  | longer (c : Char) : Shown cs (c :: cs)

/-- The characters of a literal among those that are counted, and where they are looked up. -/
theorem Comes.exists_literal {n : Node} (hn : Comes t n) {value marker quote : String}
    (hlabel : n.label = .python (.simpleString value marker quote)) :
    IsLiteral value marker quote ∧ ∃ a b, a < b ∧ b ≤ (counted t).length ∧
      ((counted t).drop a).take (b - a) = value.toList ∧ n.span = .between (placed t a) (placed t b) := by
  obtain ⟨hother, -⟩ | ⟨m, ⟨hinside, htext, hliteral, -⟩, ⟨hm, hspan⟩, -⟩ := hn
  · cases hother.symm.trans hlabel
  rw [hlabel] at hm
  have hvalid := hliteral value marker quote hm.symm
  have hcounted : ((counted t).drop m.span.start).take (m.span.stop - m.span.start) = value.toList := by
    rw [← htext _ hm.symm value rfl, Cursor.text, String.toList_ofList, Array.toList_extract,
      List.extract_eq_take_drop]
  refine ⟨hvalid, m.span.start, m.span.stop, ?_, ?_, hcounted, hspan⟩
  · -- a spelling is not empty, for it ends with a quote
    by_contra hle
    rw [Nat.sub_eq_zero_of_le (Nat.not_lt.1 hle), List.take_zero] at hcounted
    have hlast := hvalid.quoted.last
    rw [← hcounted] at hlast
    simp at hlast
  · rwa [List.size_toArray] at hinside

/-- Where each return stands before a line feed, a literal is shown at its place, or one character too early. -/
theorem Comes.literal {n : Node} (hn : Comes t n) {value marker quote : String}
    (hlabel : n.label = .python (.simpleString value marker quote)) :
    IsLiteral value marker quote ∧ Shown value.toList (t.sliceChars n.span.start n.span.stop) := by
  obtain ⟨hvalid, a, b, hlt, hsize, hcounted, hspan⟩ := hn.exists_literal hlabel
  refine ⟨hvalid, ?_⟩
  have hlength := congrArg List.length hcounted
  rw [List.length_take, List.length_drop, Nat.min_eq_left (by omega)] at hlength
  obtain ⟨mark, hmark, hchars⟩ := counted_shape t
  rw [hspan, Span.between_start, Span.between_stop, Source.sliceChars_max, Source.sliceChars, Array.toList_extract,
    List.extract_eq_take_drop, placed_eq hchars, placed_eq hchars, hchars]
  rcases hmark with rfl | rfl
  · rw [List.length_nil, List.nil_append, Nat.zero_add, Nat.zero_add, ite_self, ite_self, hcounted]
    exact .whole
  -- behind a mark, each end is shifted when a line feed stands before it
  · obtain ⟨c, hc⟩ : ∃ c, ([byteOrderMark] ++ counted t).drop a = c :: (counted t).drop a := by
      have hlt : a < (byteOrderMark :: counted t).length := by
        rw [List.length_cons]
        omega
      exact ⟨_, List.drop_eq_getElem_cons hlt⟩
    by_cases hstart : '\n' ∈ (counted t).take a
    · have hstop : '\n' ∈ (counted t).take b := (List.take_prefix_take_left (Nat.le_of_lt hlt)).subset hstart
      rw [if_pos hstart, if_pos hstop, List.length_singleton, Nat.add_comm 1, Nat.add_comm 1, List.singleton_append,
        List.drop_succ_cons, Nat.add_sub_add_right, hcounted]
      exact .whole
    · rw [if_neg hstart, hc]
      split
      · rw [List.length_singleton, show 1 + b - a = b - a + 1 by omega, List.take_succ_cons, hcounted]
        exact .longer c
      · obtain ⟨k, hk⟩ := Nat.exists_eq_add_one.2 (Nat.sub_pos_of_lt hlt)
        have hdropLast : value.toList.dropLast = ((counted t).drop a).take k := by
          rw [List.dropLast_eq_take, ← hlength, hk, ← hcounted, List.take_take, Nat.min_eq_left (by omega),
            Nat.add_sub_cancel]
        rw [hk, List.take_succ_cons, ← hdropLast]
        exact .early c

theorem indexes_of_comes (h : countsAlike t = true) {tree : Node} (htree : ∀ n ∈ Node.walk tree, Comes t n) :
    Indexes t tree where
  inside n hn := (spelled_of_comes h (htree n hn)).inside
  name n hn value hlabel := (spelled_of_comes h (htree n hn)).text _ hlabel value rfl
  literal n hn value _ _ hlabel := (spelled_of_comes h (htree n hn)).text _ hlabel value rfl

/-! ### Names of a module -/

mutual

/-- A tree that is moved says what it said, wherever its nodes are placed. -/
theorem label_of_relocate {found : Nat → Option Nat} {m n : Node} (h : relocate found m = some n) :
    ∀ y ∈ Node.walk n, ∃ x ∈ Node.walk m, y.label = x.label := by
  cases m with
  | mk label span children =>
    rw [relocate] at h
    split at h
    · rename_i moved _ _ hmoved
      cases h
      intro y hy
      rw [Node.walk, List.mem_cons] at hy
      rcases hy with rfl | hy
      · exact ⟨_, Node.mem_walk_self _, rfl⟩
      · obtain ⟨x, hx, hlabel⟩ := label_of_relocateList hmoved y hy
        exact ⟨x, by rw [Node.walk]; exact List.mem_cons_of_mem _ hx, hlabel⟩
    · cases h

theorem label_of_relocateList {found : Nat → Option Nat} {ms ns : List Node} (h : relocateList found ms = some ns) :
    ∀ y ∈ Node.walkList ns, ∃ x ∈ Node.walkList ms, y.label = x.label := by
  cases ms with
  | nil =>
    cases h
    exact nofun
  | cons m rest =>
    rw [relocateList] at h
    split at h
    · rename_i n moved hn hmoved
      cases h
      intro y hy
      rw [Node.walkList, List.mem_append] at hy
      rw [Node.walkList]
      rcases hy with hy | hy
      · obtain ⟨x, hx, hlabel⟩ := label_of_relocate hn y hy
        exact ⟨x, List.mem_append_left _ hx, hlabel⟩
      · obtain ⟨x, hx, hlabel⟩ := label_of_relocateList hmoved y hy
        exact ⟨x, List.mem_append_right _ hx, hlabel⟩
    · cases h

end

/-- **The names that a module tells stand on one line each**, whatever ends its lines. -/
theorem parse_named {tree : Node} (h : parse t = .ok tree) : ∀ n ∈ Node.walk tree, Named n := by
  unfold parse at h
  dsimp only at h
  generalize htokens : tokenize _ = found at h
  cases found with
  | none => cases h
  | some tokens =>
    dsimp only at h
    cases hfound : moduleStatements tokens 0 with
    | absent =>
      rw [hfound] at h
      cases h
    | tooDeep =>
      rw [hfound] at h
      cases h
    | found statements next =>
      rw [hfound] at h
      obtain ⟨W, -, hwithin⟩ := moduleStatements_within htokens hfound
      dsimp only at h
      split at h
      · cases h
      · split at h <;> cases h
        rename_i moved hmoved
        rw [Node.walk, List.forall_mem_cons]
        refine ⟨?_, fun n hn form hlabel => ?_⟩
        · rintro _ ⟨⟩
          exact nofun
        · obtain ⟨m, hm, hsame⟩ := label_of_relocateList hmoved n hn
          exact (hwithin m hm).named form (hsame.symm.trans hlabel)

/-- Modules that do not lose a position have an outcome. -/
theorem parse_of_comes (h : returnsPaired t.chars.toList = true) :
    ∃ p, HouseStyle.parse .python t = .ok p ∧
      ∀ tree, p.tree? = some tree → ∀ n ∈ Node.walk tree, Comes t n := by
  obtain ⟨hlost, hcomes⟩ := parse_comes h
  unfold HouseStyle.parse parseModule
  dsimp only
  split
  · rename_i tree htree
    exact ⟨_, rfl, fun _ hsome => by cases hsome; exact hcomes tree htree⟩
  · exact ⟨_, rfl, nofun⟩
  · exact absurd ‹_› hlost

/-- **Names and literals of a tree stand at their places.** A module in which each carriage return stands
before a line feed, and which does not begin with a byte-order mark, is parsed without a failure, and if it
has a tree the tree indexes the text. -/
theorem parse_indexes (h : countsAlike t = true) :
    ∃ p, HouseStyle.parse .python t = .ok p ∧ ∀ tree, p.tree? = some tree → Indexes t tree := by
  have hpaired := h
  rw [countsAlike, Bool.and_eq_true] at hpaired
  obtain ⟨p, hp, hcomes⟩ := parse_of_comes hpaired.2
  exact ⟨p, hp, fun tree htree => indexes_of_comes h (hcomes tree htree)⟩

/-- Lines that end in both ways, a joined line, a form feed and a letter of two bytes. -/
theorem parse_indexes_joined : ∃ p tree,
    HouseStyle.parse .python (.ofString "x = 'é' \\\r\n  'c'\n\x0cy = f'\x7bx\x7d'\r\n") = .ok p ∧ p.tree? = some tree ∧
      Indexes (.ofString "x = 'é' \\\r\n  'c'\n\x0cy = f'\x7bx\x7d'\r\n") tree := by
  have hsome : ((HouseStyle.parse .python (.ofString "x = 'é' \\\r\n  'c'\n\x0cy = f'\x7bx\x7d'\r\n")).toOption.bind
      Parsed.tree?).isSome = true := by
    decide +kernel
  obtain ⟨p, hp, hindexes⟩ := @parse_indexes (.ofString "x = 'é' \\\r\n  'c'\n\x0cy = f'\x7bx\x7d'\r\n") (by decide +kernel)
  rw [hp] at hsome
  obtain ⟨tree, htree⟩ := Option.isSome_iff_exists.1 hsome
  exact ⟨p, tree, hp, htree, hindexes tree htree⟩

end HouseStyle.Python
