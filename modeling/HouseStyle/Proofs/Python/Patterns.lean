import HouseStyle.Proofs.Python.Expressions
import HouseStyle.Python.Pattern

/-!
# Patterns stand in the text

The rules for patterns build what stands in the text, when the rules one level deeper do.

* `stands_separatedElements`: elements with the separators that belong to them.
* `pattern_builds`, `casePatterns_builds`: the entry points.
-/

namespace HouseStyle.Python

open Recognizer

variable {W : Window} {g : Grammar}

theorem stands_elementStop {last : Nat} {separator : Option Token} {next : Option Nat} (hlast : stands W last)
    (hseparator : stands W separator) (hnext : stands W next) : stands W (elementStop last separator next) := by
  unfold elementStop
  split
  · exact hlast
  · exact stands_getD hnext (stop_of_stands (stands_some.1 hseparator))

/-- Elements stand in the text, by the recursion of the list. -/
theorem stands_separatedElements {build : Piece → Nat → Node} (hbuild : stands W build) {separators : List Token}
    {trailing : Option Token} {items : List Piece} (hseparators : stands W separators)
    (htrailing : stands W trailing) (hitems : stands W items) :
    stands W (separatedElements build separators trailing items) := by
  fun_induction separatedElements build separators trailing items with
  | case1 => exact stands_nil
  | case2 separators p =>
    obtain ⟨hp, -⟩ := stands_cons.1 hitems
    exact stands_cons.2 ⟨hbuild p hp _ (stands_elementStop (last_of_stands hp) htrailing stands_none), stands_nil⟩
  | case3 separators p q rest ih =>
    obtain ⟨hp, hrest⟩ := stands_cons.1 hitems
    have hnext : stands W (some q.first) := stands_some.2 (first_of_stands (stands_cons.1 hrest).1)
    have htail : stands W separators.tail := fun t ht => hseparators t (List.mem_of_mem_tail ht)
    exact stands_cons.2 ⟨hbuild p hp _ (stands_elementStop (last_of_stands hp) (stands_head? hseparators) hnext),
      ih htail hrest⟩

theorem withCommas_builds {p : Recognizer Piece} (hp : Builds W p) : Builds W (withCommas p) := by
  refine hp.bind fun first hfirst => (Builds.many ((Builds.op _).bind fun _ hcomma => hp.bind fun _ hq =>
    .pure (stands_pair.2 ⟨hcomma, hq⟩))).bind fun rest hrest => (Builds.op _).maybe.bind fun trailing htrailing => ?_
  exact .pure ⟨stands_cons.2 ⟨hfirst, stands_map (fun _ => snd_of_stands) hrest⟩,
    stands_map (fun _ => fst_of_stands) hrest, htrailing⟩

theorem stands_sequenceElement : stands W sequenceElement := by
  intro p hp stop hstop
  unfold sequenceElement
  split <;> grind

/-- The end of the last element. -/
theorem stands_lastElement {elements : List Node} {p : Piece} (h : stands W elements) (hp : stands W p) :
    stands W ((elements.getLast?.map (·.span.stop)).getD p.last) :=
  (stands_getD (stands_optionMap (fun _ => span_stop_of_stands) (stands_getLast? h))
    (last_of_stands hp))

theorem dottedPath_builds : Builds W dottedPath := by
  refine Builds.named fun first hfirst hkind => (Builds.skip fun _ => .identifier).many.bindFinds
    (Finds.many (.skip fun _ => .identifier)) fun rest hrest hkinds => .pure ?_
  have hpath {p : Piece} (hp : stands W p) : stands W (rest.foldl (fun p name =>
      .make (.attribute (some (attributeName p.node name.text))) p.first name.stop [p.node, nameNode name]) p) := by
    induction rest generalizing p with
    | nil => exact hp
    | cons name rest ih =>
      obtain ⟨hname, hrest⟩ := stands_cons.1 hrest
      obtain ⟨hnamed, hkinds⟩ := List.forall_mem_cons.1 hkinds
      exact ih hrest hkinds (stands_member hp hname hnamed)
  exact hpath (stands_ofNode.2 (stands_nameNode hfirst hkind))

theorem signedNumber_builds : Builds W signedNumber := by
  refine (Builds.op _).maybe.bind fun sign hsign => ?_
  split
  · exact number_builds.bind fun _ _ => .pure (by grind)
  · exact number_builds

theorem numberPattern_builds : Builds W numberPattern := by
  refine signedNumber_builds.bind fun left hleft => (Builds.skip fun _ => number_builds).maybe.bind
    fun right hright => ?_
  split
  · exact .pure (stands_binary (by decide) hleft (stands_some.1 hright))
  · exact .pure hleft

theorem stands_valuePattern {p : Piece} (h : stands W p) : stands W (valuePattern p) := by
  unfold valuePattern
  grind

theorem label_of_hasShape {shape : Shape} {n : Node} (h : hasShape shape n = true) :
    n.label = .python (.plain shape) := by
  unfold hasShape at h
  split at h
  · rename_i hlabel
    rw [hlabel, beq_iff_eq.1 h]
  · cases h

/-- A value keeps its node when it takes the parentheses around it: it is of a form that does not tell its
spelling, and not a block. -/
theorem stands_groupedPattern {first last : Nat} {p : Piece} (hfirst : stands W first) (hlast : stands W last)
    (h : stands W p) : stands W (groupedPattern first last p) := by
  unfold groupedPattern
  split
  · rename_i hshape
    obtain ⟨shape, hother, hlabel⟩ : ∃ shape, shape ≠ .indentedBlock ∧ p.node.label = .python (.plain shape) := by
      rcases Bool.or_eq_true_iff.1 hshape with hshape | hshape
      · exact ⟨_, by decide, label_of_hasShape hshape⟩
      · exact ⟨_, by decide, label_of_hasShape hshape⟩
    have hnode : { p.node with span := .between first last } = plainNode shape first last p.node.children := by
      rw [plainNode, nodeOf, ← hlabel]
    rw [hnode]
    grind
  · grind

theorem starPattern_builds : Builds W starPattern := by
  refine (Builds.op _).bind fun t ht => Builds.named fun name hname hkind => ?_
  have hchildren : stands W (if name.text = "_" then [] else [nameNode name]) := by
    split <;> grind
  exact .pure (stands_plain (by decide) ⟨start_of_stands ht, stop_of_stands hname, hchildren⟩)

section Grammar

variable (hg : ∀ x, Builds W (g x))

include hg

theorem maybeStarPattern_builds : Builds W (maybeStarPattern g) :=
  starPattern_builds.orElse (hg _)

theorem bracketPattern_builds : Builds W (bracketPattern g) := by
  refine (Builds.op _).bind fun opening hopening => .skip fun _ => .ite ?_ ?_
  · exact (Builds.op _).bind fun _ _ => .pure (by grind)
  · refine (withCommas_builds (hg _)).bind fun found hfound => (Builds.op _).bind fun closing hclosing => .pure ?_
    have := stands_separatedElements stands_sequenceElement hfound.2.1 hfound.2.2 hfound.1
    grind

theorem parenthesisPattern_builds : Builds W (parenthesisPattern g) := by
  refine (Builds.op _).bind fun opening hopening => .skip fun _ => .ite ?empty ?full
  case empty => exact (Builds.op _).bind fun _ _ => .pure (by grind)
  case full =>
    refine (withCommas_builds (hg _)).bind fun ⟨items, commas, trailing⟩ ⟨hitems, hcommas, htrailing⟩ =>
      (Builds.op _).bind fun closing hclosing => ?_
    have helements := stands_separatedElements stands_sequenceElement hcommas htrailing hitems
    dsimp only at helements ⊢
    split
    · exact .skip fun _ => .pure (stands_groupedPattern (start_of_stands hopening) (stop_of_stands hclosing)
        (stands_cons.1 hitems).1)
    · have hstop := stands_lastElement helements (stands_cons.1 hitems).1
      exact .pure (by grind)
    · exact .fail

theorem mappingKey_builds : Builds W (mappingKey g) := by
  refine Builds.peek fun t ht => ?_
  split
  · refine .ite ((Builds.kind _).bindFinds (.kind _) fun _ _ _ => .pure (by grind)) ?_
    exact dottedPath_builds.bind fun _ h => .skip fun _ => .pure h
  · exact strings_builds hg
  · exact strings_builds hg
  · exact numberPattern_builds

theorem mappingEntry_builds : Builds W (mappingEntry g) :=
  (mappingKey_builds hg).bind fun _ _ => .skip fun _ => (hg _).bind fun _ _ => .pure (by grind)

theorem mappingPattern_builds : Builds W (mappingPattern g) := by
  refine (Builds.op _).bind fun opening hopening => ?_
  refine (Builds.maybe ((mappingEntry_builds hg).bind fun _ hfirst =>
    (Builds.skip fun _ => mappingEntry_builds hg).many.bind fun _ hrest =>
      .pure (stands_cons.2 ⟨hfirst, hrest⟩))).bind fun entries hentries => ?_
  refine .bindFinds (.maybe ?_) (Finds.maybe (P := fun t => t.kind = .name) ?_)
    fun (rest : Option Token) hrest hkind => ?_
  · exact .ite (.skip fun _ => .skip fun _ => .identifier) (.skip fun _ => .identifier)
  · exact .ite (.skip fun _ => .skip fun _ => .identifier) (.skip fun _ => .identifier)
  have hstarred : stands W (rest.toList.map nameNode) := by
    cases rest with
    | none => exact stands_nil
    | some name => exact stands_cons.2 ⟨stands_nameNode (stands_some.1 hrest) (hkind name rfl), stands_nil⟩
  have hentries := stands_getD hentries stands_nil
  -- a comma may stand before the brace
  refine .ite (.skip fun _ => ?_) ?_
  all_goals exact (Builds.op _).bind fun _ _ => .pure (by grind)

theorem keywordPattern_builds : Builds W (keywordPattern g) :=
  Builds.named fun _ _ _ => .skip fun _ => (hg _).bind fun _ _ => .pure (by grind)

theorem classArguments_builds : Builds W (classArguments g) := by
  refine (withCommas_builds ((keywordPattern_builds hg).orElse (hg _))).maybe.bind fun found hfound => .skip fun _ => ?_
  split
  · exact .pure stands_nil
  · obtain ⟨hitems, hcommas, htrailing⟩ := stands_some.1 hfound
    refine .skip fun _ => .pure (stands_separatedElements ?_ hcommas htrailing hitems)
    intro p hp stop hstop
    dsimp only
    split
    · exact hp.1
    · exact stands_sequenceElement p hp stop hstop

theorem namePattern_builds : Builds W (namePattern g) := by
  refine dottedPath_builds.bind fun p hp => .skip fun _ => .ite ?_ ?_
  · exact .skip fun _ => (classArguments_builds hg).bind fun _ _ => Builds.lastStop.bind fun _ _ => .pure (by grind)
  · split
    · rename_i value _
      have hchildren : stands W (if value = "_" then [] else [p.node]) := by
        split <;> grind
      exact .skip fun _ => .skip fun _ =>
        .pure (stands_plain (by decide) ⟨first_of_stands hp, last_of_stands hp, hchildren⟩)
    · exact .pure (stands_valuePattern hp)

theorem closedPattern_builds : Builds W (closedPattern g) := by
  refine Builds.peek fun t ht => ?_
  have hnumber : Builds W (do return valuePattern (← numberPattern)) :=
    numberPattern_builds.bind fun _ h => .pure (stands_valuePattern h)
  have hstrings : Builds W (do return valuePattern (← strings g)) :=
    (strings_builds hg).bind fun _ h => .pure (stands_valuePattern h)
  split
  · exact .ite ((Builds.kind _).bindFinds (.kind _) fun _ _ _ => .pure (by grind)) (namePattern_builds hg)
  · exact hstrings
  · exact hstrings
  · exact .ite (parenthesisPattern_builds hg) <| .ite (bracketPattern_builds hg) <|
      .ite (mappingPattern_builds hg) hnumber
  · exact hnumber

omit hg in
theorem stands_alternativeElement : stands W alternativeElement := by
  intro p hp stop hstop
  unfold alternativeElement
  grind

theorem alternatives_builds : Builds W (alternatives g) := by
  refine (closedPattern_builds hg).bind fun first hfirst => (Builds.many ((Builds.op _).bind fun _ hbar =>
    (closedPattern_builds hg).bind fun _ hp => .pure (stands_pair.2 ⟨hbar, hp⟩))).bind fun rest hrest => ?_
  split
  · exact .pure hfirst
  · rename_i bar last hlast
    have hlast' := (stands_getLast? hrest _ hlast).2
    have hitems : stands W (first :: rest.map Prod.snd) :=
      stands_cons.2 ⟨hfirst, stands_map (fun _ => snd_of_stands) hrest⟩
    have := stands_separatedElements stands_alternativeElement (stands_map (fun _ => fst_of_stands) hrest) stands_none
      hitems
    exact .pure (by grind)

theorem pattern_builds : Builds W (pattern g) := by
  refine (alternatives_builds hg).bind fun p hp => .skip fun _ => .ite ?_ (.pure hp)
  exact .skip fun _ => Builds.named fun _ _ _ => .skip fun _ => .pure (by grind)

theorem casePatterns_builds : Builds W (casePatterns g) := by
  refine (withCommas_builds (hg _)).bind fun ⟨items, commas, trailing⟩ ⟨hitems, hcommas, htrailing⟩ => ?_
  have helements := stands_separatedElements stands_sequenceElement hcommas htrailing hitems
  dsimp only at helements ⊢
  split
  · exact .skip fun _ => .pure (stands_cons.1 hitems).1
  · have hstop := stands_lastElement helements (stands_cons.1 hitems).1
    exact .pure (by grind)
  · exact .fail

end Grammar

end HouseStyle.Python
