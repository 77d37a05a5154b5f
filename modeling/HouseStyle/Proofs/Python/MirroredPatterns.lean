import HouseStyle.Proofs.Python.MirroredExpressions
import HouseStyle.Proofs.Python.Patterns

/-!
# Patterns are read alike

The rules for patterns read rows of tokens alike that mirror each other, when the rules one level deeper do.

* `mirrored_separatedElements`: elements with the separators that belong to them.
* `pattern_tracks`, `casePatterns_tracks`: the entry points.
-/

namespace HouseStyle.Python

open Recognizer

variable {D : Drift} {M : Mirror} {g : Grammar}

theorem mirrored_elementStop {last last' : Nat} {separator separator' : Option Token} {next next' : Option Nat}
    (hlast : mirrored D last last') (hseparator : mirrored D separator separator') (hnext : mirrored D next next') :
    mirrored D (elementStop last separator next) (elementStop last' separator' next') := by
  unfold elementStop
  cases hseparator with
  | some h => exact mirrored_getD hnext (stop_of_mirrored h)
  | none => exact hlast

/-- Elements correspond, by the recursion of the list. -/
theorem mirrored_separatedElements {build build' : Piece → Nat → Node} (hbuild : mirrored D build build')
    {separators separators' : List Token} {trailing trailing' : Option Token} {items items' : List Piece}
    (hseparators : mirrored D separators separators') (htrailing : mirrored D trailing trailing')
    (hitems : mirrored D items items') :
    mirrored D (separatedElements build separators trailing items)
      (separatedElements build' separators' trailing' items') := by
  induction hitems generalizing separators separators' with
  | nil => exact mirrored_nil
  | @cons p p' rest rest' hp hrest ih =>
    have hlast := last_of_mirrored hp
    cases hrest with
    | nil => exact mirrored_cons (hbuild p p' hp _ _ (mirrored_elementStop hlast htrailing mirrored_none)) mirrored_nil
    | cons hq _ =>
      have hstop := mirrored_elementStop hlast (mirrored_head? hseparators) (mirrored_some (first_of_mirrored hq))
      exact mirrored_cons (hbuild p p' hp _ _ hstop) (ih (mirrored_tail hseparators))

theorem withCommas_tracks {p : Recognizer Piece} (hp : Tracks M p p) : Tracks M (withCommas p) (withCommas p) := by
  refine hp.bind fun first first' hfirst => (Tracks.many ((Tracks.op _).bind fun _ _ hcomma => hp.bind fun _ _ hq =>
    .pure (mirrored_pair hcomma hq))).bind fun rest rest' hrest => (Tracks.op _).maybe.bind
      fun trailing trailing' htrailing => .pure ?_
  exact ⟨mirrored_cons hfirst (mirrored_map (fun _ _ => snd_of_mirrored) hrest),
    mirrored_map (fun _ _ => fst_of_mirrored) hrest, htrailing⟩

theorem isStarPattern_of_mirrored {p p' : Piece} (h : mirrored D p p') : isStarPattern p' = isStarPattern p :=
  hasShape_of_mirrored (node_of_mirrored h) _

theorem mirrored_sequenceElement : mirrored D sequenceElement sequenceElement := by
  intro p p' hp stop stop' hstop
  unfold sequenceElement
  rw [isStarPattern_of_mirrored hp]
  split <;> grind

/-- The end of the last element. -/
theorem mirrored_lastElement {elements elements' : List Node} {p p' : Piece} (h : mirrored D elements elements')
    (hp : mirrored D p p') : mirrored D ((elements.getLast?.map (·.span.stop)).getD p.last)
      ((elements'.getLast?.map (·.span.stop)).getD p'.last) :=
  mirrored_getD (mirrored_optionMap (fun _ _ => span_stop_of_mirrored) (mirrored_getLast? h)) (last_of_mirrored hp)

theorem dottedPath_tracks : Tracks M dottedPath dottedPath := by
  refine Tracks.named fun first first' hfirst hkind => (Tracks.afterOp _ .identifier).many.bindFinds
    (Finds.many (.skip fun _ => .identifier)) fun rest rest' hrest hkinds => .pure ?_
  have hpath {p p' : Piece} (hp : mirrored M.toDrift p p') : mirrored M.toDrift
      (rest.foldl (fun p name => .make (.attribute (some (attributeName p.node name.text))) p.first name.stop
        [p.node, nameNode name]) p)
      (rest'.foldl (fun p name => .make (.attribute (some (attributeName p.node name.text))) p.first name.stop
        [p.node, nameNode name]) p') := by
    induction hrest generalizing p p' with
    | nil => exact hp
    | cons hname _ ih =>
      obtain ⟨hnamed, hkinds⟩ := List.forall_mem_cons.1 hkinds
      exact ih hkinds (mirrored_member hp hname hnamed)
  exact hpath (mirrored_ofNode (mirrored_nameNode hfirst hkind))

theorem signedNumber_tracks : Tracks M signedNumber signedNumber := by
  refine (Tracks.op _).maybe.bind fun sign sign' hsign => ?_
  cases hsign with
  | some ht => exact number_tracks.bind fun _ _ _ => .pure (by grind)
  | none => exact number_tracks

theorem numberPattern_tracks : Tracks M numberPattern numberPattern := by
  have hmore : Tracks M (Recognizer.maybe (oneOf ["+", "-"] *> number)) (Recognizer.maybe (oneOf ["+", "-"] *> number)) :=
    Tracks.maybe ((Tracks.oneOf _).bind fun _ _ _ => number_tracks)
  refine signedNumber_tracks.bind fun left left' hleft => hmore.bind fun right right' hright => ?_
  cases hright with
  | some hright => exact .pure (mirrored_binary hleft hright)
  | none => exact .pure hleft

theorem mirrored_valuePattern {p p' : Piece} (h : mirrored D p p') : mirrored D (valuePattern p) (valuePattern p') := by
  unfold valuePattern
  grind

/-- A value keeps its form when it takes the parentheses around it. -/
theorem mirrored_groupedPattern {first first' last last' : Nat} {p p' : Piece} (hfirst : mirrored D first first')
    (hlast : mirrored D last last') (h : mirrored D p p') :
    mirrored D (groupedPattern first last p) (groupedPattern first' last' p') := by
  have hnode := node_of_mirrored h
  unfold groupedPattern
  rw [hasShape_of_mirrored hnode, hasShape_of_mirrored hnode]
  split
  · rename_i hshape
    obtain ⟨shape, hlabel⟩ : ∃ shape, p.node.label = .python (.plain shape) := by
      rcases Bool.or_eq_true_iff.1 hshape with hshape | hshape
      · exact ⟨_, label_of_hasShape hshape⟩
      · exact ⟨_, label_of_hasShape hshape⟩
    obtain ⟨node, _, _⟩ := p
    obtain ⟨node', _, _⟩ := p'
    cases hnode with
    | @node f f' s s' ns ns' form start stop children =>
      cases hlabel
      cases form with
      | same hform => exact mirrored_ofNode (mirrored_nodeOf rfl ⟨hfirst, hlast, children⟩)
  · grind

theorem starPattern_tracks : Tracks M starPattern starPattern := by
  refine (Tracks.op _).bind fun t t' ht => Tracks.named fun name name' hname hkind => ?_
  rw [text_of_mirrored hname (by rw [hkind]; decide)]
  have hchildren : mirrored M.toDrift (if name.text = "_" then [] else [nameNode name])
      (if name.text = "_" then [] else [nameNode name']) := by
    split <;> grind
  exact .pure (mirrored_plain ⟨start_of_mirrored ht, stop_of_mirrored hname, hchildren⟩)

theorem kind_of_mirrored_node {n n' : Node} (h : mirrored D n n') : n'.kind = n.kind := by
  cases h with
  | node form =>
    cases form <;> rfl

section Grammar

variable (hg : ∀ x, Tracks M (g x) (g x))

include hg

theorem maybeStarPattern_tracks : Tracks M (maybeStarPattern g) (maybeStarPattern g) :=
  starPattern_tracks.orElse (hg _)

theorem bracketPattern_tracks : Tracks M (bracketPattern g) (bracketPattern g) := by
  refine (Tracks.op _).bind fun opening opening' hopening => .atOp fun _ => .ite rfl ?_ ?_
  · exact (Tracks.op _).bind fun _ _ _ => .pure (by grind)
  · refine (withCommas_tracks (hg _)).bind fun found found' hfound => (Tracks.op _).bind fun closing closing' hclosing =>
      .pure ?_
    have := mirrored_separatedElements mirrored_sequenceElement hfound.2.1 hfound.2.2 hfound.1
    grind

/-- Elements between commas: a lone one without a comma, or a sequence. -/
theorem parenthesisPattern_tracks : Tracks M (parenthesisPattern g) (parenthesisPattern g) := by
  refine (Tracks.op _).bind fun opening opening' hopening => .atOp fun _ => .ite rfl ?empty ?full
  case empty => exact (Tracks.op _).bind fun _ _ _ => .pure (by grind)
  case full =>
    refine (withCommas_tracks (hg _)).bind fun ⟨items, commas, trailing⟩ ⟨items', commas', trailing'⟩
      ⟨hitems, hcommas, htrailing⟩ => (Tracks.op _).bind fun closing closing' hclosing => ?_
    have helements := mirrored_separatedElements mirrored_sequenceElement hcommas htrailing hitems
    dsimp only at hitems hcommas htrailing helements ⊢
    rcases hitems with _ | ⟨hp, hrest⟩
    · exact .fail
    · have hstop := mirrored_lastElement helements hp
      rcases hrest with _ | _ <;> rcases htrailing with _ | _
      case cons.nil.none =>
        exact .guard (by rw [isStarPattern_of_mirrored hp]) (.pure (mirrored_groupedPattern
          (start_of_mirrored hopening) (stop_of_mirrored hclosing) hp))
      all_goals
        exact .pure (by grind)

theorem mappingKey_tracks : Tracks M (mappingKey g) (mappingKey g) := by
  refine Tracks.peek fun t t' ht => ?_
  rw [kind_of_mirrored ht]
  split
  · rename_i hkind
    rw [text_of_mirrored ht (by rw [hkind]; decide)]
    refine .ite rfl ((Tracks.kind _).bindFinds (.kind _) fun _ _ _ _ => .pure (by grind)) ?_
    exact dottedPath_tracks.bind fun _ _ h =>
      .guard (by rw [kind_of_mirrored_node (node_of_mirrored h)]) (.pure h)
  · exact strings_tracks hg
  · exact strings_tracks hg
  · exact numberPattern_tracks

theorem mappingEntry_tracks : Tracks M (mappingEntry g) (mappingEntry g) :=
  (mappingKey_tracks hg).bind fun _ _ _ => (Tracks.op _).bind fun _ _ _ => (hg _).bind fun _ _ _ => .pure (by grind)

theorem mappingPattern_tracks : Tracks M (mappingPattern g) (mappingPattern g) := by
  refine (Tracks.op _).bind fun opening opening' hopening => ?_
  refine (Tracks.maybe ((mappingEntry_tracks hg).bind fun _ _ hfirst =>
    (Tracks.afterOp _ (mappingEntry_tracks hg)).many.bind fun _ _ hrest =>
      .pure (mirrored_cons hfirst hrest))).bind fun entries entries' hentries => ?_
  have hsome := isSome_of_mirrored hentries
  refine Tracks.bindFinds (.maybe ?_) (Finds.maybe (P := fun t => t.kind = .name) ?_)
    fun (rest rest' : Option Token) hrest hkind => ?_
  · exact .ite hsome ((Tracks.op _).bind fun _ _ _ => (Tracks.op _).bind fun _ _ _ => .identifier)
      ((Tracks.op _).bind fun _ _ _ => .identifier)
  · exact .ite (.skip fun _ => .skip fun _ => .identifier) (.skip fun _ => .identifier)
  have hstarred : mirrored M.toDrift (rest.toList.map nameNode) (rest'.toList.map nameNode) := by
    cases hrest with
    | none => exact mirrored_nil
    | some hname => exact mirrored_cons (mirrored_nameNode hname (hkind _ rfl)) mirrored_nil
  have hall := mirrored_append (mirrored_getD hentries mirrored_nil) hstarred
  -- a comma may stand before the brace
  refine .ite (by rw [hsome, isSome_of_mirrored hrest]) ((Tracks.op _).maybe.bind fun _ _ _ => ?_) ?_
  all_goals exact (Tracks.op _).bind fun _ _ _ => .pure (by grind)

theorem keywordPattern_tracks : Tracks M (keywordPattern g) (keywordPattern g) :=
  Tracks.named fun _ _ _ _ => (Tracks.op _).bind fun _ _ _ => (hg _).bind fun _ _ _ => .pure (by grind)

theorem classArguments_tracks : Tracks M (classArguments g) (classArguments g) := by
  refine (withCommas_tracks ((keywordPattern_tracks hg).orElse (hg _))).maybe.bind fun found found' hfound =>
    (Tracks.op _).bind fun _ _ _ => ?_
  cases hfound with
  | none => exact .pure mirrored_nil
  | some hfound =>
    obtain ⟨hitems, hcommas, htrailing⟩ := hfound
    have hkeyword {p p' : Piece} (hp : mirrored M.toDrift p p') :
        (hasShape .matchKeywordElement p'.node && p'.isBare) = (hasShape .matchKeywordElement p.node && p.isBare) := by
      rw [hasShape_of_mirrored (node_of_mirrored hp), isBare_of_mirrored hp]
    refine .guard (all_of_mirrored (fun _ _ => hkeyword)
      (mirrored_dropWhile (fun _ _ hp => congrArg not (hkeyword hp)) hitems)) (.pure ?_)
    refine mirrored_separatedElements (fun p p' hp stop stop' hstop => ?_) hcommas htrailing hitems
    by_cases hshape : (hasShape .matchKeywordElement p.node && p.isBare) = true
    · rw [if_pos hshape, if_pos ((hkeyword hp).trans hshape)]
      exact node_of_mirrored hp
    · rw [if_neg hshape, if_neg (fun h => hshape ((hkeyword hp).symm.trans h))]
      exact mirrored_sequenceElement p p' hp stop stop' hstop

theorem namePattern_tracks : Tracks M (namePattern g) (namePattern g) := by
  refine dottedPath_tracks.bind fun p p' hp => .atOp fun _ => .ite rfl ?_ ?_
  · exact (Tracks.op _).bind fun _ _ _ => (classArguments_tracks hg).bind fun _ _ _ => Tracks.lastStop.bind fun _ _ _ =>
      .pure (by grind)
  · obtain ⟨node, first, last⟩ := p
    obtain ⟨node', first', last'⟩ := p'
    have hnode : mirrored M.toDrift node node' := node_of_mirrored hp
    cases hnode with
    | @node f _ _ _ _ _ form =>
      cases form with
      | literal => exact .pure (mirrored_valuePattern hp)
      | same =>
        cases f with
        | name value =>
          refine .atOp fun _ => .guard rfl (.pure (mirrored_plain ⟨first_of_mirrored hp, last_of_mirrored hp, ?_⟩))
          split
          · exact mirrored_nil
          · exact mirrored_cons (node_of_mirrored hp) mirrored_nil
        | _ => exact .pure (mirrored_valuePattern hp)

theorem closedPattern_tracks : Tracks M (closedPattern g) (closedPattern g) := by
  refine Tracks.peek fun t t' ht => ?_
  have hnumber : Tracks M (do return valuePattern (← numberPattern)) (do return valuePattern (← numberPattern)) :=
    numberPattern_tracks.bind fun _ _ h => .pure (mirrored_valuePattern h)
  have hstrings : Tracks M (do return valuePattern (← strings g)) (do return valuePattern (← strings g)) :=
    (strings_tracks hg).bind fun _ _ h => .pure (mirrored_valuePattern h)
  rw [kind_of_mirrored ht]
  split
  · rename_i hkind
    rw [text_of_mirrored ht (by rw [hkind]; decide)]
    exact .ite rfl ((Tracks.kind _).bindFinds (.kind _) fun _ _ _ _ => .pure (by grind)) (namePattern_tracks hg)
  · exact hstrings
  · exact hstrings
  · exact .ite (isOperator_of_mirrored ht _) (parenthesisPattern_tracks hg) <|
      .ite (isOperator_of_mirrored ht _) (bracketPattern_tracks hg) <|
        .ite (isOperator_of_mirrored ht _) (mappingPattern_tracks hg) hnumber
  · exact hnumber

omit hg in
theorem mirrored_alternativeElement : mirrored D alternativeElement alternativeElement := by
  intro p p' hp stop stop' hstop
  unfold alternativeElement
  grind

theorem alternatives_tracks : Tracks M (alternatives g) (alternatives g) := by
  refine (closedPattern_tracks hg).bind fun first first' hfirst => (Tracks.many ((Tracks.op _).bind fun _ _ hbar =>
    (closedPattern_tracks hg).bind fun _ _ hp => .pure (mirrored_pair hbar hp))).bind fun rest rest' hrest => ?_
  have hlast := mirrored_getLast? hrest
  have hitems := mirrored_cons hfirst (mirrored_map (fun _ _ => snd_of_mirrored) hrest)
  have helements := mirrored_separatedElements mirrored_alternativeElement
    (mirrored_map (fun _ _ => fst_of_mirrored) hrest) mirrored_none hitems
  generalize rest.getLast? = last at hlast ⊢
  generalize rest'.getLast? = last' at hlast ⊢
  cases hlast with
  | none => exact .pure hfirst
  | some hlast => exact .pure (mirrored_plain ⟨first_of_mirrored hfirst, last_of_mirrored hlast.2, helements⟩)

theorem pattern_tracks : Tracks M (pattern g) (pattern g) := by
  refine (alternatives_tracks hg).bind fun p p' hp => .atWord fun _ => .ite rfl ?_ (.pure hp)
  refine (Tracks.word _).bind fun _ _ _ => Tracks.named fun name name' hname hkind => ?_
  rw [text_of_mirrored hname (by rw [hkind]; decide)]
  exact .guard rfl (.pure (by grind))

theorem casePatterns_tracks : Tracks M (casePatterns g) (casePatterns g) := by
  refine (withCommas_tracks (hg _)).bind fun ⟨items, commas, trailing⟩ ⟨items', commas', trailing'⟩
    ⟨hitems, hcommas, htrailing⟩ => ?_
  have helements := mirrored_separatedElements mirrored_sequenceElement hcommas htrailing hitems
  dsimp only at hitems hcommas htrailing helements ⊢
  rcases hitems with _ | ⟨hp, hrest⟩
  · exact .fail
  · have hstop := mirrored_lastElement helements hp
    rcases hrest with _ | _ <;> rcases htrailing with _ | _
    case cons.nil.none => exact .guard (by rw [isStarPattern_of_mirrored hp]) (.pure hp)
    all_goals exact .pure (by grind)

end Grammar

end HouseStyle.Python
