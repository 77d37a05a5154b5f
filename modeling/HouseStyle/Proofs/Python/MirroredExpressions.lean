import HouseStyle.Proofs.Python.Mirrors

/-!
# Expressions are read alike

The rules for expressions, and for the lists between brackets in them, read rows of tokens alike that mirror each other,
when the rules one level deeper do.

* `parameters_tracks`, `callArguments_tracks`, `subscripts_tracks`: the lists.
* `plainString_tracks`: where literals may be spelled in other ways.
* `expression_tracks`, `starExpressions_tracks`, `starTargets_tracks`: the entry points.
-/

namespace HouseStyle.Python

open Recognizer

variable {D : Drift} {M : Mirror} {g : Grammar}

/-! ### Parameters -/

theorem mirrored_paramNode {start start' : Nat} {name name' : Token} {hint hint' value value' : Option Piece}
    (hstart : mirrored D start start') (hname : mirrored D name name') (hkind : name.kind = .name)
    (hhint : mirrored D hint hint') (hvalue : mirrored D value value') :
    mirrored D (paramNode start name hint value) (paramNode start' name' hint' value') := by
  unfold paramNode
  rw [text_of_mirrored hname (by rw [hkind]; decide)]
  cases hhint <;> cases hvalue <;> grind

/-- The nodes of clauses, each in the one before it. -/
theorem mirrored_nestClauses {clauses clauses' : List (Nat × List Node × Nat)} (h : mirrored D clauses clauses') :
    mirrored D (nestClauses clauses) (nestClauses clauses') := by
  induction h with
  | nil => exact mirrored_nil
  | @cons clause clause' rest rest' hclause _ ih =>
    obtain ⟨hstart, hparts, hstop⟩ := hclause
    have hlast : mirrored D (((nestClauses rest).head?.map (·.span.stop)).getD clause.2.2)
        (((nestClauses rest').head?.map (·.span.stop)).getD clause'.2.2) :=
      mirrored_getD (mirrored_optionMap (fun _ _ => span_stop_of_mirrored) (mirrored_head? ih)) hstop
    exact mirrored_cons (mirrored_plainNode ⟨hstart, hlast, mirrored_append hparts ih⟩) mirrored_nil

@[grind .] theorem mirrored_argument {n n' : Node} {keyword : Option String} {stars : Nat} (h : mirrored D n n') :
    mirrored D (⟨n, keyword, stars⟩ : Argument) ⟨n', keyword, stars⟩ :=
  Argument.Mirrors.mk h rfl rfl

theorem node_of_mirrored_argument {a a' : Argument} (h : mirrored D a a') : mirrored D a.node a'.node :=
  Argument.Mirrors.node h

theorem isPlain_of_mirrored {a a' : Argument} (h : mirrored D a a') : a'.isPlain = a.isPlain := by
  unfold Argument.isPlain
  rw [Argument.Mirrors.keyword h, Argument.Mirrors.stars h]

theorem keywords_of_mirrored {args args' : List Argument} (h : mirrored D args args') :
    args'.filterMap Argument.keyword = args.filterMap Argument.keyword := by
  induction h with
  | nil => rfl
  | cons ha _ ih => rw [List.filterMap_cons, List.filterMap_cons, Argument.Mirrors.keyword ha, ih]

section Grammar

variable (hg : ∀ x, Tracks M (g x) (g x))

include hg

theorem typeHint_tracks : Tracks M (typeHint g) (typeHint g) :=
  (Tracks.op _).bind fun _ _ _ => (hg _).bind fun _ _ _ => .pure (by grind)

theorem starredHint_tracks : Tracks M (starredHint g) (starredHint g) :=
  (Tracks.op _).bind fun _ _ _ => (Tracks.op _).bind fun _ _ _ => (hg _).bind fun _ _ _ => .pure (by grind)

theorem parameter_tracks (hinted starred defaults : Bool) {start start' : Option Nat}
    (hstart : mirrored M.toDrift start start') :
    Tracks M (parameter g hinted starred defaults start) (parameter g hinted starred defaults start') := by
  refine Tracks.named fun name name' hname hkind =>
    .ite rfl (.ite rfl ?_ ?_) (Tracks.bind (.pure mirrored_none) ?hint)
  · exact (Tracks.orElse (starredHint_tracks hg) (typeHint_tracks hg)).maybe.bind ?hint
  · exact (typeHint_tracks hg).maybe.bind ?hint
  intro hint hint' hhint
  refine .ite rfl ((Tracks.afterOp _ (hg _)).maybe.bind ?value) (Tracks.bind (.pure mirrored_none) ?value)
  intro value value' hvalue
  refine .pure ⟨?_, (isSome_of_mirrored hvalue).symm⟩
  exact mirrored_paramNode (mirrored_getD hstart (start_of_mirrored hname)) hname hkind hhint hvalue

theorem parameterItem_tracks (hinted : Bool) (s : ParameterState) :
    Tracks M (parameterItem g hinted s) (parameterItem g hinted s) := by
  refine Tracks.peek fun t t' ht => .ite (isOperator_of_mirrored ht _) ?slash <|
    .ite (isOperator_of_mirrored ht _) ?closed <| .ite (isOperator_of_mirrored ht _) ?starred ?plain
  case slash =>
    exact (Tracks.op _).bind fun _ _ _ => .guard rfl <| .pure ⟨fun stop stop' hstop => by grind, rfl⟩
  case closed =>
    refine (Tracks.op _).bind fun _ _ _ => .guard rfl ?_
    exact (parameter_tracks hg _ _ _ (mirrored_some (start_of_mirrored ht))).bind fun _ _ h =>
      .pure ⟨fun _ _ _ => h.1, rfl⟩
  case starred =>
    refine (Tracks.op _).bind fun _ _ _ => .guard rfl <| .atOp fun _ => .ite rfl ?_ ?_
    · exact .pure ⟨fun stop stop' hstop => by grind, rfl⟩
    · exact (parameter_tracks hg _ _ _ (mirrored_some (start_of_mirrored ht))).bind fun _ _ h =>
        .pure ⟨fun _ _ _ => h.1, rfl⟩
  case plain =>
    refine (parameter_tracks hg _ _ _ mirrored_none).bind fun found found' h => ?_
    obtain ⟨n, hasDefault⟩ := found
    obtain ⟨n', hasDefault'⟩ := found'
    obtain ⟨hn, heq⟩ := h
    obtain rfl : hasDefault = hasDefault' := heq
    exact .guard rfl (.pure ⟨fun _ _ _ => hn, rfl⟩)

theorem parametersFrom_tracks (hinted : Bool) (closing : String) (fuel : Nat) (s : ParameterState) :
    Tracks M (parametersFrom g hinted closing fuel s) (parametersFrom g hinted closing fuel s) := by
  induction fuel generalizing s with
  | zero => exact .fail
  | succ fuel ih =>
    refine .atOp fun _ => .ite rfl (.guard rfl (.pure mirrored_nil)) (.guard rfl ?_)
    refine (parameterItem_tracks hg hinted s).bind fun item item' hitem => (Tracks.op _).maybe.bind
      fun comma comma' hcomma => Tracks.peek fun next next' hnext => .guard ?_ ?_
    · rw [isSome_of_mirrored hcomma, isOperator_of_mirrored hnext]
    · rw [← (hitem.2 : _ = _)]
      exact (ih _).bind fun rest rest' hrest =>
        .pure (mirrored_cons (hitem.1 _ _ (start_of_mirrored hnext)) hrest)

theorem parameters_tracks (hinted : Bool) (closing : String) {empty empty' : Option Nat}
    (hempty : mirrored M.toDrift empty empty') :
    Tracks M (parameters g hinted closing empty) (parameters g hinted closing empty') := by
  refine Tracks.peek fun opening opening' hopening =>
    (Tracks.fueled fun fuel => parametersFrom_tracks hg hinted closing fuel _).bind fun items items' hitems =>
      Tracks.peek fun next next' hnext => .ite (isEmpty_of_mirrored hitems) ?_ ?_
  · have hhere := mirrored_getD hempty (start_of_mirrored hnext)
    exact .pure (by grind)
  · exact .pure (by grind)

/-! ### Comprehensions, arguments, subscripts -/

theorem compIf_tracks : Tracks M (compIf g) (compIf g) :=
  Tracks.lastStop.bind fun _ _ _ => (Tracks.word _).bind fun _ _ _ => (hg _).bind fun _ _ _ => .pure (by grind)

theorem compClause_tracks : Tracks M (compClause g) (compClause g) := by
  refine Tracks.lastStop.bind fun start start' hstart => (Tracks.word _).maybe.bind fun async async' hasync =>
    (Tracks.word _).bind fun _ _ _ => (hg _).bind fun target target' htarget => (Tracks.word _).bind fun _ _ _ =>
      (hg _).bind fun source source' hsource => (compIf_tracks hg).many.bind fun tests tests' htests =>
        .pure ⟨hstart, ?_, ?_⟩
  · refine mirrored_append (mirrored_append (mirrored_map (fun t t' ht => ?_) (mirrored_toList hasync)) ?_) htests
    · exact mirrored_plainNode ⟨start_of_mirrored ht, stop_of_mirrored ht, mirrored_nil⟩
    · exact mirrored_cons (node_of_mirrored htarget) (mirrored_cons (node_of_mirrored hsource) mirrored_nil)
  · exact mirrored_getD (mirrored_optionMap (fun _ _ => span_stop_of_mirrored) (mirrored_getLast? htests))
      (last_of_mirrored hsource)

theorem compFor_tracks : Tracks M (compFor g) (compFor g) :=
  (compClause_tracks hg).some1.bind fun _ _ h => .pure (mirrored_nestClauses h)

omit hg in
theorem atComprehension_tracks {β : Type} [Mirrored β] {f f' : Bool → Recognizer β} (hf : ∀ x, Tracks M (f x) (f' x)) :
    Tracks M (atComprehension >>= f) (atComprehension >>= f') := by
  refine Tracks.bind (Tracks.peek fun t t' ht => .pure ?_) fun x y h => ?_
  · change _ = _
    rw [isWord_of_mirrored ht, isWord_of_mirrored ht]
  · obtain rfl : x = y := h
    exact hf x

theorem argument_tracks (phase : ArgumentPhase) : Tracks M (argument g phase) (argument g phase) := by
  refine Tracks.peek fun t t' ht => .ite (isOperator_of_mirrored ht _) ?doubleStarred <|
    .ite (isOperator_of_mirrored ht _) ?starred ?other
  case doubleStarred => exact (Tracks.op _).bind fun _ _ _ => (hg _).bind fun _ _ _ => .pure (by grind)
  case starred =>
    exact .guard rfl <| (Tracks.op _).bind fun _ _ _ => (hg _).bind fun _ _ _ => .pure (by grind)
  case other =>
    refine (Tracks.maybe (Tracks.identifier.bind fun _ _ h => (Tracks.op _).bind fun _ _ _ => .pure h)).bindFinds
      (Finds.maybe (Finds.identifier.bind fun _ h => .skip fun _ => .pure h)) fun keyword keyword' hkeyword hkind => ?_
    cases hkeyword with
    | @some name name' hname =>
      have hnode := mirrored_nameNode hname (hkind name rfl)
      have htext := text_of_mirrored hname (by rw [hkind name rfl]; decide)
      exact (hg _).bind fun _ _ _ => .pure (by grind)
    | none => exact .guard rfl <| (hg _).bind fun _ _ _ => .pure (by grind)

/-- A comma, unless the closing parenthesis is next. -/
theorem argumentsFrom_tracks (fuel : Nat) (phase : ArgumentPhase) :
    Tracks M (argumentsFrom g fuel phase) (argumentsFrom g fuel phase) := by
  induction fuel generalizing phase with
  | zero => exact .fail
  | succ fuel ih =>
    refine .atOp fun _ => .ite rfl (.pure mirrored_nil) ((argument_tracks hg phase).bind fun a a' ha =>
      (Tracks.op _).maybe.bind fun comma comma' hcomma => .atOp fun atEnd => .guard ?_ ?_)
    · rw [isSome_of_mirrored hcomma]
    · rw [← (ha.2 : _ = _)]
      exact (ih _).bind fun rest rest' hrest => .pure (mirrored_cons ha.1 hrest)

theorem arguments_tracks : Tracks M (arguments g) (arguments g) :=
  (Tracks.fueled fun fuel => argumentsFrom_tracks hg fuel _).bind fun _ _ h => (Tracks.op _).bind fun _ _ _ => .pure h

theorem generatorArgument_tracks {element element' : Piece} (helement : mirrored M.toDrift element element') :
    Tracks M (generatorArgument g element) (generatorArgument g element') :=
  (compFor_tracks hg).bind fun _ _ _ => Tracks.lastStop.bind fun _ _ _ => (Tracks.op _).bind fun _ _ _ =>
    .pure (mirrored_cons (by grind) mirrored_nil)

theorem callArguments_tracks : Tracks M (callArguments g) (callArguments g) := by
  refine .atOp fun _ => .ite rfl (arguments_tracks hg) ((argument_tracks hg _).bind fun first first' hfirst => ?_)
  obtain ⟨first, phase⟩ := first
  obtain ⟨first', phase'⟩ := first'
  obtain ⟨harg, hphase⟩ := hfirst
  obtain rfl : phase = phase' := hphase
  have hnode := node_of_mirrored_argument harg
  have hchildren : mirrored M.toDrift first.node.children first'.node.children := children_of_mirrored hnode
  have hplain : first'.isPlain = first.isPlain := isPlain_of_mirrored harg
  refine atComprehension_tracks fun atFor => ?_
  rw [hplain]
  generalize first.node.children = ns at hchildren ⊢
  generalize first'.node.children = ns' at hchildren ⊢
  -- a lone argument may be the element of a generator, any other one is followed by more
  rcases hchildren with _ | ⟨helement, _ | _⟩ <;> cases first.isPlain && atFor
  case cons.nil.true =>
    exact generatorArgument_tracks hg
      (Piece.Mirrors.mk helement (span_start_of_mirrored hnode) (span_stop_of_mirrored hnode))
  all_goals
    refine (Tracks.op _).maybe.bind fun comma comma' hcomma => .atOp fun atEnd => .guard ?_ ?_
    · rw [isSome_of_mirrored hcomma]
    · exact (Tracks.fueled fun fuel => argumentsFrom_tracks hg fuel _).bind fun rest rest' hrest =>
        (Tracks.op _).bind fun _ _ _ => .pure (mirrored_cons harg hrest)

theorem slice_tracks {lower lower' : Option Piece} (hlower : mirrored M.toDrift lower lower') :
    Tracks M (slice g lower) (slice g lower') := by
  refine (Tracks.op _).bind fun colon colon' hcolon => (hg _).maybe.bind fun upper upper' hupper =>
    (Tracks.op _).maybe.bind fun second second' hsecond => ?_
  have hmore := isSome_of_mirrored hsecond
  refine .ite hmore ((hg _).maybe.bind ?step) (Tracks.bind (.pure mirrored_none) ?step)
  refine fun step step' hstep => Tracks.peek fun next next' hnext => .pure (mirrored_plainNode ⟨?_, ?_, ?_⟩)
  · exact mirrored_getD (mirrored_optionMap (fun _ _ => first_of_mirrored) hlower) (start_of_mirrored hcolon)
  · refine mirrored_getD (mirrored_optionMap (fun _ _ => last_of_mirrored) ?_) (start_of_mirrored hnext)
    rw [hmore]
    split
    · exact hstep
    · exact hupper
  · exact mirrored_map (fun _ _ => node_of_mirrored)
      (mirrored_append (mirrored_append (mirrored_toList hlower) (mirrored_toList hupper)) (mirrored_toList hstep))

omit hg in
theorem mirrored_subscriptElement {part part' : Node} (h : mirrored D part part') :
    mirrored D (subscriptElement part) (subscriptElement part') := by
  unfold subscriptElement
  grind

theorem subscriptItem_tracks : Tracks M (subscriptItem g) (subscriptItem g) := by
  refine Tracks.peek fun t t' ht => .ite (isOperator_of_mirrored ht _) ?slice <|
    .ite (isOperator_of_mirrored ht _) ?starred ?index
  case slice => exact (slice_tracks hg mirrored_none).bind fun _ _ h => .pure (mirrored_subscriptElement h)
  case starred =>
    exact (Tracks.op _).bind fun _ _ _ => (hg _).bind fun _ _ _ => .pure (mirrored_subscriptElement (by grind))
  case index =>
    refine (hg _).bind fun e e' he => .atOp fun atColon => .ite ?_ ?_ ?_
    · rw [hasShape_of_mirrored (node_of_mirrored he), isBare_of_mirrored he]
    · exact (slice_tracks hg (mirrored_some he)).bind fun _ _ h => .pure (mirrored_subscriptElement h)
    · exact .pure (mirrored_subscriptElement (by grind))

theorem subscripts_tracks : Tracks M (subscripts g) (subscripts g) :=
  (subscriptItem_tracks hg).commaSeparated.bind fun _ _ h => (Tracks.op _).bind fun _ _ _ => .pure h.1

end Grammar

/-! ### Literals -/

theorem number_tracks : Tracks M number number := by
  refine (Tracks.kind _).bindFinds (.kind _) fun t t' ht hkind => ?_
  rw [text_of_mirrored ht (by rw [hkind]; decide)]
  exact .pure (by grind)

/-- A literal may be spelled in another way, with the same letters in front of it. -/
theorem plainString_tracks : Tracks M plainString plainString := by
  refine (Tracks.kind _).bindFinds (.kind _) fun t t' ht hkind => ?_
  have hrespelled := Token.Mirrors.literal ht hkind
  have hstop := mirrored_max (start_of_mirrored ht) (stop_of_mirrored ht)
  refine .pure ⟨Node.Mirrors.node (.literal hrespelled) (start_of_mirrored ht) hstop .nil, ?_⟩
  change _ = _
  rw [M.marker hrespelled]

theorem formatText_tracks : Tracks M formatText formatText :=
  (Tracks.kind _).bind fun _ _ _ => .pure (by grind)

theorem mirrored_concatenate {n n' : Node} {ns ns' : List Node} (h : mirrored D n n') (hns : mirrored D ns ns') :
    mirrored D (concatenate n ns) (concatenate n' ns') := by
  induction hns generalizing n n' with
  | nil => exact h
  | cons hm _ ih =>
    have hright := ih hm
    unfold concatenate
    grind

theorem mirrored_elementNode {p p' : Piece} (h : mirrored D p p') : mirrored D (elementNode p) (elementNode p') := by
  unfold elementNode
  rw [hasShape_of_mirrored (node_of_mirrored h), isBare_of_mirrored h]
  split
  · exact node_of_mirrored h
  · grind

theorem mirrored_binary {shape : Shape} {left left' right right' : Piece} (hleft : mirrored D left left')
    (hright : mirrored D right right') : mirrored D (binary shape left right) (binary shape left' right') := by
  unfold binary
  grind

theorem mirrored_tupleOrSingle {items items' : List Piece} {trailing trailing' : Option Token}
    (hitems : mirrored D items items') (htrailing : mirrored D trailing trailing') :
    mirrored D (tupleOrSingle items trailing) (tupleOrSingle items' trailing') := by
  have htuple {p p' : Piece} {rest rest' : List Piece} (hp : mirrored D p p') (hrest : mirrored D rest rest')
      {last last' : Nat} (hlast : mirrored D last last') :
      mirrored D (some (Piece.plain .tupleDisplay p.first last ((p :: rest).map elementNode)))
        (some (Piece.plain .tupleDisplay p'.first last' ((p' :: rest').map elementNode))) :=
    mirrored_some (mirrored_plain ⟨first_of_mirrored hp, hlast,
      mirrored_map (fun _ _ => mirrored_elementNode) (mirrored_cons hp hrest)⟩)
  rcases hitems with _ | ⟨hp, _ | ⟨hq, hrest⟩⟩
  · exact mirrored_none
  · cases htrailing with
    | some hcomma => exact htuple hp mirrored_nil (stop_of_mirrored hcomma)
    | none => exact mirrored_some hp
  · have hmore := mirrored_cons hq hrest
    cases htrailing with
    | some hcomma => exact htuple hp hmore (stop_of_mirrored hcomma)
    | none => exact htuple hp hmore (last_of_mirrored (mirrored_getLastD (mirrored_cons hp hmore) hp))

theorem isStarred_of_mirrored {p p' : Piece} (h : mirrored D p p') : isStarred p' = isStarred p := by
  unfold isStarred
  rw [hasShape_of_mirrored (node_of_mirrored h), isBare_of_mirrored h]

section Grammar

variable (hg : ∀ x, Tracks M (g x) (g x))

include hg

theorem formatParts_tracks : Tracks M (formatParts g) (formatParts g) :=
  (formatText_tracks.orElse ((hg _).map fun _ _ => node_of_mirrored)).many

theorem formatField_tracks : Tracks M (formatField g) (formatField g) := by
  have hconversion : Tracks M formatConversion formatConversion :=
    (Tracks.word _).orElse ((Tracks.word _).orElse (Tracks.word _))
  refine (Tracks.op _).bind fun _ _ _ => (hg _).bind fun _ _ _ => (Tracks.op _).maybe.bind fun _ _ _ =>
    (Tracks.afterOp _ hconversion).maybe.bind fun _ _ _ => (Tracks.afterOp _ (formatParts_tracks hg)).maybe.bind
      fun _ _ hspec => (Tracks.op _).bind fun _ _ _ => .pure ?_
  have hparts := mirrored_getD hspec mirrored_nil
  grind

theorem formatString_tracks : Tracks M (formatString g) (formatString g) :=
  (Tracks.kind _).bind fun _ _ _ => (formatParts_tracks hg).bind fun _ _ _ => (Tracks.kind _).bind fun _ _ _ =>
    .pure (by grind)

theorem strings_tracks : Tracks M (strings g) (strings g) := by
  have hstring := plainString_tracks.orElse (formatString_tracks hg)
  refine hstring.bind fun first first' hfirst => hstring.many.bind fun rest rest' hrest => ?_
  obtain ⟨first, bytes⟩ := first
  obtain ⟨first', bytes'⟩ := first'
  obtain ⟨hnode, heq⟩ := hfirst
  obtain rfl : bytes = bytes' := heq
  refine .guard (all_of_mirrored (fun a a' ha => ?_) hrest) (.pure ?_)
  · obtain ⟨n, b⟩ := a
    obtain ⟨n', b'⟩ := a'
    obtain rfl : b = b' := ha.2
    rfl
  · exact mirrored_ofNode (mirrored_concatenate hnode (mirrored_map (fun _ _ => fst_of_mirrored) hrest))

/-! ### Displays -/

theorem moreItems_tracks {first first' : Piece} (hfirst : mirrored M.toDrift first first') :
    Tracks M (moreItems g first) (moreItems g first') :=
  (Tracks.afterOp _ (hg _)).many.bind fun _ _ hrest => (Tracks.op _).maybe.bind fun _ _ htrailing =>
    .pure ⟨mirrored_cons hfirst hrest, htrailing⟩

omit hg in
theorem notStarred {item item' : Piece} (h : mirrored D item item') : (!isStarred item') = !isStarred item := by
  rw [isStarred_of_mirrored h]

theorem groupContents_tracks : Tracks M (groupContents g) (groupContents g) := by
  refine .atOp fun _ => .ite rfl (Tracks.peek fun _ _ _ => .pure (by grind)) ?_
  refine .atWord fun _ => .ite rfl (hg _) ((hg _).bind fun item item' hitem =>
    atComprehension_tracks fun _ => .ite rfl ?generator ?items)
  case generator =>
    exact .guard (notStarred hitem) <| (compFor_tracks hg).bind fun _ _ _ => Tracks.lastStop.bind fun _ _ _ =>
      .pure (by grind)
  case items =>
    refine .atOp fun _ => .ite rfl ((moreItems_tracks hg hitem).bind fun items items' hitems => .pure ?_)
      (.guard (notStarred hitem) (.pure hitem))
    have hlast := last_of_mirrored (mirrored_getLastD hitems.1 hitem)
    refine mirrored_plain ⟨first_of_mirrored hitem, ?_, mirrored_map (fun _ _ => mirrored_elementNode) hitems.1⟩
    exact mirrored_getD (mirrored_optionMap (fun _ _ => stop_of_mirrored) hitems.2) hlast

theorem parenthesized_tracks : Tracks M (parenthesized g) (parenthesized g) :=
  (Tracks.op _).bind fun _ _ _ => (hg _).bind fun _ _ _ => (Tracks.op _).bind fun _ _ _ => .pure (by grind)

theorem listDisplay_tracks : Tracks M (listDisplay g) (listDisplay g) := by
  refine (Tracks.op _).bind fun opening opening' hopening => .atOp fun _ => .ite rfl ?empty ?full
  case empty => exact (Tracks.op _).bind fun _ _ _ => .pure (by grind)
  case full =>
    refine (hg _).bind fun item item' hitem => atComprehension_tracks fun _ => .ite rfl ?_ ?_
    · exact .guard (notStarred hitem) <| (compFor_tracks hg).bind fun _ _ _ => (Tracks.op _).bind fun _ _ _ =>
        .pure (by grind)
    · refine (moreItems_tracks hg hitem).bind fun items items' hitems => (Tracks.op _).bind fun _ _ _ => .pure ?_
      have := mirrored_map (fun _ _ => mirrored_elementNode) hitems.1
      grind

theorem dictEntry_tracks : Tracks M (dictEntry g) (dictEntry g) := by
  refine Tracks.peek fun t t' ht => .ite (isOperator_of_mirrored ht _) ?_ ?_
  · exact (Tracks.op _).bind fun _ _ _ => (hg _).bind fun _ _ _ => .pure (by grind)
  · exact (hg _).bind fun _ _ _ => (Tracks.op _).bind fun _ _ _ => (hg _).bind fun _ _ _ => .pure (by grind)

theorem moreEntries_tracks {opening opening' : Token} {first first' : Node}
    (hopening : mirrored M.toDrift opening opening') (hfirst : mirrored M.toDrift first first') :
    Tracks M (moreEntries g opening first) (moreEntries g opening' first') :=
  (Tracks.afterOp _ (dictEntry_tracks hg)).many.bind fun _ _ _ => (Tracks.op _).maybe.bind fun _ _ _ =>
    (Tracks.op _).bind fun _ _ _ => .pure (by grind)

theorem braceDisplay_tracks : Tracks M (braceDisplay g) (braceDisplay g) := by
  refine (Tracks.op _).bind fun opening opening' hopening => .atOp fun _ => .ite rfl ?empty <|
    .atOp fun _ => .ite rfl ?stars ?item
  case empty => exact (Tracks.op _).bind fun _ _ _ => .pure (by grind)
  case stars => exact (dictEntry_tracks hg).bind fun _ _ h => moreEntries_tracks hg hopening h
  case item =>
    refine (hg _).bind fun item item' hitem => .atOp fun _ => .ite ?plain ?entry <|
      atComprehension_tracks fun _ => .ite rfl ?comprehension ?set
    case plain =>
      rw [notStarred hitem, hasShape_of_mirrored (node_of_mirrored hitem), isBare_of_mirrored hitem]
    case entry =>
      refine (Tracks.op _).bind fun _ _ _ => (hg _).bind fun value value' hvalue => atComprehension_tracks fun _ =>
        .ite rfl ?_ ?_
      · exact (compFor_tracks hg).bind fun _ _ _ => (Tracks.op _).bind fun _ _ _ => .pure (by grind)
      · exact moreEntries_tracks hg hopening (by grind)
    case comprehension =>
      exact .guard (notStarred hitem) <| (compFor_tracks hg).bind fun _ _ _ => (Tracks.op _).bind fun _ _ _ =>
        .pure (by grind)
    case set =>
      refine (moreItems_tracks hg hitem).bind fun items items' hitems => (Tracks.op _).bind fun _ _ _ => .pure ?_
      have := mirrored_map (fun _ _ => mirrored_elementNode) hitems.1
      grind

/-! ### Primaries -/

/-- The token that is read is the one whose kind has been looked at. -/
theorem atom_tracks : Tracks M (atom g) (atom g) := by
  refine Tracks.peekAt fun i t t' hi hbefore _ ht => ?_
  rw [kind_of_mirrored ht]
  split
  · rename_i hkind
    have hname {s : Token} (hs : M.before[i]? = some s) : s.kind = .name := by
      rw [Option.some.inj (hs.symm.trans hbefore), hkind]
    refine TracksAt.bindFound (.satisfy hi fun s s' hs hmirrored => ?_) fun s s' j h hs _ hmirrored => ?_
    · rw [text_of_mirrored hmirrored (by rw [hname hs]; decide)]
    · have hnode := mirrored_nameNode hmirrored (hname (token_of_satisfy hs))
      exact Tracks.pure (mirrored_ofNode hnode) j (Nat.le_trans hi h)
  · exact number_tracks i hi
  · exact strings_tracks hg i hi
  · exact strings_tracks hg i hi
  · refine Tracks.ite (isOperator_of_mirrored ht _) (parenthesized_tracks hg) (.ite (isOperator_of_mirrored ht _)
      (listDisplay_tracks hg) (.ite (isOperator_of_mirrored ht _) (braceDisplay_tracks hg) ?_)) i hi
    exact (Tracks.op _).bind fun _ _ _ => .pure (by grind)
  · exact Tracks.fail i hi

omit hg in
/-- An attribute tells its dotted name. -/
theorem mirrored_member {p p' : Piece} {name name' : Token} (hp : mirrored D p p') (hname : mirrored D name name')
    (hkind : name.kind = .name) :
    mirrored D (Piece.make (.attribute (some (attributeName p.node name.text))) p.first name.stop [p.node, nameNode name])
      (Piece.make (.attribute (some (attributeName p'.node name'.text))) p'.first name'.stop
        [p'.node, nameNode name']) := by
  rw [text_of_mirrored hname (by rw [hkind]; decide), attributeName_of_mirrored (node_of_mirrored hp)]
  grind

theorem trailer_tracks : Tracks M (trailer g) (trailer g) := by
  refine Tracks.peek fun t t' ht => .ite (isOperator_of_mirrored ht _) ?member <|
    .ite (isOperator_of_mirrored ht _) ?call ?subscript
  case member =>
    exact (Tracks.op _).bind fun _ _ _ => Tracks.named fun _ _ hname hkind => .pure fun p p' hp =>
      mirrored_member hp hname hkind
  case call =>
    refine (Tracks.op _).bind fun _ _ _ => (callArguments_tracks hg).bind fun args args' hargs =>
      Tracks.lastStop.bind fun stop stop' hstop => .pure fun p p' hp => ?_
    have hnodes := mirrored_map (fun _ _ => node_of_mirrored_argument) hargs
    rw [dottedName?_of_mirrored (node_of_mirrored hp), keywords_of_mirrored hargs]
    exact mirrored_make rfl ⟨first_of_mirrored hp, hstop, mirrored_cons (node_of_mirrored hp) hnodes⟩
  case subscript =>
    exact (Tracks.op _).bind fun _ _ _ => (subscripts_tracks hg).bind fun _ _ _ => Tracks.lastStop.bind fun _ _ _ =>
      .pure fun p p' hp => by grind

theorem primary_tracks : Tracks M (primary g) (primary g) :=
  (atom_tracks hg).bind fun _ _ hp => (trailer_tracks hg).many.bind fun _ _ htrailers =>
    .pure (mirrored_foldl (fun p p' _ _ hp hf => (hf : ∀ _ _, _) p p' hp) hp htrailers)

theorem awaitPrimary_tracks : Tracks M (awaitPrimary g) (awaitPrimary g) :=
  .atWord fun _ => .ite rfl ((Tracks.word _).bind fun _ _ _ => (primary_tracks hg).bind fun _ _ _ => .pure (by grind))
    (primary_tracks hg)

/-! ### Operators -/

omit hg in
theorem leftAssociative_tracks {shape : Shape} {operator : Recognizer Token} (hoperator : Tracks M operator operator)
    {operand : Recognizer Piece} (hoperand : Tracks M operand operand) :
    Tracks M (leftAssociative shape operator operand) (leftAssociative shape operator operand) :=
  hoperand.bind fun _ _ hfirst => (Tracks.many (hoperator.bind fun _ _ _ => hoperand)).bind fun _ _ hrest =>
    .pure (mirrored_foldl (fun _ _ _ _ => mirrored_binary) hfirst hrest)

theorem power_tracks : Tracks M (power g) (power g) := by
  refine (awaitPrimary_tracks hg).bind fun base base' hbase => (Tracks.afterOp _ (hg _)).maybe.bind
    fun exponent exponent' hexponent => ?_
  cases hexponent with
  | some hexponent => exact .pure (mirrored_binary hbase hexponent)
  | none => exact .pure hbase

theorem factor_tracks : Tracks M (factor g) (factor g) := by
  refine (Tracks.oneOf _).maybe.bind fun sign sign' hsign => ?_
  cases hsign with
  | some ht => exact (hg _).bind fun _ _ _ => .pure (by grind)
  | none => exact power_tracks hg

theorem bitwiseOr_tracks : Tracks M (bitwiseOr g) (bitwiseOr g) := by
  unfold bitwiseOr
  simp only [List.foldl_cons, List.foldl_nil]
  iterate 6 refine leftAssociative_tracks (.oneOf _) ?_
  exact factor_tracks hg

omit hg in
theorem comparisonOperator_tracks : Tracks M comparisonOperator comparisonOperator := by
  refine Tracks.peek fun t t' ht => .ite (isWord_of_mirrored ht _) ?notIn <| .ite (isWord_of_mirrored ht _) ?is <|
    .ite (isWord_of_mirrored ht _) ?isIn ?other
  case notIn => exact (Tracks.word _).bind fun _ _ _ => (Tracks.word _).bind fun _ _ _ => .pure rfl
  case is => exact (Tracks.word _).bind fun _ _ _ => (Tracks.word _).maybe.bind fun _ _ _ => .pure rfl
  case isIn => exact (Tracks.word _).bind fun _ _ _ => .pure rfl
  case other => exact (Tracks.oneOf _).bind fun _ _ _ => .pure rfl

theorem comparisonTarget_tracks : Tracks M (comparisonTarget g) (comparisonTarget g) :=
  Tracks.lastStop.bind fun _ _ _ => comparisonOperator_tracks.bind fun _ _ _ => (bitwiseOr_tracks hg).bind fun _ _ _ =>
    .pure (by grind)

theorem comparison_tracks : Tracks M (comparison g) (comparison g) := by
  refine (bitwiseOr_tracks hg).bind fun left left' hleft => (comparisonTarget_tracks hg).many.bind
    fun targets targets' htargets => ?_
  have hlast := mirrored_getLast? htargets
  generalize targets.getLast? = last at hlast ⊢
  generalize targets'.getLast? = last' at hlast ⊢
  cases hlast with
  | some hlast => exact .pure (by grind)
  | none => exact .pure hleft

theorem inversion_tracks : Tracks M (inversion g) (inversion g) :=
  .atWord fun _ => .ite rfl ((Tracks.word _).bind fun _ _ _ => (hg _).bind fun _ _ _ => .pure (by grind))
    (comparison_tracks hg)

theorem disjunction_tracks : Tracks M (disjunction g) (disjunction g) :=
  leftAssociative_tracks (.word _) (leftAssociative_tracks (.word _) (inversion_tracks hg))

/-! ### Whole expressions -/

theorem lambdaExpression_tracks : Tracks M (lambdaExpression g) (lambdaExpression g) :=
  (Tracks.word _).bind fun _ _ ht => (parameters_tracks hg _ _ (mirrored_some (stop_of_mirrored ht))).bind fun _ _ _ =>
    (Tracks.op _).bind fun _ _ _ => (hg _).bind fun _ _ _ => .pure (by grind)

theorem conditional_tracks : Tracks M (conditional g) (conditional g) := by
  refine (disjunction_tracks hg).bind fun body body' hbody => .atWord fun _ => .ite rfl ?_ (.pure hbody)
  refine (Tracks.maybe ((Tracks.word _).bind fun _ _ _ => (disjunction_tracks hg).bind fun _ _ htest =>
    (Tracks.word _).bind fun _ _ _ => (hg _).bind fun _ _ hother => .pure (mirrored_pair htest hother))).bind
      fun choice choice' hchoice => ?_
  cases hchoice with
  | @some pair pair' hpair =>
    obtain ⟨test, other⟩ := pair
    obtain ⟨test', other'⟩ := pair'
    obtain ⟨htest, hother⟩ := hpair
    exact .pure (by grind)
  | none => exact .pure hbody

theorem expression_tracks : Tracks M (expression g) (expression g) :=
  .atWord fun _ => .ite rfl (lambdaExpression_tracks hg) (conditional_tracks hg)

theorem namedExpression_tracks : Tracks M (namedExpression g) (namedExpression g) := by
  refine (Tracks.maybe (Tracks.identifier.bind fun _ _ h => (Tracks.op _).bind fun _ _ _ => .pure h)).bindFinds
    (Finds.maybe (Finds.identifier.bind fun _ h => .skip fun _ => .pure h)) fun target target' htarget hkind => ?_
  cases htarget with
  | @some name name' hname =>
    have hnode := mirrored_nameNode hname (hkind name rfl)
    exact (hg _).bind fun _ _ _ => .pure (by grind)
  | none => exact expression_tracks hg

theorem starredOr_tracks {other : Recognizer Piece} (hother : Tracks M other other) :
    Tracks M (starredOr g other) (starredOr g other) :=
  .atOp fun _ => .ite rfl ((Tracks.op _).bind fun _ _ _ => (bitwiseOr_tracks hg).bind fun _ _ _ => .pure (by grind))
    hother

theorem starNamedExpression_tracks : Tracks M (starNamedExpression g) (starNamedExpression g) :=
  starredOr_tracks hg (namedExpression_tracks hg)

omit hg in
theorem asTuple_tracks {items items' : Recognizer (List Piece × Option Token)} (h : Tracks M items items') :
    Tracks M (asTuple items) (asTuple items') := by
  refine h.bind fun found found' hfound => ?_
  have htuple := mirrored_tupleOrSingle hfound.1 hfound.2
  dsimp only
  generalize tupleOrSingle found.1 found.2 = o at htuple ⊢
  generalize tupleOrSingle found'.1 found'.2 = o' at htuple ⊢
  cases htuple with
  | some hp => exact .pure hp
  | none => exact .fail

theorem starExpressions_tracks : Tracks M (starExpressions g) (starExpressions g) :=
  asTuple_tracks (starredOr_tracks hg (expression_tracks hg)).commaSeparated

theorem yieldExpression_tracks : Tracks M (yieldExpression g) (yieldExpression g) := by
  refine (Tracks.word _).bind fun t t' ht => (Tracks.word _).maybe.bind fun source source' hsource => ?_
  cases hsource with
  | some hsource => exact (hg _).bind fun _ _ _ => .pure (by grind)
  | none =>
    refine (hg _).maybe.bind fun value value' hvalue => ?_
    cases hvalue with
    | some hp => exact .pure (by grind)
    | none => exact .pure (by grind)

theorem yieldOrStarExpressions_tracks : Tracks M (yieldOrStarExpressions g) (yieldOrStarExpressions g) :=
  .atWord fun _ => .ite rfl (yieldExpression_tracks hg) (starExpressions_tracks hg)

/-! ### Targets -/

theorem plainTarget_tracks : Tracks M (plainTarget g) (plainTarget g) :=
  (primary_tracks hg).bind fun _ _ h => .guard (isTarget_of_mirrored (node_of_mirrored h)) (.pure h)

theorem starTarget_tracks : Tracks M (starTarget g) (starTarget g) :=
  .atOp fun _ => .ite rfl ((Tracks.op _).bind fun _ _ _ => (plainTarget_tracks hg).bind fun _ _ _ => .pure (by grind))
    (plainTarget_tracks hg)

theorem starTargets_tracks : Tracks M (starTargets g) (starTargets g) :=
  asTuple_tracks (starTarget_tracks hg).commaSeparated

end Grammar

end HouseStyle.Python
