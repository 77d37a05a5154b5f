import HouseStyle.Proofs.Python.Standing
import HouseStyle.Python.Expression

/-!
# Expressions stand in the text

The rules for expressions, and for the lists between brackets in them, build what stands in the text, when the
rules one level deeper do.

* `parameters_builds`, `callArguments_builds`, `subscripts_builds`: the lists.
* `compFor_builds`: the clauses of a comprehension.
* `plainString_builds`, `atom_builds`: where nodes tell their spelling.
* `expression_builds`, `starExpressions_builds`, `starTargets_builds`: the entry points.
-/

namespace HouseStyle.Python

open Recognizer

variable {W : Window} {g : Grammar}

attribute [grind .] stands_map stands_toList stands_optionMap stands_getD stands_getLast? stands_head? stands_getLastD

/-! ### Parameters -/

theorem stands_paramNode {start : Nat} {name : Token} {hint value : Option Piece} (hstart : stands W start)
    (hname : stands W name) (hkind : name.kind = .name) (hhint : stands W hint) (hvalue : stands W value) :
    stands W (paramNode start name hint value) := by
  unfold paramNode
  cases hint <;> cases value <;> grind

/-- The nodes of clauses, each in the one before it. -/
theorem stands_nestClauses {clauses : List (Nat × List Node × Nat)} (h : stands W clauses) :
    stands W (nestClauses clauses) := by
  induction clauses with
  | nil => exact stands_nil
  | cons clause rest ih =>
    obtain ⟨start, parts, stop⟩ := clause
    obtain ⟨⟨hstart, hparts, hstop⟩, hrest⟩ := stands_cons.1 h
    have hinner := ih hrest
    have hlast : stands W (((nestClauses rest).head?.map (·.span.stop)).getD stop) :=
      stands_getD (stands_optionMap (fun _ => span_stop_of_stands) (stands_head? hinner)) hstop
    refine stands_cons.2 ⟨stands_plainNode (by decide) ⟨hstart, hlast, stands_append.2 ⟨hparts, hinner⟩⟩, stands_nil⟩

section Grammar

variable (hg : ∀ x, Builds W (g x))

include hg

theorem typeHint_builds : Builds W (typeHint g) :=
  .skip fun _ => (hg _).bind fun _ _ => .pure (by grind)

theorem starredHint_builds : Builds W (starredHint g) :=
  .skip fun _ => (Builds.op _).bind fun _ _ => (hg _).bind fun _ _ => .pure (by grind)

theorem parameter_builds (hinted starred defaults : Bool) {start : Option Nat} (hstart : stands W start) :
    Builds W (parameter g hinted starred defaults start) := by
  refine Builds.named fun name hname hkind => .ite (.ite ?_ ?_) ((Builds.pure stands_none).bind ?hint)
  · exact (Builds.orElse (starredHint_builds hg) (typeHint_builds hg)).maybe.bind ?hint
  · exact (typeHint_builds hg).maybe.bind ?hint
  intro hint hhint
  refine .ite ((Builds.skip fun _ => hg _).maybe.bind ?value) ((Builds.pure stands_none).bind ?value)
  exact fun value hvalue => .pure
    ⟨stands_paramNode (stands_getD hstart (start_of_stands hname)) hname hkind hhint hvalue, stands_bool _⟩

theorem parameterItem_builds (hinted : Bool) (s : ParameterState) : Builds W (parameterItem g hinted s) := by
  refine Builds.peek fun t ht => .ite ?slash <| .ite ?closed <| .ite ?starred ?plain
  case slash =>
    exact .skip fun _ => .skip fun _ => .pure ⟨fun stop hstop => by grind, stands_state _⟩
  case closed =>
    exact .skip fun _ => .skip fun _ => (parameter_builds hg _ _ _ (stands_some.2 ht)).bind
      fun _ h => .pure ⟨fun _ _ => h.1, stands_state _⟩
  case starred =>
    refine .skip fun _ => .skip fun _ => .skip fun _ => .ite ?_ ?_
    · exact .pure ⟨fun stop hstop => by grind, stands_state _⟩
    · exact (parameter_builds hg _ _ _ (stands_some.2 ht)).bind
        fun _ h => .pure ⟨fun _ _ => h.1, stands_state _⟩
  case plain =>
    exact (parameter_builds hg _ _ _ stands_none).bind fun _ h => .skip fun _ =>
      .pure ⟨fun _ _ => h.1, stands_state _⟩

theorem parametersFrom_builds (hinted : Bool) (closing : String) (fuel : Nat) (s : ParameterState) :
    Builds W (parametersFrom g hinted closing fuel s) := by
  induction fuel generalizing s with
  | zero => exact .fail
  | succ fuel ih =>
    refine .skip fun _ => .ite (.skip fun _ => .pure stands_nil) (.skip fun _ => ?_)
    refine (parameterItem_builds hg hinted s).bind fun item hitem => .skip fun _ => Builds.peek fun next hnext => ?_
    exact .skip fun _ => (ih _).bind fun rest hrest =>
      .pure (stands_cons.2 ⟨hitem.1 _ hnext, hrest⟩)

theorem parameters_builds (hinted : Bool) (closing : String) {empty : Option Nat} (hempty : stands W empty) :
    Builds W (parameters g hinted closing empty) := by
  refine Builds.peek fun opening hopening =>
    (Builds.fueled fun fuel => parametersFrom_builds hg hinted closing fuel _).bind fun items hitems =>
      Builds.peek fun next hnext => .ite ?_ ?_
  · have hhere : stands W (empty.getD next.start) := stands_getD hempty hnext
    exact .pure (by grind)
  · exact .pure (by grind)

/-! ### Comprehensions, arguments, subscripts -/

theorem compIf_builds : Builds W (compIf g) :=
  Builds.lastStop.bind fun _ _ => .skip fun _ => (hg _).bind fun _ _ => .pure (by grind)

theorem compClause_builds : Builds W (compClause g) := by
  refine Builds.lastStop.bind fun start hstart => (Builds.word _).maybe.bind fun async hasync => .skip fun _ =>
    (hg _).bind fun target htarget => .skip fun _ => (hg _).bind fun source hsource =>
      (compIf_builds hg).many.bind fun tests htests => .pure ⟨hstart, ?_, ?_⟩
  · cases async <;> grind
  · exact stands_getD (stands_optionMap (fun _ => span_stop_of_stands) (stands_getLast? htests))
      (last_of_stands hsource)

theorem compFor_builds : Builds W (compFor g) :=
  (compClause_builds hg).some1.bind fun _ h => .pure (stands_nestClauses h)

theorem argument_builds (phase : ArgumentPhase) : Builds W (argument g phase) := by
  refine Builds.peek fun t ht => .ite ?doubleStarred <| .ite ?starred ?other
  case doubleStarred => exact .skip fun _ => (hg _).bind fun _ _ => .pure (by grind)
  case starred => exact .skip fun _ => .skip fun _ => (hg _).bind fun _ _ => .pure (by grind)
  case other =>
    refine (Builds.maybe (Builds.identifier.bind fun _ h => .skip fun _ => .pure h)).bindFinds
      (Finds.maybe (Finds.identifier.bind fun _ h => .skip fun _ => .pure h)) fun keyword hkeyword hkind => ?_
    cases keyword with
    | some name =>
      have hnode : stands W (nameNode name) := stands_nameNode (stands_some.1 hkeyword) (hkind name rfl)
      exact (hg _).bind fun _ _ => .pure (by grind)
    | none => exact .skip fun _ => (hg _).bind fun _ _ => .pure (by grind)

theorem argumentsFrom_builds (fuel : Nat) (phase : ArgumentPhase) : Builds W (argumentsFrom g fuel phase) := by
  induction fuel generalizing phase with
  | zero => exact .fail
  | succ fuel ih =>
    refine .skip fun _ => .ite (.pure stands_nil) ((argument_builds hg phase).bind fun a ha => ?_)
    exact .skip fun _ => .skip fun _ => .skip fun _ => (ih _).bind fun rest hrest =>
      .pure (stands_cons.2 ⟨ha.1, hrest⟩)

theorem arguments_builds : Builds W (arguments g) :=
  (Builds.fueled fun fuel => argumentsFrom_builds hg fuel _).bind fun _ h => .skip fun _ => .pure h

theorem generatorArgument_builds {element : Piece} (helement : stands W element) :
    Builds W (generatorArgument g element) :=
  (compFor_builds hg).bind fun _ _ => Builds.lastStop.bind fun _ _ => .skip fun _ =>
    .pure (stands_cons.2 ⟨stands_argument.2 (by grind), stands_nil⟩)

theorem callArguments_builds : Builds W (callArguments g) := by
  refine .skip fun _ => .ite (arguments_builds hg) ((argument_builds hg _).bind fun first hfirst => .skip fun _ => ?_)
  have hnode : stands W first.1.node := hfirst.1
  split
  · rename_i element helement _
    have hchildren := children_of_stands hnode
    rw [helement] at hchildren
    exact generatorArgument_builds hg ⟨(stands_cons.1 hchildren).1, span_start_of_stands hnode,
      span_stop_of_stands hnode⟩
  · exact .skip fun _ => .skip fun _ => .skip fun _ =>
      (Builds.fueled fun fuel => argumentsFrom_builds hg fuel _).bind fun rest hrest => .skip fun _ =>
        .pure (stands_cons.2 ⟨hnode, hrest⟩)

theorem slice_builds {lower : Option Piece} (hlower : stands W lower) : Builds W (slice g lower) := by
  refine (Builds.op _).bind fun colon hcolon => (hg _).maybe.bind fun upper hupper => .skip fun second => ?_
  refine .ite ((hg _).maybe.bind ?step) ((Builds.pure stands_none).bind ?step)
  refine fun step hstep => Builds.peek fun next hnext => .pure (stands_plainNode (by decide) ⟨?_, ?_, ?_⟩)
  · exact (stands_getD (stands_optionMap (fun _ => first_of_stands) hlower) (start_of_stands hcolon))
  · refine (stands_getD (stands_optionMap (fun _ => last_of_stands) ?_) hnext)
    split
    · exact hstep
    · exact hupper
  · exact stands_map (fun _ => node_of_stands)
      (stands_append.2 ⟨stands_append.2 ⟨stands_toList hlower, stands_toList hupper⟩, stands_toList hstep⟩)

omit hg in
theorem stands_subscriptElement {part : Node} (h : stands W part) : stands W (subscriptElement part) := by
  unfold subscriptElement
  grind

theorem subscriptItem_builds : Builds W (subscriptItem g) := by
  refine Builds.peek fun t ht => .ite ?slice <| .ite ?starred ?index
  case slice => exact (slice_builds hg stands_none).bind fun _ h => .pure (stands_subscriptElement h)
  case starred =>
    exact .skip fun _ => (hg _).bind fun _ _ => .pure (stands_subscriptElement (by grind))
  case index =>
    refine (hg _).bind fun e he => .skip fun _ => .ite ?_ ?_
    · exact (slice_builds hg (stands_some.2 he)).bind fun _ h => .pure (stands_subscriptElement h)
    · exact .pure (stands_subscriptElement (by grind))

theorem subscripts_builds : Builds W (subscripts g) :=
  (subscriptItem_builds hg).commaSeparated.bind fun _ h => .skip fun _ => .pure h.1

end Grammar

/-! ### Literals -/

theorem number_builds : Builds W number :=
  (Builds.kind _).bind fun _ _ => .pure (by grind [numberShape])

/-- A literal tells its spelling. -/
theorem plainString_builds : Builds W plainString := by
  refine .satisfyBind fun t h hkind => .pure ⟨stands_spelled rfl ?_ stands_nil h, stands_bool _⟩
  rintro _ _ _ ⟨⟩
  exact ⟨(token_of_stands h).quoted (beq_iff_eq.1 hkind), rfl, by rw [String.length_ofList]⟩

theorem formatText_builds : Builds W formatText :=
  (Builds.kind _).bind fun _ _ => .pure (by grind)

theorem stands_concatenate {n : Node} {ns : List Node} (h : stands W n) (hns : stands W ns) :
    stands W (concatenate n ns) := by
  induction ns generalizing n with
  | nil => exact h
  | cons m rest ih =>
    obtain ⟨hm, hrest⟩ := stands_cons.1 hns
    have hright := ih hm hrest
    unfold concatenate
    grind

theorem stands_elementNode {p : Piece} (h : stands W p) : stands W (elementNode p) := by
  unfold elementNode
  split
  · exact h.1
  · grind

theorem stands_binary {shape : Shape} (hshape : shape ≠ .indentedBlock) {left right : Piece} (hleft : stands W left)
    (hright : stands W right) : stands W (binary shape left right) := by
  unfold binary
  grind

theorem stands_tupleOrSingle {items : List Piece} {trailing : Option Token} (hitems : stands W items)
    (htrailing : stands W trailing) : stands W (tupleOrSingle items trailing) := by
  have htuple {p : Piece} {rest : List Piece} (h : stands W (p :: rest)) {last : Nat} (hlast : stands W last) :
      stands W (some (Piece.plain .tupleDisplay p.first last ((p :: rest).map elementNode))) :=
    stands_some.2 (stands_plain (by decide) ⟨first_of_stands (stands_cons.1 h).1, hlast,
      stands_map (fun _ => stands_elementNode) h⟩)
  unfold tupleOrSingle
  split
  · exact stands_none
  · exact stands_some.2 (stands_cons.1 hitems).1
  · refine htuple hitems ?_
    split
    · exact stop_of_stands (stands_some.1 htrailing)
    · exact last_of_stands (stands_getLastD hitems (stands_cons.1 hitems).1)

section Grammar

variable (hg : ∀ x, Builds W (g x))

include hg

theorem formatParts_builds : Builds W (formatParts g) :=
  (formatText_builds.orElse ((hg _).map fun _ => node_of_stands)).many

theorem formatField_builds : Builds W (formatField g) :=
  (Builds.op _).bind fun _ _ => (hg _).bind fun _ _ => .skip fun _ => .skip fun _ =>
    (Builds.skip fun _ => formatParts_builds hg).maybe.bind fun _ hspec => (Builds.op _).bind fun _ _ =>
      .pure (by have := stands_getD hspec stands_nil; grind)

theorem formatString_builds : Builds W (formatString g) :=
  (Builds.kind _).bind fun _ _ => (formatParts_builds hg).bind fun _ _ => (Builds.kind _).bind fun _ _ =>
    .pure (by grind)

theorem strings_builds : Builds W (strings g) := by
  have hstring := plainString_builds.orElse (formatString_builds hg)
  refine hstring.bind fun first hfirst => hstring.many.bind fun rest hrest => .skip fun _ => .pure ?_
  exact stands_ofNode.2 (stands_concatenate hfirst.1 (stands_map (fun _ => fst_of_stands) hrest))

/-! ### Displays -/

theorem moreItems_builds {first : Piece} (hfirst : stands W first) : Builds W (moreItems g first) :=
  (Builds.skip fun _ => hg _).many.bind fun _ hrest => (Builds.op _).maybe.bind fun _ htrailing =>
    .pure ⟨stands_cons.2 ⟨hfirst, hrest⟩, htrailing⟩

theorem groupContents_builds : Builds W (groupContents g) := by
  refine .skip fun _ => .ite (Builds.peek fun _ _ => .pure (by grind)) ?_
  refine .skip fun _ => .ite (hg _) ((hg _).bind fun item hitem => .skip fun _ => .ite ?generator ?items)
  case generator =>
    exact .skip fun _ => (compFor_builds hg).bind fun _ _ => Builds.lastStop.bind fun _ _ => .pure (by grind)
  case items =>
    refine .skip fun _ => .ite ((moreItems_builds hg hitem).bind fun items hitems => .pure ?_)
      (.skip fun _ => .pure hitem)
    have hlast := last_of_stands (stands_getLastD hitems.1 hitem)
    refine stands_plain (by decide) ⟨first_of_stands hitem, ?_, stands_map (fun _ => stands_elementNode) hitems.1⟩
    exact (stands_getD (stands_optionMap (fun _ => stop_of_stands) hitems.2) hlast)

theorem parenthesized_builds : Builds W (parenthesized g) :=
  (Builds.op _).bind fun _ _ => (hg _).bind fun _ _ => (Builds.op _).bind fun _ _ => .pure (by grind)

theorem listDisplay_builds : Builds W (listDisplay g) := by
  refine (Builds.op _).bind fun opening hopening => .skip fun _ => .ite ?empty ?full
  case empty => exact (Builds.op _).bind fun _ _ => .pure (by grind)
  case full =>
    refine (hg _).bind fun item hitem => .skip fun _ => .ite ?_ ?_
    · exact .skip fun _ => (compFor_builds hg).bind fun _ _ => (Builds.op _).bind fun _ _ => .pure (by grind)
    · refine (moreItems_builds hg hitem).bind fun items hitems => (Builds.op _).bind fun _ _ => .pure ?_
      have := stands_map (fun _ => stands_elementNode) hitems.1
      grind

theorem dictEntry_builds : Builds W (dictEntry g) := by
  refine Builds.peek fun t ht => .ite ?_ ?_
  · exact .skip fun _ => (hg _).bind fun _ _ => .pure (by grind)
  · exact (hg _).bind fun _ _ => .skip fun _ => (hg _).bind fun _ _ => .pure (by grind)

theorem moreEntries_builds {opening : Token} {first : Node} (hopening : stands W opening)
    (hfirst : stands W first) : Builds W (moreEntries g opening first) :=
  (Builds.skip fun _ => dictEntry_builds hg).many.bind fun _ _ => .skip fun _ => (Builds.op _).bind fun _ _ =>
    .pure (by grind)

theorem braceDisplay_builds : Builds W (braceDisplay g) := by
  refine (Builds.op _).bind fun opening hopening => .skip fun _ => .ite ?empty <| .skip fun _ => .ite ?stars ?item
  case empty => exact (Builds.op _).bind fun _ _ => .pure (by grind)
  case stars => exact (dictEntry_builds hg).bind fun _ h => moreEntries_builds hg hopening h
  case item =>
    refine (hg _).bind fun item hitem => .skip fun _ => .ite ?entry <| .skip fun _ => .ite ?comprehension ?set
    case entry =>
      refine .skip fun _ => (hg _).bind fun value hvalue => .skip fun _ => .ite ?_ ?_
      · exact (compFor_builds hg).bind fun _ _ => (Builds.op _).bind fun _ _ => .pure (by grind)
      · exact moreEntries_builds hg hopening (by grind)
    case comprehension =>
      exact .skip fun _ => (compFor_builds hg).bind fun _ _ => (Builds.op _).bind fun _ _ => .pure (by grind)
    case set =>
      refine (moreItems_builds hg hitem).bind fun items hitems => (Builds.op _).bind fun _ _ => .pure ?_
      have := stands_map (fun _ => stands_elementNode) hitems.1
      grind

/-! ### Primaries -/

/-- A name tells its spelling: the token that is read is the one whose kind has been looked at. -/
theorem atom_builds : Builds W (atom g) := by
  refine Builds.peekAt fun i t hi ht => ?_
  split
  · rename_i hkind
    intro p k _ h hk
    obtain ⟨name, j, h₁, h₂, hname, hrest⟩ := found_of_bind h
    cases hrest
    have hread := (reads_of_satisfy hi hk hname).1
    obtain rfl : name = t := Option.some.inj (hread.token.symm.trans ht)
    exact stands_ofNode.2 (stands_nameNode ⟨i, hread⟩ hkind)
  · exact number_builds i hi
  · exact strings_builds hg i hi
  · exact strings_builds hg i hi
  · refine Builds.ite (parenthesized_builds hg) (.ite (listDisplay_builds hg) (.ite (braceDisplay_builds hg) ?_)) i hi
    exact (Builds.op _).bind fun _ _ => .pure (by grind)
  · exact Builds.fail i hi

theorem trailer_builds : Builds W (trailer g) := by
  refine Builds.peek fun t ht => .ite ?member <| .ite ?call ?subscript
  case member => exact .skip fun _ => Builds.named fun _ hname hkind => .pure fun p hp => stands_member hp hname hkind
  case call =>
    refine .skip fun _ => (callArguments_builds hg).bind fun args hargs => Builds.lastStop.bind fun _ _ =>
      .pure fun p hp => ?_
    have hnodes := stands_map (f := Argument.node) (fun _ h => h) hargs
    exact stands_ofNode.2 (stands_naming rfl (stands_toList (stands_dottedName? (node_of_stands hp)))
      ⟨first_of_stands hp, ‹_›, stands_cons.2 ⟨node_of_stands hp, hnodes⟩⟩)
  case subscript =>
    exact .skip fun _ => (subscripts_builds hg).bind fun _ _ => Builds.lastStop.bind fun _ _ =>
      .pure fun p hp => by grind

theorem primary_builds : Builds W (primary g) := by
  refine (atom_builds hg).bind fun p hp => (trailer_builds hg).many.bind fun trailers htrailers => .pure ?_
  clear hg
  induction trailers generalizing p with
  | nil => exact hp
  | cons f rest ih =>
    obtain ⟨hf, hrest⟩ := stands_cons.1 htrailers
    exact ih (f p) (hf p hp) hrest

theorem awaitPrimary_builds : Builds W (awaitPrimary g) :=
  .skip fun _ => .ite ((Builds.word _).bind fun _ _ => (primary_builds hg).bind fun _ _ => .pure (by grind))
    (primary_builds hg)

/-! ### Operators -/

omit hg in
theorem leftAssociative_builds {shape : Shape} (hshape : shape ≠ .indentedBlock) (operator : Recognizer Token)
    {operand : Recognizer Piece} (hoperand : Builds W operand) : Builds W (leftAssociative shape operator operand) := by
  refine hoperand.bind fun first hfirst => (Builds.skip fun _ => hoperand).many.bind fun rest hrest => .pure ?_
  induction rest generalizing first with
  | nil => exact hfirst
  | cons right rest ih =>
    obtain ⟨hright, hrest⟩ := stands_cons.1 hrest
    exact ih _ (stands_binary hshape hfirst hright) hrest

theorem power_builds : Builds W (power g) := by
  refine (awaitPrimary_builds hg).bind fun base hbase => (Builds.skip fun _ => hg _).maybe.bind fun exponent h => ?_
  cases exponent with
  | some exponent => exact .pure (stands_binary (by decide) hbase (stands_some.1 h))
  | none => exact .pure hbase

theorem factor_builds : Builds W (factor g) := by
  refine (Builds.satisfy _).maybe.bind fun sign hsign => ?_
  cases sign with
  | some t => exact (hg _).bind fun _ _ => .pure (by grind)
  | none => exact power_builds hg

theorem bitwiseOr_builds : Builds W (bitwiseOr g) := by
  unfold bitwiseOr
  simp only [List.foldl_cons, List.foldl_nil]
  iterate 6 refine leftAssociative_builds (by decide) _ ?_
  exact factor_builds hg

theorem comparisonTarget_builds : Builds W (comparisonTarget g) :=
  Builds.lastStop.bind fun _ _ => .skip fun _ => (bitwiseOr_builds hg).bind fun _ _ => .pure (by grind)

theorem comparison_builds : Builds W (comparison g) := by
  refine (bitwiseOr_builds hg).bind fun left hleft => (comparisonTarget_builds hg).many.bind fun targets htargets => ?_
  split
  · rename_i last hlast
    have := stands_getLast? htargets last hlast
    exact .pure (by grind)
  · exact .pure hleft

theorem inversion_builds : Builds W (inversion g) :=
  .skip fun _ => .ite ((Builds.word _).bind fun _ _ => (hg _).bind fun _ _ => .pure (by grind)) (comparison_builds hg)

theorem disjunction_builds : Builds W (disjunction g) :=
  leftAssociative_builds (by decide) _ (leftAssociative_builds (by decide) _ (inversion_builds hg))

/-! ### Whole expressions -/

theorem lambdaExpression_builds : Builds W (lambdaExpression g) :=
  (Builds.word _).bind fun _ ht => (parameters_builds hg _ _ (stands_some.2 (stop_of_stands ht))).bind fun _ _ =>
    .skip fun _ => (hg _).bind fun _ _ => .pure (by grind)

theorem conditional_builds : Builds W (conditional g) := by
  refine (disjunction_builds hg).bind fun body hbody => .skip fun _ => .ite ?_ (.pure hbody)
  refine (Builds.maybe (.skip fun _ => (disjunction_builds hg).bind fun _ htest => .skip fun _ =>
    (hg _).bind fun _ hother => .pure (stands_pair.2 ⟨htest, hother⟩))).bind fun choice hchoice => ?_
  split
  · exact .pure (by grind)
  · exact .pure hbody

theorem expression_builds : Builds W (expression g) :=
  .skip fun _ => .ite (lambdaExpression_builds hg) (conditional_builds hg)

theorem namedExpression_builds : Builds W (namedExpression g) := by
  refine (Builds.maybe (Builds.identifier.bind fun _ h => .skip fun _ => .pure h)).bindFinds
    (Finds.maybe (Finds.identifier.bind fun _ h => .skip fun _ => .pure h)) fun target htarget hkind => ?_
  split
  · rename_i name
    have hnode : stands W (nameNode name) := stands_nameNode (stands_some.1 htarget) (hkind name rfl)
    exact (hg _).bind fun _ _ => .pure (by grind)
  · exact expression_builds hg

theorem starredOr_builds {other : Recognizer Piece} (hother : Builds W other) : Builds W (starredOr g other) :=
  .skip fun _ => .ite ((Builds.op _).bind fun _ _ => (bitwiseOr_builds hg).bind fun _ _ => .pure (by grind)) hother

theorem starNamedExpression_builds : Builds W (starNamedExpression g) :=
  starredOr_builds hg (namedExpression_builds hg)

omit hg in
theorem asTuple_builds {items : Recognizer (List Piece × Option Token)} (h : Builds W items) :
    Builds W (asTuple items) := by
  refine h.bind fun found hfound => ?_
  have htuple := stands_tupleOrSingle hfound.1 hfound.2
  dsimp only
  split
  · rename_i p hp
    exact .pure (htuple p hp)
  · exact .fail

theorem starExpressions_builds : Builds W (starExpressions g) :=
  asTuple_builds (starredOr_builds hg (expression_builds hg)).commaSeparated

theorem yieldExpression_builds : Builds W (yieldExpression g) := by
  refine (Builds.word _).bind fun t ht => (Builds.word _).maybe.bind fun source hsource => ?_
  split
  · exact (hg _).bind fun _ _ => .pure (by grind)
  · refine (hg _).maybe.bind fun value hvalue => ?_
    split <;> exact .pure (by grind)

theorem yieldOrStarExpressions_builds : Builds W (yieldOrStarExpressions g) :=
  .skip fun _ => .ite (yieldExpression_builds hg) (starExpressions_builds hg)

/-! ### Targets -/

theorem plainTarget_builds : Builds W (plainTarget g) :=
  (primary_builds hg).bind fun _ h => .skip fun _ => .pure h

theorem starTarget_builds : Builds W (starTarget g) :=
  .skip fun _ => .ite ((Builds.op _).bind fun _ _ => (plainTarget_builds hg).bind fun _ _ => .pure (by grind))
    (plainTarget_builds hg)

theorem starTargets_builds : Builds W (starTargets g) :=
  asTuple_builds (starTarget_builds hg).commaSeparated

end Grammar

end HouseStyle.Python
