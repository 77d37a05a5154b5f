import HouseStyle.Proofs.Python.Patterns
import HouseStyle.Python.Statement

/-!
# Statements stand in the text

The rules for statements build what stands in the text, when the rules one level deeper do.

* `simpleStatement_builds`, `simpleLine_builds`: statements that share lines.
* `statement_builds`, `block_builds`: statements that own blocks.
-/

namespace HouseStyle.Python

open Recognizer

variable {W : Window} {g : Grammar}

theorem stands_targetNode {p : Piece} (h : stands W p) : stands W (targetNode p) := by
  unfold targetNode
  grind

theorem stands_lastEnd {nodes : List Node} {start : Nat} (h : stands W nodes) (hstart : stands W start) :
    stands W (lastEnd nodes start) :=
  (stands_getD (stands_optionMap (fun _ => span_stop_of_stands) (stands_getLast? h)) hstart)

@[grind .] theorem stands_compoundNode {form : Form} {start : Nat} {parts : List Node} (hform : form.isOrdinary = true)
    (hstart : stands W start) (h : stands W parts) : stands W (compoundNode form start parts) :=
  stands_nodeOf hform ⟨hstart, stands_lastEnd h hstart, h⟩

/-- A class begins with its keyword. -/
theorem stands_classNode {name : String} {bases : List String} {t : Token} {parts : List Node}
    (hname : stands W name) (ht : stands W t) (h : stands W parts) :
    stands W (compoundNode (.classDef name bases) t.start parts) :=
  stands_silent rfl (stands_cons.2 ⟨hname, stands_nil⟩) ⟨start_of_stands ht, stands_lastEnd h (start_of_stands ht), h⟩
    (fun _ => ht.imp fun _ hread => ⟨t, hread, rfl⟩) nofun

/-- A block keeps the order of its statements. -/
theorem stands_block {start : Nat} {statements : List Node} (hstart : stands W start) (h : stands W statements)
    (horder : InOrder statements) :
    stands W (Piece.plain .indentedBlock start (lastEnd statements start) statements) := by
  refine stands_ofNode.2 (stands_silent rfl stands_nil ⟨hstart, stands_lastEnd h hstart, h⟩ ?_ fun _ => horder)
  rintro ⟨name, bases, ⟨⟩⟩

theorem stands_nestBranches {otherwise : Option Node} {branches : List (Nat × List Node)}
    (hotherwise : stands W otherwise) (h : stands W branches) : stands W (nestBranches otherwise branches) := by
  induction branches with
  | nil => exact hotherwise
  | cons branch rest ih =>
    obtain ⟨start, parts⟩ := branch
    obtain ⟨⟨hstart, hparts⟩, hrest⟩ := stands_cons.1 h
    exact stands_some.2 (stands_compoundNode rfl hstart (stands_append.2 ⟨hparts, stands_toList (ih hrest)⟩))

theorem stands_asyncNode {async : Option Token} (h : stands W async) : stands W (asyncNode async) := by
  unfold asyncNode
  cases async <;> grind

/-- The start of a statement that `async` may stand before. -/
theorem stands_asyncStart {async : Option Token} {t : Token} (hasync : stands W async) (ht : stands W t) :
    stands W ((async.map Token.start).getD t.start) :=
  (stands_getD (stands_optionMap (fun _ => start_of_stands) hasync) (start_of_stands ht))

theorem wordStatement_builds (w : String) {shape : Shape} (hshape : shape ≠ .indentedBlock) :
    Builds W (wordStatement w shape) :=
  (Builds.word _).bind fun _ _ => .pure (by grind)

theorem scopeStatement_builds (w : String) {shape : Shape} (hshape : shape ≠ .indentedBlock) :
    Builds W (scopeStatement w shape) := by
  refine (Builds.word _).bind fun t ht => Builds.named fun first hfirst hkind =>
    (Builds.skip fun _ => .identifier).many.bindFinds (Finds.many (.skip fun _ => .identifier))
      fun rest hrest hkinds => .pure ?_
  have hnames : stands W (first :: rest) := stands_cons.2 ⟨hfirst, hrest⟩
  have hnamed : ∀ name ∈ first :: rest, name.kind = .name := List.forall_mem_cons.2 ⟨hkind, hkinds⟩
  have hlast := stop_of_stands (stands_getLastD hnames hfirst)
  refine stands_plainNode hshape ⟨start_of_stands ht, hlast, List.forall_mem_map.2 fun name hname => ?_⟩
  have hnode := stands_nameNode (hnames name hname) (hnamed name hname)
  exact stands_plainNode (by decide) ⟨span_start_of_stands hnode, stop_of_stands (hnames name hname),
    stands_cons.2 ⟨hnode, stands_nil⟩⟩

/-! ### Imports -/

theorem asName_builds {target : Recognizer Piece} (h : Builds W target) : Builds W (asName target) :=
  Builds.lastStop.bind fun _ _ => .skip fun _ => h.bind fun _ _ => .pure (by grind)

theorem namePiece_builds : Builds W namePiece :=
  Builds.named fun _ h hkind => .pure (stands_ofNode.2 (stands_nameNode h hkind))

theorem importAlias_builds {path : Recognizer Piece} (h : Builds W path) : Builds W (importAlias path) := by
  refine h.bind fun p hp => (asName_builds namePiece_builds).maybe.bind fun bound hbound => ?_
  have hname := stands_dottedName? (node_of_stands hp)
  split <;> exact .pure ⟨by grind, hname⟩

/-- The names of imported things stand on one line. -/
theorem stands_aliasNames {aliases : List (Node × Option String)} (h : stands W aliases) :
    stands W (aliasNames aliases) :=
  stands_map (fun _ ha => stands_getD (snd_of_stands ha) (show OneLine "" by decide)) h

theorem importStatement_builds : Builds W importStatement := by
  refine (Builds.word _).bind fun t ht => (importAlias_builds dottedPath_builds).bind fun first hfirst =>
    (Builds.skip fun _ => importAlias_builds dottedPath_builds).many.bind fun rest hrest =>
      Builds.lastStop.bind fun stop hstop => .pure ?_
  have haliases := stands_cons.2 ⟨hfirst, hrest⟩
  exact stands_naming rfl (stands_aliasNames haliases) ⟨start_of_stands ht, hstop,
    stands_map (fun _ => fst_of_stands) haliases⟩

theorem importFromStatement_builds : Builds W importFromStatement := by
  refine (Builds.word _).bind fun t ht => .skip fun level => dottedPath_builds.maybe.bind fun path hpath =>
    .skip fun _ => .skip fun _ => Builds.peek fun next hnext => ?_
  have hmodule := stands_toList (stands_optionMap (fun _ => node_of_stands) hpath)
  have hname : stands W ((path.bind fun p => dottedName? p.node).getD "") := by
    refine stands_getD ?_ (show OneLine "" by decide)
    cases path with
    | none => exact stands_none
    | some p => exact stands_dottedName? (node_of_stands (stands_some.1 hpath))
  have hbuild {names : List String} {stop : Nat} {items : List Node} (hstop : stands W stop) (hitems : stands W items) :
      stands W (nodeOf (.importFrom ((path.bind fun p => dottedName? p.node).getD "") level names) t.start stop
        ((path.map Piece.node).toList ++ items)) :=
    stands_naming rfl (stands_cons.2 ⟨hname, stands_nil⟩) ⟨start_of_stands ht, hstop, stands_append.2 ⟨hmodule, hitems⟩⟩
  refine .ite ?star <| .ite ?group ?plain
  case star => exact (Builds.op _).bind fun _ _ => .pure (hbuild (by grind) (by grind))
  case group =>
    exact .skip fun _ => (importAlias_builds namePiece_builds).commaSeparated.bind fun found hfound =>
      (Builds.op _).bind fun _ hclosing =>
        .pure (hbuild (stop_of_stands hclosing) (stands_map (fun _ => fst_of_stands) hfound.1))
  case plain =>
    exact (importAlias_builds namePiece_builds).bind fun first hfirst =>
      (Builds.skip fun _ => importAlias_builds namePiece_builds).many.bind fun rest hrest =>
        Builds.lastStop.bind fun stop hstop =>
          .pure (hbuild hstop (stands_map (fun _ => fst_of_stands) (stands_cons.2 ⟨hfirst, hrest⟩)))

section Grammar

variable (hg : ∀ x, Builds W (g x))

include hg

/-! ### Simple statements -/

theorem assignedValue_builds (fuel : Nat) : Builds W (assignedValue g fuel) := by
  induction fuel with
  | zero => exact .fail
  | succ fuel ih =>
    refine (hg _).bind fun p hp => .skip fun _ => .ite ?_ (.pure ⟨stands_nil, hp⟩)
    exact .skip fun _ => .skip fun _ => ih.bind fun _ h => .pure ⟨stands_cons.2 ⟨hp, h.1⟩, h.2⟩

theorem expressionStatement_builds : Builds W (expressionStatement g) := by
  refine (starExpressions_builds hg).bind fun p hp => Builds.peek fun t ht =>
    .ite ?assignment <| .ite ?hinted <| .ite ?augmented ?alone
  case assignment =>
    refine .skip fun _ => .skip fun _ => (Builds.fueled fun fuel => assignedValue_builds hg fuel).bind
      fun ⟨targets, value⟩ ⟨htargets, hvalue⟩ =>
        .pure (stands_plainNode (by decide) ⟨first_of_stands hp, last_of_stands hvalue, ?_⟩)
    have := stands_map (fun _ => stands_targetNode) (stands_cons.2 ⟨hp, htargets⟩)
    exact stands_append.2 ⟨this, stands_cons.2 ⟨hvalue.1, stands_nil⟩⟩
  case hinted =>
    refine .skip fun _ => (typeHint_builds hg).bind fun hint hhint => (Builds.skip fun _ => hg _).maybe.bind
      fun value hvalue => .pure ?_
    cases value <;> grind
  case augmented => exact .skip fun _ => .skip fun _ => (hg _).bind fun _ _ => .pure (by grind)
  case alone => exact .pure (by grind)

theorem returnStatement_builds : Builds W (returnStatement g) := by
  refine (Builds.word _).bind fun t ht => (starExpressions_builds hg).maybe.bind fun value hvalue => ?_
  split <;> exact .pure (by grind)

theorem raiseStatement_builds : Builds W (raiseStatement g) := by
  refine (Builds.word _).bind fun t ht => (expression_builds hg).maybe.bind fun value hvalue => ?_
  split
  · exact .pure (by grind)
  · refine (Builds.word _).maybe.bind fun source hsource => ?_
    split
    · exact .pure (by grind)
    · exact (expression_builds hg).bind fun _ _ => .pure (by grind)

theorem assertStatement_builds : Builds W (assertStatement g) := by
  refine (Builds.word _).bind fun t ht => (expression_builds hg).bind fun test htest =>
    (Builds.skip fun _ => expression_builds hg).maybe.bind fun m hm => ?_
  split <;> exact .pure (by grind)

theorem delStatement_builds : Builds W (delStatement g) :=
  (Builds.word _).bind fun _ _ => (asTuple_builds (primary_builds hg).commaSeparated).bind fun _ _ => .skip fun _ =>
    .pure (by grind)

theorem typeParameters_builds : Builds W (typeParameters g) := by
  refine (Builds.op _).bind fun opening hopening => (withCommas_builds ?item).bind
    fun ⟨items, commas, trailing⟩ ⟨hitems, hcommas, htrailing⟩ => (Builds.op _).bind fun closing hclosing => .pure ?_
  case item =>
    refine .bind ?parameter fun ⟨parts, start, stop⟩ ⟨hparts, hstart, hstop⟩ =>
      .pure (stands_plain (by decide) ⟨hstart, hstop, hparts⟩)
    refine (Builds.satisfy _).maybe.bind fun star hstar => Builds.named fun name hname hkind => ?_
    refine .ite ((Builds.skip fun _ => hg _).maybe.bind ?bound) ((Builds.pure stands_none).bind ?bound)
    refine fun bound hbound => (Builds.skip fun _ => hg _).maybe.bind fun value hvalue => ?_
    have hstart := (stands_getD (stands_optionMap (fun _ => start_of_stands) hstar) (start_of_stands hname))
    have hstop := (stands_getD (stands_optionMap (fun _ => last_of_stands) hbound) (stop_of_stands hname))
    have hbound := stands_toList (stands_optionMap (fun _ => node_of_stands) hbound)
    split <;> exact .pure (by grind)
  · have hbuild : stands W fun (p : Piece) (stop : Nat) => plainNode .typeParam p.first stop p.node.children :=
      fun p hp stop hstop => stands_plainNode (by decide) ⟨first_of_stands hp, hstop, children_of_stands hp.1⟩
    exact stands_plainNode (by decide) ⟨start_of_stands hopening, stop_of_stands hclosing,
      stands_separatedElements hbuild hcommas htrailing hitems⟩

theorem typeAlias_builds : Builds W (typeAlias g) := by
  refine (Builds.word _).bind fun t ht => Builds.named fun name hname hkind =>
    (typeParameters_builds hg).maybe.bind fun params hparams => .skip fun _ => (expression_builds hg).bind
      fun value hvalue => .pure ?_
  have := stands_toList hparams
  grind

/-! ### Lines -/

theorem simpleStatement_builds : Builds W (simpleStatement g) := by
  refine Builds.peek fun t ht => .skip fun _ => ?_
  split
  · exact returnStatement_builds hg
  · exact importStatement_builds
  · exact importFromStatement_builds
  · exact raiseStatement_builds hg
  · exact wordStatement_builds _ (by decide)
  · exact delStatement_builds hg
  · exact (yieldExpression_builds hg).bind fun _ _ => .pure (by grind)
  · exact assertStatement_builds hg
  · exact wordStatement_builds _ (by decide)
  · exact wordStatement_builds _ (by decide)
  · exact scopeStatement_builds _ (by decide)
  · exact scopeStatement_builds _ (by decide)
  · exact (typeAlias_builds hg).orElse (expressionStatement_builds hg)
  · exact expressionStatement_builds hg

theorem simpleLine_builds {shape : Shape} (hshape : shape ≠ .indentedBlock) : Builds W (simpleLine g shape) := by
  refine (simpleStatement_builds hg).bind fun first hfirst =>
    (Builds.skip fun _ => simpleStatement_builds hg).many.bind fun rest hrest => .skip fun _ => .skip fun _ => .pure ?_
  have hall : stands W (first :: rest) := stands_cons.2 ⟨hfirst, hrest⟩
  exact stands_plainNode hshape ⟨span_start_of_stands hfirst, span_stop_of_stands (stands_getLastD hall hfirst), hall⟩

/-! ### Compound statements -/

theorem body_builds : Builds W (body g) :=
  .skip fun _ => (hg _).bind fun _ h => .pure h.1

theorem clause_builds (w : String) {shape : Shape} (hshape : shape ≠ .indentedBlock) : Builds W (clause g w shape) :=
  (Builds.word _).bind fun _ _ => (body_builds hg).bind fun _ _ => .pure (by grind)

theorem elseClause_builds : Builds W (elseClause g) :=
  clause_builds hg _ (by decide)

theorem branch_builds (w : String) : Builds W (branch g w) :=
  (Builds.word _).bind fun _ ht => (namedExpression_builds hg).bind fun _ htest => (body_builds hg).bind fun _ hb =>
    .pure ⟨start_of_stands ht, stands_cons.2 ⟨htest.1, stands_cons.2 ⟨hb, stands_nil⟩⟩⟩

theorem ifStatement_builds : Builds W (ifStatement g) := by
  refine (branch_builds hg _).bind fun first hfirst => (branch_builds hg _).many.bind fun rest hrest =>
    (elseClause_builds hg).maybe.bind fun otherwise hotherwise => ?_
  have hnested := stands_nestBranches hotherwise (stands_cons.2 ⟨hfirst, hrest⟩)
  split
  · rename_i n hn
    exact .pure (hnested n hn)
  · exact .fail

theorem whileStatement_builds : Builds W (whileStatement g) :=
  (branch_builds hg _).bind fun _ hfirst => (elseClause_builds hg).maybe.bind fun _ hotherwise =>
    .pure (stands_compoundNode rfl hfirst.1 (stands_append.2 ⟨hfirst.2, stands_toList hotherwise⟩))

theorem forStatement_builds {async : Option Token} (hasync : stands W async) : Builds W (forStatement g async) := by
  refine (Builds.word _).bind fun t ht => (starTargets_builds hg).bind fun target htarget => .skip fun _ =>
    (starExpressions_builds hg).bind fun source hsource => (body_builds hg).bind fun b hb =>
      (elseClause_builds hg).maybe.bind fun otherwise hotherwise =>
        .pure (stands_compoundNode rfl (stands_asyncStart hasync ht) ?_)
  have := stands_asyncNode hasync
  have := stands_toList hotherwise
  grind

theorem withItem_builds : Builds W (withItem g) := by
  refine (expression_builds hg).bind fun p hp => (asName_builds (starTarget_builds hg)).maybe.bind
    fun bound hbound => ?_
  split <;> exact .pure (by grind)

theorem withItems_builds : Builds W (withItems g) := by
  refine .orElse ?_ ?_
  · exact .skip fun _ => (withItem_builds hg).commaSeparated.bind fun _ h => .skip fun _ => .skip fun _ =>
      .skip fun _ => .pure h.1
  · exact (withItem_builds hg).bind fun _ hfirst => (Builds.skip fun _ => withItem_builds hg).many.bind fun _ hrest =>
      .pure (stands_cons.2 ⟨hfirst, hrest⟩)

theorem withStatement_builds {async : Option Token} (hasync : stands W async) : Builds W (withStatement g async) := by
  refine (Builds.word _).bind fun t ht => (withItems_builds hg).bind fun items hitems => (body_builds hg).bind
    fun b hb => .pure (stands_compoundNode rfl (stands_asyncStart hasync ht) ?_)
  have := stands_asyncNode hasync
  grind

theorem handler_builds (star : Bool) : Builds W (handler g star) := by
  have hbody {form : Form} (hform : form.isOrdinary = true) {t : Token} (ht : stands W t) {caught : Option Piece}
      (hcaught : stands W caught) {bound : Option Piece} (hbound : stands W bound) :
      Builds W (do
        let b ← body g
        return compoundNode form t.start
          ((caught.map Piece.node).toList ++ (bound.map Piece.node).toList ++ [b])) :=
    (body_builds hg).bind fun b hb => .pure (stands_compoundNode hform (start_of_stands ht)
      (stands_append.2 ⟨stands_append.2 ⟨stands_toList (stands_optionMap (fun _ => node_of_stands) hcaught),
        stands_toList (stands_optionMap (fun _ => node_of_stands) hbound)⟩, stands_cons.2 ⟨hb, stands_nil⟩⟩))
  have hname : Builds W (maybe (asName namePiece)) := (asName_builds namePiece_builds).maybe
  cases star with
  | true =>
    refine (Builds.word _).bind fun t ht => .skip fun _ =>
      ((expression_builds hg).map fun _ => stands_some.2).bind fun caught hcaught => ?_
    exact .ite (hname.bind fun _ => hbody rfl ht hcaught) ((Builds.pure stands_none).bind fun _ => hbody rfl ht hcaught)
  | false =>
    refine (Builds.word _).bind fun t ht => (expression_builds hg).maybe.bind fun caught hcaught => ?_
    exact .ite (hname.bind fun _ => hbody rfl ht hcaught) ((Builds.pure stands_none).bind fun _ => hbody rfl ht hcaught)

theorem tryStatement_builds : Builds W (tryStatement g) := by
  refine (Builds.word _).bind fun t ht => (body_builds hg).bind fun b hb => (handler_builds hg _).many.bind
    fun plain hplain => .ite ((handler_builds hg _).many.bind ?starred) ((Builds.pure stands_nil).bind ?starred)
  refine fun starred hstarred => .ite ((Builds.pure stands_none).bind ?otherwise)
    ((elseClause_builds hg).maybe.bind ?otherwise)
  refine fun otherwise hotherwise => (clause_builds hg _ (by decide)).maybe.bind fun final hfinal =>
    .skip fun _ => .pure ?_
  have := stands_toList hotherwise
  have := stands_toList hfinal
  exact stands_compoundNode (by split <;> rfl) (start_of_stands ht) (by grind)

theorem decorator_builds : Builds W (decorator g) :=
  (Builds.op _).bind fun _ _ => (namedExpression_builds hg).bind fun _ _ => .skip fun _ => .pure (by grind)

theorem functionDef_builds {decorators : List Node} {async : Option Token} (hdecorators : stands W decorators)
    (hasync : stands W async) : Builds W (functionDef g decorators async) := by
  refine (Builds.word _).bind fun t ht => Builds.named fun name hname hkind =>
    (typeParameters_builds hg).maybe.bind fun types htypes => .skip fun _ =>
      (parameters_builds hg _ _ stands_none).bind fun params hparams => .skip fun _ =>
        (Builds.skip fun _ => expression_builds hg).maybe.bind fun result hresult => (body_builds hg).bind fun b hb =>
          .pure (stands_compoundNode rfl (stands_asyncStart hasync ht) ?_)
  have := stands_asyncNode hasync
  have := stands_toList htypes
  cases result <;> grind

theorem classDef_builds {decorators : List Node} (hdecorators : stands W decorators) :
    Builds W (classDef g decorators) := by
  simp only [classDef, List.partition_eq_filter_filter]
  refine (Builds.word _).bind fun t ht => Builds.named fun name hname hkind =>
    (typeParameters_builds hg).maybe.bind fun types htypes => (Builds.skip fun _ => arguments_builds hg).maybe.bind
      fun args hargs => (body_builds hg).bind fun b hb => .pure ?_
  have hargs := stands_getD hargs stands_nil
  have hpart (test : Argument → Bool) : stands W (((args.getD []).filter test).map Argument.node) :=
    stands_map (fun _ h => h) fun a ha => hargs a (List.mem_of_mem_filter ha)
  have := stands_toList htypes
  exact stands_classNode (text_of_stands hname hkind) ht (by grind)

theorem matchCase_builds : Builds W (matchCase g) := by
  refine (Builds.word _).bind fun t ht => (casePatterns_builds hg).bind fun p hp =>
    (Builds.skip fun _ => namedExpression_builds hg).maybe.bind fun guard hguard => (body_builds hg).bind fun b hb =>
      .pure (stands_compoundNode rfl (start_of_stands ht) ?_)
  cases guard <;> grind

theorem matchSubject_builds : Builds W (matchSubject g) := by
  refine (starNamedExpression_builds hg).commaSeparated.bind fun ⟨items, trailing⟩ h => ?_
  dsimp only
  split
  · exact .skip fun _ => .pure (stands_cons.1 h.1).1
  · exact asTuple_builds (.pure h)

theorem matchStatement_builds : Builds W (matchStatement g) := by
  refine (Builds.word _).bind fun t ht => (matchSubject_builds hg).bind fun subject hsubject => .skip fun _ =>
    .skip fun _ => .skip fun _ => (matchCase_builds hg).some1.bind fun cases hcases => .skip fun _ => .pure ?_
  exact stands_compoundNode rfl (start_of_stands ht) (stands_cons.2 ⟨hsubject.1, hcases⟩)

theorem asyncStatement_builds : Builds W (asyncStatement g) := by
  refine (Builds.word _).bind fun async hasync => Builds.peek fun t ht => ?_
  split
  · exact functionDef_builds hg stands_nil (stands_some.2 hasync)
  · exact forStatement_builds hg (stands_some.2 hasync)
  · exact withStatement_builds hg (stands_some.2 hasync)
  · exact .fail

theorem decorated_builds : Builds W (decorated g) :=
  (decorator_builds hg).some1.bind fun _ hdecorators => (Builds.word _).maybe.bind fun _ hasync => .skip fun _ =>
    .ite (classDef_builds hg hdecorators) (functionDef_builds hg hdecorators hasync)

/-- **Statements stand in the text.** -/
theorem statement_builds : Builds W (statement g) := by
  have hsimple := simpleLine_builds hg (show Shape.simpleStatementLine ≠ .indentedBlock by decide)
  refine Builds.peek fun t ht => .ite (decorated_builds hg) ?_
  split
  · exact functionDef_builds hg stands_nil stands_none
  · exact classDef_builds hg stands_nil
  · exact ifStatement_builds hg
  · exact whileStatement_builds hg
  · exact forStatement_builds hg stands_none
  · exact withStatement_builds hg stands_none
  · exact tryStatement_builds hg
  · exact asyncStatement_builds hg
  · exact (matchStatement_builds hg).orElse hsimple
  · exact hsimple

end Grammar

/-- **A block stands in the text in order.** Its statements are read one after the other, each from where the
one before it has stopped. -/
theorem block_builds (hg : ∀ V x, Builds V (g x)) : Builds W (block g) := by
  refine .skip fun line => ?_
  split
  · exact (simpleLine_builds (hg W) (by decide)).bind fun _ h => .pure (stands_ofNode.2 h)
  · refine .skip fun _ => .inOrder (fun V => statement_builds (hg V)) fun first rest hstatements horder =>
      .skip fun _ => .pure ?_
    exact stands_block (span_start_of_stands (stands_cons.1 hstatements).1) hstatements horder

end HouseStyle.Python
