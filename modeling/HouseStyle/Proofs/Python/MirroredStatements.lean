import HouseStyle.Proofs.Python.MirroredPatterns
import HouseStyle.Python.Module

/-!
# Statements are read alike

The rules for statements, and with them the whole grammar, read rows of tokens alike that mirror each other.

* `simpleLine_tracks`, `statement_tracks`, `block_tracks`: statements.
* `grammar_tracks`: by induction on the depth of nesting.
* `moduleStatements_tracks`: whole modules.
-/

namespace HouseStyle.Python

open Recognizer

variable {D : Drift} {M : Mirror} {g : Grammar}

/-! ### Simple statements -/

theorem mirrored_targetNode {p p' : Piece} (h : mirrored D p p') : mirrored D (targetNode p) (targetNode p') := by
  unfold targetNode
  grind

theorem mirrored_lastEnd {nodes nodes' : List Node} {start start' : Nat} (h : mirrored D nodes nodes')
    (hstart : mirrored D start start') : mirrored D (lastEnd nodes start) (lastEnd nodes' start') :=
  mirrored_getD (mirrored_optionMap (fun _ _ => span_stop_of_mirrored) (mirrored_getLast? h)) hstart

@[grind .] theorem mirrored_compoundNode {form : Form} {start start' : Nat} {parts parts' : List Node}
    (hform : form.isLiteral = false) (hstart : mirrored D start start') (h : mirrored D parts parts') :
    mirrored D (compoundNode form start parts) (compoundNode form start' parts') :=
  mirrored_nodeOf hform ⟨hstart, mirrored_lastEnd h hstart, h⟩

theorem mirrored_nestBranches {otherwise otherwise' : Option Node} {branches branches' : List (Nat × List Node)}
    (hotherwise : mirrored D otherwise otherwise') (h : mirrored D branches branches') :
    mirrored D (nestBranches otherwise branches) (nestBranches otherwise' branches') := by
  induction h with
  | nil => exact hotherwise
  | cons hbranch _ ih =>
    obtain ⟨hstart, hparts⟩ := hbranch
    exact mirrored_some (mirrored_compoundNode rfl hstart (mirrored_append hparts (mirrored_toList ih)))

theorem mirrored_asyncNode {async async' : Option Token} (h : mirrored D async async') :
    mirrored D (asyncNode async) (asyncNode async') := by
  unfold asyncNode
  cases h <;> grind

/-- The start of a statement that `async` may stand before. -/
theorem mirrored_asyncStart {async async' : Option Token} {t t' : Token} (hasync : mirrored D async async')
    (ht : mirrored D t t') :
    mirrored D ((async.map Token.start).getD t.start) ((async'.map Token.start).getD t'.start) :=
  mirrored_getD (mirrored_optionMap (fun _ _ => start_of_mirrored) hasync) (start_of_mirrored ht)

theorem Finds.some1 {α : Type} {p : Recognizer α} : Finds (fun found => found ≠ []) (some1 p) :=
  .skip fun _ => .skip fun _ => .pure (List.cons_ne_nil _ _)

theorem Finds.oneOf (operators : List String) : Finds (fun t => t.kind = .operator) (oneOf operators) :=
  fun tokens i t j hle h => beq_iff_eq.1 (Bool.and_eq_true_iff.1 (Finds.satisfy _ tokens i t j hle h)).1

theorem wordStatement_tracks (w : String) (shape : Shape) : Tracks M (wordStatement w shape) (wordStatement w shape) :=
  (Tracks.word _).bind fun _ _ _ => .pure (by grind)

theorem scopeStatement_tracks (w : String) (shape : Shape) :
    Tracks M (scopeStatement w shape) (scopeStatement w shape) := by
  refine (Tracks.word _).bind fun t t' ht => Tracks.named fun first first' hfirst hkind =>
    (Tracks.afterOp _ .identifier).many.bindFinds (Finds.many (.skip fun _ => .identifier))
      fun rest rest' hrest hkinds => .pure ?_
  have hlast := stop_of_mirrored (mirrored_getLastD (mirrored_cons hfirst hrest) hfirst)
  have hitem {t t' : Token} (ht : mirrored M.toDrift t t') (hkind : t.kind = .name) :
      mirrored M.toDrift (plainNode .nameItem t.start t.stop [nameNode t])
        (plainNode .nameItem t'.start t'.stop [nameNode t']) := by grind
  have hitems : mirrored M.toDrift (rest.map fun n => plainNode .nameItem n.start n.stop [nameNode n])
      (rest'.map fun n => plainNode .nameItem n.start n.stop [nameNode n]) := by
    clear hlast
    induction hrest with
    | nil => exact mirrored_nil
    | cons hname _ ih =>
      obtain ⟨hnamed, hkinds⟩ := List.forall_mem_cons.1 hkinds
      exact mirrored_cons (hitem hname hnamed) (ih hkinds)
  exact mirrored_plainNode ⟨start_of_mirrored ht, hlast, mirrored_cons (hitem hfirst hkind) hitems⟩

/-! ### Imports -/

theorem asName_tracks {target : Recognizer Piece} (h : Tracks M target target) :
    Tracks M (asName target) (asName target) :=
  Tracks.lastStop.bind fun _ _ _ => (Tracks.word _).bind fun _ _ _ => h.bind fun _ _ _ => .pure (by grind)

theorem namePiece_tracks : Tracks M namePiece namePiece :=
  Tracks.named fun _ _ h hkind => .pure (mirrored_ofNode (mirrored_nameNode h hkind))

theorem mirrored_dottedName? {n n' : Node} (h : mirrored D n n') : mirrored D (dottedName? n) (dottedName? n') := by
  rw [dottedName?_of_mirrored h]
  cases dottedName? n with
  | some name => exact mirrored_some rfl
  | none => exact mirrored_none

theorem importAlias_tracks {path : Recognizer Piece} (h : Tracks M path path) :
    Tracks M (importAlias path) (importAlias path) := by
  refine h.bind fun p p' hp => (asName_tracks namePiece_tracks).maybe.bind fun bound bound' hbound => ?_
  have hname := mirrored_dottedName? (node_of_mirrored hp)
  have hsame := dottedName?_of_mirrored (node_of_mirrored hp)
  cases hbound with
  | none =>
    refine .pure ⟨?_, hname⟩
    rw [hsame]
    grind
  | @some q q' hq =>
    refine .pure ⟨?_, hname⟩
    have has : (q'.node.children.head?.bind dottedName?) = q.node.children.head?.bind dottedName? := by
      have hhead := mirrored_head? (children_of_mirrored (node_of_mirrored hq))
      generalize q.node.children.head? = o at hhead ⊢
      generalize q'.node.children.head? = o' at hhead ⊢
      cases hhead with
      | some hn => exact dottedName?_of_mirrored hn
      | none => rfl
    rw [hsame, has]
    grind

theorem aliasNames_of_mirrored {aliases aliases' : List (Node × Option String)} (h : mirrored D aliases aliases') :
    aliasNames aliases' = aliasNames aliases :=
  eq_of_mirrored_strings (mirrored_map (fun _ _ ha => mirrored_getD (snd_of_mirrored ha) rfl) h)

theorem importStatement_tracks : Tracks M importStatement importStatement := by
  refine (Tracks.word _).bind fun t t' ht => (importAlias_tracks dottedPath_tracks).bind fun first first' hfirst =>
    (Tracks.afterOp _ (importAlias_tracks dottedPath_tracks)).many.bind fun rest rest' hrest =>
      Tracks.lastStop.bind fun stop stop' hstop => .pure ?_
  have haliases := mirrored_cons hfirst hrest
  rw [aliasNames_of_mirrored haliases]
  exact mirrored_nodeOf rfl ⟨start_of_mirrored ht, hstop, mirrored_map (fun _ _ => fst_of_mirrored) haliases⟩

/-- What is made of a value may be made later. -/
theorem bind_pure_bind {α β γ : Type} (p : Recognizer α) (f : α → β) (q : β → Recognizer γ) :
    (p >>= fun a => pure (f a)) >>= q = p >>= fun a => q (f a) := by
  funext tokens i
  change Recognizer.bind (Recognizer.bind p fun a => Recognizer.pure (f a)) q tokens i =
    Recognizer.bind p (fun a => q (f a)) tokens i
  unfold Recognizer.bind Recognizer.pure
  cases p tokens i <;> rfl

/-- The number of dots is the same. -/
theorem importLevel_tracks {β : Type} [Mirrored β] {f f' : Nat → Recognizer β} (hf : ∀ n, Tracks M (f n) (f' n)) :
    Tracks M (importLevel >>= f) (importLevel >>= f') := by
  unfold importLevel
  rw [bind_pure_bind, bind_pure_bind]
  refine (Tracks.oneOf _).many.bindFinds (Finds.many (.oneOf _)) fun dots dots' hdots hkinds => ?_
  have hsame (n : Nat) : dots'.foldl (fun n t => n + t.text.length) n = dots.foldl (fun n t => n + t.text.length) n := by
    induction hdots generalizing n with
    | nil => rfl
    | cons ht _ ih =>
      obtain ⟨hkind, hkinds⟩ := List.forall_mem_cons.1 hkinds
      rw [List.foldl_cons, List.foldl_cons, text_of_mirrored ht (by rw [hkind]; decide), ih hkinds]
  rw [hsame]
  exact hf _

theorem importFromStatement_tracks : Tracks M importFromStatement importFromStatement := by
  refine (Tracks.word _).bind fun t t' ht => importLevel_tracks fun level => dottedPath_tracks.maybe.bind
    fun path path' hpath => .guard (by rw [isSome_of_mirrored hpath]) <| (Tracks.word _).bind fun _ _ _ =>
      Tracks.peek fun next next' hnext => ?_
  have hmodule := mirrored_toList (mirrored_optionMap (fun _ _ => node_of_mirrored) hpath)
  have hname : ((path'.bind fun p => dottedName? p.node).getD "") = (path.bind fun p => dottedName? p.node).getD "" := by
    cases hpath with
    | none => rfl
    | some hp => exact congrArg (Option.getD · "") (dottedName?_of_mirrored (node_of_mirrored hp))
  have hbuild {names : List String} {stop stop' : Nat} {items items' : List Node} (hstop : mirrored M.toDrift stop stop')
      (hitems : mirrored M.toDrift items items') : mirrored M.toDrift
        (nodeOf (.importFrom ((path.bind fun p => dottedName? p.node).getD "") level names) t.start stop
          ((path.map Piece.node).toList ++ items))
        (nodeOf (.importFrom ((path'.bind fun p => dottedName? p.node).getD "") level names) t'.start stop'
          ((path'.map Piece.node).toList ++ items')) := by
    rw [hname]
    exact mirrored_nodeOf rfl ⟨start_of_mirrored ht, hstop, mirrored_append hmodule hitems⟩
  refine .ite (isOperator_of_mirrored hnext _) ?star <| .ite (isOperator_of_mirrored hnext _) ?group ?plain
  case star => exact (Tracks.op _).bind fun _ _ _ => .pure (hbuild (by grind) (by grind))
  case group =>
    refine (Tracks.op _).bind fun _ _ _ => (importAlias_tracks namePiece_tracks).commaSeparated.bind
      fun found found' hfound => (Tracks.op _).bind fun _ _ hclosing => .pure ?_
    dsimp only
    rw [aliasNames_of_mirrored hfound.1]
    exact hbuild (stop_of_mirrored hclosing) (mirrored_map (fun _ _ => fst_of_mirrored) hfound.1)
  case plain =>
    refine (importAlias_tracks namePiece_tracks).bind fun first first' hfirst =>
      (Tracks.afterOp _ (importAlias_tracks namePiece_tracks)).many.bind fun rest rest' hrest =>
        Tracks.lastStop.bind fun stop stop' hstop => .pure ?_
    have haliases := mirrored_cons hfirst hrest
    rw [aliasNames_of_mirrored haliases]
    exact hbuild hstop (mirrored_map (fun _ _ => fst_of_mirrored) haliases)

section Grammar

variable (hg : ∀ x, Tracks M (g x) (g x))

include hg

theorem assignedValue_tracks (fuel : Nat) : Tracks M (assignedValue g fuel) (assignedValue g fuel) := by
  induction fuel with
  | zero => exact .fail
  | succ fuel ih =>
    refine (hg _).bind fun p p' hp => .atOp fun _ => .ite rfl ?_ (.pure ⟨mirrored_nil, hp⟩)
    exact .guard (isTarget_of_mirrored (node_of_mirrored hp)) <| (Tracks.op _).bind fun _ _ _ => ih.bind fun _ _ h =>
      .pure ⟨mirrored_cons hp h.1, h.2⟩

theorem expressionStatement_tracks : Tracks M (expressionStatement g) (expressionStatement g) := by
  refine (starExpressions_tracks hg).bind fun p p' hp => Tracks.peek fun t t' ht =>
    .ite (isOperator_of_mirrored ht _) ?assignment <| .ite (isOperator_of_mirrored ht _) ?hinted <|
      .ite ?operator ?augmented ?alone
  case assignment =>
    refine .guard (isTarget_of_mirrored (node_of_mirrored hp)) <| (Tracks.op _).bind fun _ _ _ =>
      (Tracks.fueled fun fuel => assignedValue_tracks hg fuel).bind
        fun ⟨targets, value⟩ ⟨targets', value'⟩ ⟨htargets, hvalue⟩ =>
          .pure (mirrored_plainNode ⟨first_of_mirrored hp, last_of_mirrored hvalue, ?_⟩)
    have hall := mirrored_map (fun _ _ => mirrored_targetNode) (mirrored_cons hp htargets)
    exact mirrored_append hall (mirrored_cons (node_of_mirrored hvalue) mirrored_nil)
  case hinted =>
    refine .guard ?_ <| (typeHint_tracks hg).bind fun hint hint' hhint => (Tracks.afterOp _ (hg _)).maybe.bind
      fun value value' hvalue => .pure ?_
    · rw [isBare_of_mirrored hp, isSimpleTarget_of_mirrored (node_of_mirrored hp)]
    · cases hvalue <;> grind
  case operator =>
    rw [kind_of_mirrored ht]
    by_cases hkind : t.kind = .operator
    · rw [text_of_mirrored ht (by rw [hkind]; decide)]
    · rw [beq_false_of_ne hkind, Bool.false_and, Bool.false_and]
  case augmented =>
    exact .guard (isSimpleTarget_of_mirrored (node_of_mirrored hp)) <| (Tracks.oneOf _).bind fun _ _ _ =>
      (hg _).bind fun _ _ _ => .pure (by grind)
  case alone => exact .pure (by grind)

theorem returnStatement_tracks : Tracks M (returnStatement g) (returnStatement g) := by
  refine (Tracks.word _).bind fun t t' ht => (starExpressions_tracks hg).maybe.bind fun value value' hvalue => ?_
  cases hvalue with
  | some hp => exact .pure (by grind)
  | none => exact .pure (by grind)

theorem raiseStatement_tracks : Tracks M (raiseStatement g) (raiseStatement g) := by
  refine (Tracks.word _).bind fun t t' ht => (expression_tracks hg).maybe.bind fun value value' hvalue => ?_
  cases hvalue with
  | none => exact .pure (by grind)
  | some hp =>
    refine (Tracks.word _).maybe.bind fun source source' hsource => ?_
    cases hsource with
    | none => exact .pure (by grind)
    | some hsource => exact (expression_tracks hg).bind fun _ _ _ => .pure (by grind)

theorem assertStatement_tracks : Tracks M (assertStatement g) (assertStatement g) := by
  refine (Tracks.word _).bind fun t t' ht => (expression_tracks hg).bind fun test test' htest =>
    (Tracks.afterOp _ (expression_tracks hg)).maybe.bind fun m m' hm => ?_
  cases hm with
  | some hm => exact .pure (by grind)
  | none => exact .pure (by grind)

theorem delStatement_tracks : Tracks M (delStatement g) (delStatement g) :=
  (Tracks.word _).bind fun _ _ _ => (asTuple_tracks (primary_tracks hg).commaSeparated).bind fun _ _ htarget =>
    .guard (isDeletable_of_mirrored (node_of_mirrored htarget)) (.pure (by grind))

theorem typeParameters_tracks : Tracks M (typeParameters g) (typeParameters g) := by
  refine (Tracks.op _).bind fun opening opening' hopening => (withCommas_tracks ?item).bind
    fun ⟨items, commas, trailing⟩ ⟨items', commas', trailing'⟩ ⟨hitems, hcommas, htrailing⟩ =>
      (Tracks.op _).bind fun closing closing' hclosing => .pure ?_
  case item =>
    refine .bind ?parameter fun ⟨parts, start, stop⟩ ⟨parts', start', stop'⟩ ⟨hparts, hstart, hstop⟩ =>
      .pure (mirrored_plain ⟨hstart, hstop, hparts⟩)
    refine (Tracks.oneOf _).maybe.bindFinds (Finds.maybe (.oneOf _)) fun star star' hstar hoperator => Tracks.named
      fun name name' hname hkind => ?_
    refine .ite (isNone_of_mirrored hstar) ((Tracks.afterOp _ (hg _)).maybe.bind ?bound)
      (Tracks.bind (.pure mirrored_none) ?bound)
    refine fun bound bound' hbound => (Tracks.afterOp _ (hg _)).maybe.bind fun value value' hvalue => ?_
    have hstart := mirrored_getD (mirrored_optionMap (fun _ _ => start_of_mirrored) hstar) (start_of_mirrored hname)
    have hstop := mirrored_getD (mirrored_optionMap (fun _ _ => last_of_mirrored) hbound) (stop_of_mirrored hname)
    have hbound := mirrored_toList (mirrored_optionMap (fun _ _ => node_of_mirrored) hbound)
    cases hstar with
    | none =>
      cases hvalue with
      | some hvalue => exact .pure (by grind)
      | none => exact .pure (by grind)
    | some ht =>
      have htext := text_of_mirrored ht (by rw [hoperator _ rfl]; decide)
      cases hvalue with
      | some hvalue => exact .pure (by grind)
      | none => exact .pure (by grind)
  · have hbuild : mirrored M.toDrift (fun (p : Piece) (stop : Nat) => plainNode .typeParam p.first stop p.node.children)
        (fun (p : Piece) (stop : Nat) => plainNode .typeParam p.first stop p.node.children) :=
      fun p p' hp stop stop' hstop =>
        mirrored_plainNode ⟨first_of_mirrored hp, hstop, children_of_mirrored (node_of_mirrored hp)⟩
    exact mirrored_plainNode ⟨start_of_mirrored hopening, stop_of_mirrored hclosing,
      mirrored_separatedElements hbuild hcommas htrailing hitems⟩

theorem typeAlias_tracks : Tracks M (typeAlias g) (typeAlias g) := by
  refine (Tracks.word _).bind fun t t' ht => Tracks.named fun name name' hname hkind =>
    (typeParameters_tracks hg).maybe.bind fun params params' hparams => (Tracks.op _).bind fun _ _ _ =>
      (expression_tracks hg).bind fun value value' hvalue => .pure ?_
  have hparams := mirrored_toList hparams
  grind

/-! ### Lines -/

omit hg in
/-- What a statement begins with has one answer. -/
theorem firstWord_of_mirrored {t t' : Token} (h : mirrored D t t') :
    (if t'.kind == .name then t'.text else "") = if t.kind == .name then t.text else "" := by
  rw [kind_of_mirrored h]
  split
  · rename_i hkind
    exact text_of_mirrored h (by rw [beq_iff_eq.1 hkind]; decide)
  · rfl

theorem simpleStatement_tracks : Tracks M (simpleStatement g) (simpleStatement g) := by
  refine Tracks.peek fun t t' ht => .guard (by rw [kind_of_mirrored ht]) ?_
  rw [firstWord_of_mirrored ht]
  split
  · exact returnStatement_tracks hg
  · exact importStatement_tracks
  · exact importFromStatement_tracks
  · exact raiseStatement_tracks hg
  · exact wordStatement_tracks _ _
  · exact delStatement_tracks hg
  · exact (yieldExpression_tracks hg).bind fun _ _ _ => .pure (by grind)
  · exact assertStatement_tracks hg
  · exact wordStatement_tracks _ _
  · exact wordStatement_tracks _ _
  · exact scopeStatement_tracks _ _
  · exact scopeStatement_tracks _ _
  · exact (typeAlias_tracks hg).orElse (expressionStatement_tracks hg)
  · exact expressionStatement_tracks hg

theorem simpleLine_tracks (shape : Shape) : Tracks M (simpleLine g shape) (simpleLine g shape) := by
  refine (simpleStatement_tracks hg).bind fun first first' hfirst =>
    (Tracks.afterOp _ (simpleStatement_tracks hg)).many.bind fun rest rest' hrest => (Tracks.op _).maybe.bind
      fun _ _ _ => (Tracks.kind _).bind fun _ _ _ => .pure ?_
  have hall := mirrored_cons hfirst hrest
  exact mirrored_plainNode ⟨span_start_of_mirrored hfirst, span_stop_of_mirrored (mirrored_getLastD hall hfirst), hall⟩

/-! ### Compound statements -/

theorem body_tracks : Tracks M (body g) (body g) :=
  (Tracks.op _).bind fun _ _ _ => (hg _).bind fun _ _ h => .pure (node_of_mirrored h)

theorem clause_tracks (w : String) (shape : Shape) : Tracks M (clause g w shape) (clause g w shape) :=
  (Tracks.word _).bind fun _ _ _ => (body_tracks hg).bind fun _ _ _ => .pure (by grind)

theorem elseClause_tracks : Tracks M (elseClause g) (elseClause g) :=
  clause_tracks hg _ _

theorem branch_tracks (w : String) : Tracks M (branch g w) (branch g w) :=
  (Tracks.word _).bind fun _ _ ht => (namedExpression_tracks hg).bind fun _ _ htest => (body_tracks hg).bind fun _ _ hb =>
    .pure ⟨start_of_mirrored ht, mirrored_cons (node_of_mirrored htest) (mirrored_cons hb mirrored_nil)⟩

theorem ifStatement_tracks : Tracks M (ifStatement g) (ifStatement g) := by
  refine (branch_tracks hg _).bind fun first first' hfirst => (branch_tracks hg _).many.bind fun rest rest' hrest =>
    (elseClause_tracks hg).maybe.bind fun otherwise otherwise' hotherwise => ?_
  have hnested := mirrored_nestBranches hotherwise (mirrored_cons hfirst hrest)
  generalize nestBranches otherwise (first :: rest) = o at hnested ⊢
  generalize nestBranches otherwise' (first' :: rest') = o' at hnested ⊢
  cases hnested with
  | some hn => exact .pure hn
  | none => exact .fail

theorem whileStatement_tracks : Tracks M (whileStatement g) (whileStatement g) :=
  (branch_tracks hg _).bind fun _ _ hfirst => (elseClause_tracks hg).maybe.bind fun _ _ hotherwise =>
    .pure (mirrored_compoundNode rfl hfirst.1 (mirrored_append hfirst.2 (mirrored_toList hotherwise)))

theorem forStatement_tracks {async async' : Option Token} (hasync : mirrored M.toDrift async async') :
    Tracks M (forStatement g async) (forStatement g async') := by
  refine (Tracks.word _).bind fun t t' ht => (starTargets_tracks hg).bind fun target target' htarget =>
    (Tracks.word _).bind fun _ _ _ => (starExpressions_tracks hg).bind fun source source' hsource =>
      (body_tracks hg).bind fun b b' hb => (elseClause_tracks hg).maybe.bind fun otherwise otherwise' hotherwise =>
        .pure (mirrored_compoundNode rfl (mirrored_asyncStart hasync ht) ?_)
  have hparts : mirrored M.toDrift [target.node, source.node, b] [target'.node, source'.node, b'] :=
    mirrored_cons (node_of_mirrored htarget) (mirrored_cons (node_of_mirrored hsource) (mirrored_cons hb mirrored_nil))
  exact mirrored_append (mirrored_append (mirrored_asyncNode hasync) hparts) (mirrored_toList hotherwise)

theorem withItem_tracks : Tracks M (withItem g) (withItem g) := by
  refine (expression_tracks hg).bind fun p p' hp => (asName_tracks (starTarget_tracks hg)).maybe.bind
    fun bound bound' hbound => ?_
  cases hbound with
  | some hbound => exact .pure (by grind)
  | none => exact .pure (by grind)

theorem withItems_tracks : Tracks M (withItems g) (withItems g) := by
  refine .orElse ?_ ?_
  · exact (Tracks.op _).bind fun _ _ _ => (withItem_tracks hg).commaSeparated.bind fun _ _ h =>
      (Tracks.op _).bind fun _ _ _ => .atOp fun _ => .guard rfl (.pure h.1)
  · exact (withItem_tracks hg).bind fun _ _ hfirst => (Tracks.afterOp _ (withItem_tracks hg)).many.bind
      fun _ _ hrest => .pure (mirrored_cons hfirst hrest)

theorem withStatement_tracks {async async' : Option Token} (hasync : mirrored M.toDrift async async') :
    Tracks M (withStatement g async) (withStatement g async') := by
  refine (Tracks.word _).bind fun t t' ht => (withItems_tracks hg).bind fun items items' hitems =>
    (body_tracks hg).bind fun b b' hb => .pure (mirrored_compoundNode rfl (mirrored_asyncStart hasync ht) ?_)
  exact mirrored_append (mirrored_append (mirrored_asyncNode hasync) hitems) (mirrored_cons hb mirrored_nil)

theorem decorator_tracks : Tracks M (decorator g) (decorator g) :=
  (Tracks.op _).bind fun _ _ _ => (namedExpression_tracks hg).bind fun _ _ _ => (Tracks.kind _).bind fun _ _ _ =>
    .pure (by grind)

theorem handler_tracks (star : Bool) : Tracks M (handler g star) (handler g star) := by
  have hbody {form : Form} (hform : form.isLiteral = false) {t t' : Token} (ht : mirrored M.toDrift t t')
      {caught caught' : Option Piece} (hcaught : mirrored M.toDrift caught caught') {bound bound' : Option Piece}
      (hbound : mirrored M.toDrift bound bound') :
      Tracks M (do
        let b ← body g
        return compoundNode form t.start
          ((caught.map Piece.node).toList ++ (bound.map Piece.node).toList ++ [b])) (do
        let b ← body g
        return compoundNode form t'.start
          ((caught'.map Piece.node).toList ++ (bound'.map Piece.node).toList ++ [b])) :=
    (body_tracks hg).bind fun b b' hb => .pure (mirrored_compoundNode hform (start_of_mirrored ht)
      (mirrored_append (mirrored_append (mirrored_toList (mirrored_optionMap (fun _ _ => node_of_mirrored) hcaught))
        (mirrored_toList (mirrored_optionMap (fun _ _ => node_of_mirrored) hbound))) (mirrored_cons hb mirrored_nil)))
  have hname : Tracks M (maybe (asName namePiece)) (maybe (asName namePiece)) := (asName_tracks namePiece_tracks).maybe
  cases star with
  | true =>
    refine (Tracks.word _).bind fun t t' ht => (Tracks.op _).bind fun _ _ _ =>
      ((expression_tracks hg).map fun _ _ => mirrored_some).bind fun caught caught' hcaught => ?_
    exact .ite (isSome_of_mirrored hcaught) (hname.bind fun _ _ => hbody rfl ht hcaught)
      (Tracks.bind (.pure mirrored_none) fun _ _ => hbody rfl ht hcaught)
  | false =>
    refine (Tracks.word _).bind fun t t' ht => (expression_tracks hg).maybe.bind fun caught caught' hcaught => ?_
    exact .ite (isSome_of_mirrored hcaught) (hname.bind fun _ _ => hbody rfl ht hcaught)
      (Tracks.bind (.pure mirrored_none) fun _ _ => hbody rfl ht hcaught)

theorem tryStatement_tracks : Tracks M (tryStatement g) (tryStatement g) := by
  refine (Tracks.word _).bind fun t t' ht => (body_tracks hg).bind fun b b' hb => (handler_tracks hg _).many.bind
    fun plain plain' hplain => .ite (isEmpty_of_mirrored hplain) ((handler_tracks hg _).many.bind ?starred)
      (Tracks.bind (.pure mirrored_nil) ?starred)
  intro starred starred' hstarred
  have hhandlers := mirrored_append hplain hstarred
  refine .ite (isEmpty_of_mirrored hhandlers) (Tracks.bind (.pure mirrored_none) ?otherwise)
    ((elseClause_tracks hg).maybe.bind ?otherwise)
  refine fun otherwise otherwise' hotherwise => (clause_tracks hg _ _).maybe.bind fun final final' hfinal =>
    .guard (by rw [isEmpty_of_mirrored hhandlers, isSome_of_mirrored hfinal]) (.pure ?_)
  have hparts := mirrored_append (mirrored_append (mirrored_cons hb hhandlers) (mirrored_toList hotherwise))
    (mirrored_toList hfinal)
  rw [isEmpty_of_mirrored hstarred]
  exact mirrored_compoundNode rfl (start_of_mirrored ht) hparts

theorem functionDef_tracks {decorators decorators' : List Node} {async async' : Option Token}
    (hdecorators : mirrored M.toDrift decorators decorators') (hasync : mirrored M.toDrift async async') :
    Tracks M (functionDef g decorators async) (functionDef g decorators' async') := by
  refine (Tracks.word _).bind fun t t' ht => Tracks.named fun name name' hname hkind =>
    (typeParameters_tracks hg).maybe.bind fun types types' htypes => (Tracks.op _).bind fun _ _ _ =>
      (parameters_tracks hg _ _ mirrored_none).bind fun params params' hparams => (Tracks.op _).bind fun _ _ _ =>
        (Tracks.afterOp _ (expression_tracks hg)).maybe.bind fun result result' hresult =>
          (body_tracks hg).bind fun b b' hb => .pure ?_
  have htext := text_of_mirrored hname (by rw [hkind]; decide)
  have hasync' := mirrored_asyncNode hasync
  have htypes := mirrored_toList htypes
  have hhint : mirrored M.toDrift (result.toList.map fun p => plainNode .typeHint p.first p.last [p.node])
      (result'.toList.map fun p => plainNode .typeHint p.first p.last [p.node]) :=
    mirrored_map (fun _ _ hp => by grind) (mirrored_toList hresult)
  have hfront := mirrored_append (mirrored_append (mirrored_append hdecorators hasync')
    (mirrored_single (mirrored_nameNode hname hkind))) htypes
  rw [htext, isSome_of_mirrored hasync]
  exact mirrored_compoundNode rfl (mirrored_asyncStart hasync ht)
    (mirrored_append (mirrored_append (mirrored_append hfront (mirrored_single hparams)) hhint) (mirrored_single hb))

omit hg in
theorem isBase_of_mirrored {a a' : Argument} (h : mirrored D a a') : isBase a' = isBase a := by
  unfold isBase
  rw [Argument.Mirrors.keyword h, Argument.Mirrors.stars h]

omit hg in
/-- The names of the bases of a class. -/
theorem baseNames_of_mirrored {bases bases' : List Argument} (h : mirrored D bases bases') :
    (bases'.map fun a => (a.node.children.getLast?.bind dottedName?).getD "") =
      bases.map fun a => (a.node.children.getLast?.bind dottedName?).getD "" := by
  refine eq_of_mirrored_strings (D := D) (mirrored_map (fun a a' ha => mirrored_getD ?_ rfl) h)
  have hlast := mirrored_getLast? (children_of_mirrored (node_of_mirrored_argument ha))
  generalize a.node.children.getLast? = o at hlast ⊢
  generalize a'.node.children.getLast? = o' at hlast ⊢
  cases hlast with
  | some hn => exact mirrored_dottedName? hn
  | none => exact mirrored_none

theorem classDef_tracks {decorators decorators' : List Node} (hdecorators : mirrored M.toDrift decorators decorators') :
    Tracks M (classDef g decorators) (classDef g decorators') := by
  simp only [classDef, List.partition_eq_filter_filter]
  refine (Tracks.word _).bind fun t t' ht => Tracks.named fun name name' hname hkind =>
    (typeParameters_tracks hg).maybe.bind fun types types' htypes => (Tracks.afterOp _ (arguments_tracks hg)).maybe.bind
      fun args args' hargs => (body_tracks hg).bind fun b b' hb => .pure ?_
  have hargs := mirrored_getD hargs mirrored_nil
  have hbases := mirrored_filter (fun _ _ => isBase_of_mirrored) hargs
  have hkeywords := mirrored_filter (p := not ∘ isBase) (fun _ _ ha => congrArg not (isBase_of_mirrored ha)) hargs
  have hbaseNodes := mirrored_map (fun _ _ => node_of_mirrored_argument) hbases
  have hkeywordNodes := mirrored_map (fun _ _ => node_of_mirrored_argument) hkeywords
  have hfront := mirrored_append (mirrored_append hdecorators (mirrored_single (mirrored_nameNode hname hkind)))
    (mirrored_toList htypes)
  rw [text_of_mirrored hname (by rw [hkind]; decide), baseNames_of_mirrored hbases]
  exact mirrored_compoundNode rfl (start_of_mirrored ht)
    (mirrored_append (mirrored_append (mirrored_append hfront hbaseNodes) hkeywordNodes) (mirrored_single hb))

theorem matchCase_tracks : Tracks M (matchCase g) (matchCase g) := by
  refine (Tracks.word _).bind fun t t' ht => (casePatterns_tracks hg).bind fun p p' hp =>
    (Tracks.bind (.word _) fun _ _ _ => namedExpression_tracks hg).maybe.bind fun guard guard' hguard =>
      (body_tracks hg).bind fun b b' hb => .pure (mirrored_compoundNode rfl (start_of_mirrored ht) ?_)
  have hguard := mirrored_toList (mirrored_optionMap (fun _ _ => node_of_mirrored) hguard)
  grind

theorem matchSubject_tracks : Tracks M (matchSubject g) (matchSubject g) := by
  refine (starNamedExpression_tracks hg).commaSeparated.bind fun ⟨items, trailing⟩ ⟨items', trailing'⟩ h => ?_
  have htuple := asTuple_tracks (M := M) (.pure h)
  obtain ⟨hitems, htrailing⟩ := h
  dsimp only at hitems htrailing htuple ⊢
  rcases hitems with _ | ⟨hp, _ | _⟩ <;> rcases htrailing with _ | _
  case cons.nil.none => exact .guard (notStarred hp) (.pure hp)
  all_goals exact htuple

theorem matchStatement_tracks : Tracks M (matchStatement g) (matchStatement g) := by
  refine (Tracks.word _).bind fun t t' ht => (matchSubject_tracks hg).bind fun subject subject' hsubject =>
    (Tracks.op _).bind fun _ _ _ => (Tracks.kind _).bind fun _ _ _ => (Tracks.kind _).bind fun _ _ _ =>
      (matchCase_tracks hg).some1.bind fun cases cases' hcases => (Tracks.kind _).bind fun _ _ _ => .pure ?_
  exact mirrored_compoundNode rfl (start_of_mirrored ht) (mirrored_cons (node_of_mirrored hsubject) hcases)

/-- A recognizer does not apply at a place. -/
def Refuses {α : Type} (tokens : Array Token) (i : Nat) (p : Recognizer α) : Prop :=
  p tokens i = .absent

omit hg in
/-- What begins with a word does not apply at a token that is no name. -/
theorem word_refuses {α : Type} (w : String) (f : Token → Recognizer α) {tokens : Array Token} {i : Nat} {t : Token}
    (ht : tokens[i]? = some t) (hkind : t.kind ≠ .name) : Refuses tokens i (word w >>= f) := by
  change Recognizer.bind (word w) f tokens i = .absent
  unfold Recognizer.bind word satisfy
  rw [ht]
  dsimp only
  rw [isWord, beq_false_of_ne hkind, Bool.false_and, if_neg Bool.false_ne_true]

omit hg in
theorem TracksAt.of_refuses {α : Type} [Mirrored α] {i : Nat} {p p' : Recognizer α} (h : Refuses M.before i p)
    (h' : Refuses M.after i p') : TracksAt M i p p' := by
  unfold TracksAt
  rw [h, h']
  exact .absent

theorem asyncStatement_tracks : Tracks M (asyncStatement g) (asyncStatement g) := by
  refine (Tracks.word _).bind fun async async' hasync => Tracks.peekAt fun i t t' hi hbefore hafter ht => ?_
  by_cases hkind : t.kind = .name
  · have hasync := mirrored_some hasync
    rw [text_of_mirrored ht (by rw [hkind]; decide)]
    split
    · exact functionDef_tracks hg mirrored_nil hasync i hi
    · exact forStatement_tracks hg hasync i hi
    · exact withStatement_tracks hg hasync i hi
    · exact Tracks.fail i hi
  -- a literal may read like a word, but opens no statement
  · refine .of_refuses ?_ ?_
    · split
      · exact word_refuses _ _ hbefore hkind
      · exact word_refuses _ _ hbefore hkind
      · exact word_refuses _ _ hbefore hkind
      · rfl
    · rw [← kind_of_mirrored ht] at hkind
      split
      · exact word_refuses _ _ hafter hkind
      · exact word_refuses _ _ hafter hkind
      · exact word_refuses _ _ hafter hkind
      · rfl

theorem decorated_tracks : Tracks M (decorated g) (decorated g) := by
  refine (decorator_tracks hg).some1.bind fun _ _ hdecorators => (Tracks.word _).maybe.bind fun async async' hasync =>
    Tracks.peek fun t t' ht => .ite ?_ (classDef_tracks hg hdecorators) (functionDef_tracks hg hdecorators hasync)
  rw [isWord_of_mirrored ht, isNone_of_mirrored hasync]

/-- **Statements are read alike.** -/
theorem statement_tracks : Tracks M (statement g) (statement g) := by
  have hsimple := simpleLine_tracks hg .simpleStatementLine
  refine Tracks.peek fun t t' ht => .ite (isOperator_of_mirrored ht _) (decorated_tracks hg) ?_
  rw [firstWord_of_mirrored ht]
  split
  · exact functionDef_tracks hg mirrored_nil mirrored_none
  · exact classDef_tracks hg mirrored_nil
  · exact ifStatement_tracks hg
  · exact whileStatement_tracks hg
  · exact forStatement_tracks hg mirrored_none
  · exact withStatement_tracks hg mirrored_none
  · exact tryStatement_tracks hg
  · exact asyncStatement_tracks hg
  · exact (matchStatement_tracks hg).orElse hsimple
  · exact hsimple

theorem block_tracks : Tracks M (block g) (block g) := by
  refine (Tracks.kind _).maybe.bind fun line line' hline => ?_
  cases hline with
  | none => exact (simpleLine_tracks hg _).bind fun _ _ h => .pure (mirrored_ofNode h)
  | some =>
    refine (Tracks.kind _).bind fun _ _ _ => (statement_tracks hg).some1.bindFinds .some1
      fun statements statements' hstatements hsome => (Tracks.kind _).bind fun _ _ _ => .pure ?_
    cases hstatements with
    | nil => exact absurd rfl hsome
    | cons hfirst hrest =>
      have hstart := span_start_of_mirrored hfirst
      exact mirrored_plain ⟨hstart, mirrored_lastEnd (mirrored_cons hfirst hrest) hstart, mirrored_cons hfirst hrest⟩

theorem production_tracks (x : Nonterminal) : Tracks M (production g x) (production g x) := by
  cases x with
  | expression => exact expression_tracks hg
  | namedExpression => exact namedExpression_tracks hg
  | starNamedExpression => exact starNamedExpression_tracks hg
  | starExpressions => exact starExpressions_tracks hg
  | yieldOrStarExpressions => exact yieldOrStarExpressions_tracks hg
  | groupContents => exact groupContents_tracks hg
  | disjunction => exact disjunction_tracks hg
  | inversion => exact inversion_tracks hg
  | factor => exact factor_tracks hg
  | bitwiseOr => exact bitwiseOr_tracks hg
  | starTargets => exact starTargets_tracks hg
  | starTarget => exact starTarget_tracks hg
  | formatField => exact formatField_tracks hg
  | pattern => exact pattern_tracks hg
  | maybeStarPattern => exact maybeStarPattern_tracks hg
  | block => exact block_tracks hg

end Grammar

/-- **The grammar reads rows of tokens alike that mirror each other**, however deep its forms are nested. -/
theorem grammar_tracks (depth : Nat) (x : Nonterminal) : Tracks M (grammar depth x) (grammar depth x) := by
  induction depth generalizing x with
  | zero => exact .giveUp
  | succ depth ih => exact production_tracks ih x

theorem moduleStatements_tracks : Tracks M moduleStatements moduleStatements :=
  (statement_tracks (grammar_tracks _)).many.bind fun _ _ h => (Tracks.kind _).bind fun _ _ _ => .pure h

end HouseStyle.Python
