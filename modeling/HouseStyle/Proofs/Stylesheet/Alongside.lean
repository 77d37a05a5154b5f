import HouseStyle.Proofs.Stylesheet.Nodes
import HouseStyle.Proofs.Tree.Sketch

/-!
# Two texts passed over alongside

Two texts in which trivia and heads end at the same places (`Alongside`) have their statements and
blocks at the same places. What is read of them can differ only in the heads.

* `parse_alongside`: if the heads are read alike, both texts have the same tree but for its facts, or
  the same fault.
* `heads_of_parse`: if both texts have the same tree but for its facts, the heads are read alike.
-/

namespace HouseStyle.Stylesheet

open Node (bareList walk walkList)

variable {d : Dialect} {src src' : Array Char}

/-! ### Heads without facts -/

/-- The statement at a place without facts, when its block is taken to be empty. -/
def bareHead (d : Dialect) (src : Array Char) (start : Nat) : Except ParseError Node :=
  (statement d src (fun brace => .ok (nodeOf .block brace brace [])) start).map fun (n, _) => n.bare

/-- **A statement is a label and the parts of its head**, which are told without its end and without
its block. -/
theorem headNode_parts (src : Array Char) (start headStop : Nat) (hasBlock : Bool) :
    ∃ r : Except ParseError (Label × List Node), ∀ stop block, block.isSome = hasBlock →
      headNode src start headStop stop block =
        r.map fun (label, parts) => ⟨label, .between start stop, parts ++ block.toList⟩ := by
  unfold headNode
  by_cases hat : src[start]? = some '@'
  · -- an at-rule has no parts
    refine ⟨(atRule src start headStop headStop (if hasBlock then some (nodeOf .block 0 0 []) else none)).map
      fun n => (n.label, []), fun stop block hblock => ?_⟩
    subst hblock
    simp only [if_pos hat, atRule]
    cases block <;> split <;> rfl
  simp only [if_neg hat]
  cases hasBlock with
  | false =>
    refine ⟨(declaration src start headStop headStop).map fun n => (n.label, n.children),
      fun stop block hblock => ?_⟩
    obtain rfl := Option.isSome_eq_false_iff.1 hblock |> Option.isNone_iff_eq_none.1
    simp only [declaration]
    rcases findColon? src headStop start with e | _ | colon <;> rfl
  | true =>
    refine ⟨(selectorList src start headStop).map fun list =>
      (.style (.rule (Cursor.text src start headStop)), [list]), fun stop block hblock => ?_⟩
    obtain ⟨b, rfl⟩ := Option.isSome_iff_exists.1 hblock
    simp only [rule]
    cases selectorList src start headStop <;> rfl

theorem bare_parts {label : Label} {span : Span} {parts : List Node} {block : Option Node} :
    Node.bare ⟨label, span, parts ++ block.toList⟩ =
      ⟨label.bare, span, bareList parts ++ (block.map Node.bare).toList⟩ := by
  rw [Node.bare, Node.bareList_append]
  cases block <;> rfl

/-- Heads that are read alike make the same statement of a block. -/
theorem headNode_bare {start headStop headStop' e : Nat} {b : Option Node}
    (hhead : (headNode src' start headStop' e b).map Node.bare = (headNode src start headStop e b).map Node.bare)
    (stop : Nat) {block block' : Option Node} (hsome : block.isSome = b.isSome)
    (hblock : block'.map Node.bare = block.map Node.bare) :
    (headNode src' start headStop' stop block').map Node.bare =
      (headNode src start headStop stop block).map Node.bare := by
  obtain ⟨r, hr⟩ := headNode_parts src start headStop b.isSome
  obtain ⟨r', hr'⟩ := headNode_parts src' start headStop' b.isSome
  have hsome' : block'.isSome = b.isSome := by
    rw [← hsome, ← Option.isSome_map, hblock, Option.isSome_map]
  rw [hr e b rfl, hr' e b rfl] at hhead
  rw [hr stop block hsome, hr' stop block' hsome']
  rcases r with x | ⟨label, parts⟩ <;> rcases r' with x' | ⟨label', parts'⟩
  · exact hhead
  · cases hhead
  · cases hhead
  · simp only [Except.map, Except.ok.injEq, bare_parts, Node.mk.injEq, true_and] at hhead ⊢
    obtain ⟨hlabel, hparts⟩ := hhead
    rw [hlabel, List.append_cancel_right hparts, hblock]
    exact ⟨rfl, rfl⟩

/-! ### Passing over two texts -/

/-- **Two texts are passed over alike from a place on**: trivia and heads end at the same places and
before the same marks. -/
inductive Alongside (d : Dialect) (src src' : Array Char) : Nat → Prop
  | mk {p : Nat} (trivia : skipTrivia d src' p = skipTrivia d src p)
      (char : ∀ q, skipTrivia d src p = .ok q → src'[q]? = src[q]?)
      (mark : ∀ q c, skipTrivia d src p = .ok q → src[q]? = some c → c = '}' ∨ c = ';' →
        Alongside d src src' (q + 1))
      (head : ∀ q, skipTrivia d src p = .ok q → Starts src q → scan d src' q = scan d src q)
      (rest : ∀ q stop c, skipTrivia d src p = .ok q → Starts src q → scan d src q = .ok (stop, c) →
        Alongside d src src' (resume stop c)) : Alongside d src src' p

theorem Alongside.trivia {p : Nat} (h : Alongside d src src' p) : skipTrivia d src' p = skipTrivia d src p := by
  cases h; assumption

theorem Alongside.char {p q : Nat} (h : Alongside d src src' p) (hskip : skipTrivia d src p = .ok q) :
    src'[q]? = src[q]? := by
  cases h with
  | mk _ hchar => exact hchar q hskip

theorem Alongside.mark {p q : Nat} {c : Char} (h : Alongside d src src' p) (hskip : skipTrivia d src p = .ok q)
    (hc : src[q]? = some c) (hmark : c = '}' ∨ c = ';') : Alongside d src src' (q + 1) := by
  cases h with
  | mk _ _ hrest => exact hrest q c hskip hc hmark

theorem Alongside.head {p q : Nat} (h : Alongside d src src' p) (hskip : skipTrivia d src p = .ok q)
    (starts : Starts src q) : scan d src' q = scan d src q := by
  cases h with
  | mk _ _ _ hscan => exact hscan q hskip starts

theorem Alongside.rest {p q stop : Nat} {c : Option Char} (h : Alongside d src src' p)
    (hskip : skipTrivia d src p = .ok q) (starts : Starts src q) (hscan : scan d src q = .ok (stop, c)) :
    Alongside d src src' (resume stop c) := by
  cases h with
  | mk _ _ _ _ hrest => exact hrest q stop c hskip starts hscan

/-- The same starts are met, and there the same heads. -/
theorem Alongside.startsFrom {p : Nat} (h : Alongside d src src' p) :
    startsFrom d src' p = startsFrom d src p ∧ ∀ m ∈ startsFrom d src p, scan d src' m = scan d src m := by
  induction h with
  | @mk p trivia char mark head rest ihMark ihRest =>
    cases hskip : skipTrivia d src p with
    | error e =>
      rw [startsFrom_of_error hskip, startsFrom_of_error (trivia.trans hskip)]
      exact ⟨rfl, List.forall_mem_nil _⟩
    | ok q =>
      have hskip' := trivia.trans hskip
      cases hc : src[q]? with
      | none =>
        rw [startsFrom_of_end hskip hc, startsFrom_of_end hskip' ((char q hskip).trans hc)]
        exact ⟨rfl, List.forall_mem_nil _⟩
      | some c =>
        have hc' := (char q hskip).trans hc
        by_cases hmark : c = '}' ∨ c = ';'
        · rw [startsFrom_of_mark hskip hc hmark, startsFrom_of_mark hskip' hc' hmark]
          exact ihMark q c hskip hc hmark
        · have starts : Starts src q := ⟨c, hc, not_or.1 hmark⟩
          have starts' : Starts src' q := ⟨c, hc', not_or.1 hmark⟩
          have hhead := head q hskip starts
          cases hscan : scan d src q with
          | error e =>
            rw [startsFrom_of_fault hskip starts hscan,
              startsFrom_of_fault hskip' starts' (hhead.trans hscan)]
            exact ⟨rfl, List.forall_mem_singleton.2 hhead⟩
          | ok found =>
            obtain ⟨ih, ih'⟩ := ihRest q found.1 found.2 hskip starts hscan
            rw [startsFrom_of_head hskip starts hscan, startsFrom_of_head hskip' starts' (hhead.trans hscan), ih]
            exact ⟨rfl, List.forall_mem_cons.2 ⟨hhead, ih'⟩⟩

/-- Where reading ends, the texts go on alongside. -/
theorem Reads.alongside {depth p r : Nat} {ns : List Node} (h : Reads d src depth p ns r)
    (ha : Alongside d src src' p) : Alongside d src src' r := by
  induction h with
  | done => exact ha
  | semicolon skip char rest ih => exact ih (ha.mark skip char (.inr rfl))
  | closed skip starts head node rest ih => exact ih (ha.rest skip starts head)
  | unclosed skip starts head char node =>
    have := ha.rest skip starts head
    rcases char with rfl | rfl <;> exact this
  | nested skip starts head inner trivia char node rest ihi ih =>
    exact ih ((ihi (ha.rest skip starts head)).mark trivia char (.inl rfl))

/-! ### Outcomes without facts -/

/-- A statement is read at the place where it starts. -/
theorem Reads.of_statement {depth p q r : Nat} {n : Node} (skip : skipTrivia d src p = .ok q)
    (starts : Starts src q) (h : statement d src (blockAt d src depth) q = .ok (n, r)) :
    Reads d src depth p [n] r := by
  rcases statement_cases h with
    ⟨stop, head, rfl, node⟩ | ⟨c, head, char, node⟩ | ⟨brace, block, head, hblock, rfl, node⟩
  · exact .closed skip starts head node .done
  · exact .unclosed skip starts head char node
  · obtain ⟨k, children, close, rfl, hinner, rfl⟩ := blockAt_ok hblock
    have hlt := starts.stop_lt_size head
    obtain ⟨last, inner, trivia, char⟩ := Reads.of_statements _ _ _ _ _ hinner hlt
    have hlast := (inner.bounds hlt).1
    have hclose := (skipTrivia_bounds trivia).1
    have hstop : (nodeOf .block brace (close + 1) children).span.stop = close + 1 :=
      Nat.max_eq_right (by omega)
    rw [hstop] at node ⊢
    exact .nested skip starts head inner trivia char node .done

/-- Statements, with the place where they end, without facts. -/
def bareStatements (r : Except ParseError (List Node × Nat)) : Except ParseError (List Node × Nat) :=
  r.map fun (ns, stop) => (bareList ns, stop)

/-- A statement, with the place where reading goes on, without facts. -/
def bareStatement (r : Except ParseError (Node × Nat)) : Except ParseError (Node × Nat) :=
  r.map fun (n, next) => (n.bare, next)

theorem bareStatement_map (x : Except ParseError Node) (next : Nat) :
    bareStatement (x.map (·, next)) = (x.map Node.bare).map (·, next) := by
  cases x <;> rfl

theorem bareHead_unfold {start stop : Nat} {c : Option Char} (h : scan d src start = .ok (stop, c)) :
    bareHead d src start =
      if c = some '\x7b' then
        (headNode src start (trimEnd src start stop) stop (some (nodeOf .block stop stop []))).map Node.bare
      else if c = some ';' then (headNode src start (trimEnd src start stop) (stop + 1) none).map Node.bare
      else (headNode src start (trimEnd src start stop) (trimEnd src start stop) none).map Node.bare := by
  have hmap (x : Except ParseError Node) (next : Nat) :
      (x.map (·, next)).map (fun (n, _) => n.bare) = x.map Node.bare := by
    cases x <;> rfl
  have hstop : (nodeOf .block stop stop []).span.stop = stop := Nat.max_self stop
  rw [bareHead, statement_unfold h]
  split
  · simp only [Except.bind, hmap, hstop]
  · split <;> rw [hmap]

theorem bareStatement_ok {r : Except ParseError (Node × Nat)} {n : Node} {next : Nat}
    (h : bareStatement r = bareStatement (.ok (n, next))) : ∃ n', r = .ok (n', next) ∧ n'.bare = n.bare := by
  obtain ⟨⟨n', next'⟩, rfl, heq⟩ := map_ok h
  obtain ⟨hbare, rfl⟩ := Prod.mk.inj heq
  exact ⟨n', rfl, hbare⟩

/-- **A statement is read alike if its head and its block are.** -/
theorem statement_alongside {blockAt blockAt' : Nat → Except ParseError Node} {start : Nat}
    (hscan : scan d src' start = scan d src start) (hhead : bareHead d src' start = bareHead d src start)
    (hblock : ∀ brace, scan d src start = .ok (brace, some '\x7b') →
      (blockAt' brace).map Node.bare = (blockAt brace).map Node.bare) :
    bareStatement (statement d src' blockAt' start) = bareStatement (statement d src blockAt start) := by
  cases hfound : scan d src start with
  | error e => simp only [statement, hscan, hfound]
  | ok found =>
    obtain ⟨stop, c⟩ := found
    have hfound' := hscan.trans hfound
    rw [statement_unfold hfound', statement_unfold hfound]
    rw [bareHead_unfold hfound', bareHead_unfold hfound] at hhead
    by_cases hbrace : c = some '\x7b'
    · subst hbrace
      have hblock := hblock stop hfound
      simp only [if_pos] at hhead ⊢
      cases hx : blockAt stop with
      | error e =>
        rw [hx] at hblock
        cases hx' : blockAt' stop with
        | error e' => rw [hx'] at hblock; cases hblock; rfl
        | ok block' => rw [hx'] at hblock; cases hblock
      | ok block =>
        rw [hx] at hblock
        cases hx' : blockAt' stop with
        | error e' => rw [hx'] at hblock; cases hblock
        | ok block' =>
          rw [hx'] at hblock
          have hbare : block'.bare = block.bare := Except.ok.inj hblock
          have hspan : block'.span = block.span := by rw [← Node.bare_span, hbare, Node.bare_span]
          have hnode := headNode_bare hhead block.span.stop (show (some block).isSome = _ from rfl)
            (show (some block').map Node.bare = _ from congrArg some hbare)
          simp only [Except.bind, hspan]
          rw [bareStatement_map, bareStatement_map, hnode]
    · simp only [if_neg hbrace] at hhead ⊢
      split at hhead
      · rename_i hsemi
        rw [if_pos hsemi, if_pos hsemi, bareStatement_map, bareStatement_map, hhead]
      · rename_i hsemi
        rw [if_neg hsemi, if_neg hsemi, bareStatement_map, bareStatement_map, hhead]

/-- **Statements are read alike if their heads are**, by induction on the depth and, at each depth,
along the text. -/
theorem statements_alongside (depth : Nat) : ∀ (opening : Option Nat) (p : Nat), Alongside d src src' p →
    p ≤ src.size → (∀ m ∈ startsFrom d src p, bareHead d src' m = bareHead d src m) →
      bareStatements (statements d src' (blockAt d src' depth) opening p) =
        bareStatements (statements d src (blockAt d src depth) opening p) := by
  induction depth using Nat.strongRecOn with
  | ind depth ih =>
  -- a block whose inside is passed over alike
  have hblock {brace : Nat} (ha : Alongside d src src' (brace + 1)) (hlt : brace < src.size)
      (hheads : ∀ m ∈ startsFrom d src (brace + 1), bareHead d src' m = bareHead d src m) :
      (blockAt d src' depth brace).map Node.bare = (blockAt d src depth brace).map Node.bare := by
    cases depth with
    | zero => rfl
    | succ k =>
      have hinner := ih k (Nat.lt_succ_self k) (some brace) (brace + 1) ha hlt hheads
      simp only [blockAt]
      cases hr : statements d src (blockAt d src k) (some brace) (brace + 1) with
      | error e =>
        rw [hr] at hinner
        rw [map_error hinner]
      | ok found =>
        rw [hr] at hinner
        obtain ⟨⟨ns, stop⟩, hr', heq⟩ := map_ok hinner
        obtain ⟨hns, rfl⟩ := Prod.mk.inj heq
        rw [hr']
        simp only [Except.map, nodeOf, Node.bare, hns]
  -- a statement and what follows it
  have hstatement {p q : Nat} (ha : Alongside d src src' p) (skip : skipTrivia d src p = .ok q)
      (starts : Starts src q) (hheads : ∀ m ∈ startsFrom d src p, bareHead d src' m = bareHead d src m) :
      bareStatement (statement d src' (blockAt d src' depth) q) =
        bareStatement (statement d src (blockAt d src depth) q) := by
    obtain ⟨rest, hrest⟩ := startsFrom_of_starts skip starts
    refine statement_alongside (ha.head skip starts) (hheads q (hrest ▸ List.mem_cons_self)) fun brace head => ?_
    refine hblock (ha.rest skip starts head) (starts.stop_lt_size head) fun m hm => hheads m ?_
    rw [startsFrom_of_head skip starts head]
    exact List.mem_cons_of_mem _ hm
  have hnext {p q r : Nat} {n : Node} (ha : Alongside d src src' p) (skip : skipTrivia d src p = .ok q)
      (starts : Starts src q) (hheads : ∀ m ∈ startsFrom d src p, bareHead d src' m = bareHead d src m)
      (hp : p ≤ src.size) (h : statement d src (blockAt d src depth) q = .ok (n, r)) :
      Alongside d src src' r ∧ r ≤ src.size ∧
        ∀ m ∈ startsFrom d src r, bareHead d src' m = bareHead d src m := by
    have hr := Reads.of_statement skip starts h
    exact ⟨hr.alongside ha, (hr.bounds hp).2, fun m hm => hheads m (hr.startsFrom_suffix.subset hm)⟩
  intro opening pos
  fun_induction statements d src (blockAt d src depth) opening pos with
  | case1 pos e hs =>
    intro ha hp hheads
    rw [statements_of_error (ha.trivia.trans hs)]
  | case2 pos start hs hb hlt hc ho =>
    intro ha hp hheads
    have hchar := Array.getElem?_eq_getElem hlt
    rw [statements_of_char (ha.trivia.trans hs) ((ha.char hs).trans hchar), if_pos hc, if_pos ho]
  | case3 pos start hs hb hlt hc ho =>
    intro ha hp hheads
    have hchar := Array.getElem?_eq_getElem hlt
    rw [statements_of_char (ha.trivia.trans hs) ((ha.char hs).trans hchar), if_pos hc, if_neg ho]
  | case4 pos start hs hb hlt hc hsemi ih' =>
    intro ha hp hheads
    have hchar := Array.getElem?_eq_getElem hlt
    rw [statements_of_char (ha.trivia.trans hs) ((ha.char hs).trans hchar), if_neg hc, if_pos hsemi]
    rw [startsFrom_of_mark hs hchar (.inr hsemi)] at hheads
    exact ih' (ha.mark hs hchar (.inr hsemi)) hlt hheads
  | case5 pos start hs hb hlt hc hsemi e he =>
    intro ha hp hheads
    have hchar := Array.getElem?_eq_getElem hlt
    have hst := hstatement ha hs ⟨_, hchar, hc, hsemi⟩ hheads
    rw [he] at hst
    rw [statements_of_char (ha.trivia.trans hs) ((ha.char hs).trans hchar), if_neg hc, if_neg hsemi, map_error hst]
    rfl
  | case6 pos start hs hb hlt hc hsemi n next hn hlt' e he ih' =>
    intro ha hp hheads
    have hchar := Array.getElem?_eq_getElem hlt
    have hst := hstatement ha hs ⟨_, hchar, hc, hsemi⟩ hheads
    rw [hn] at hst
    obtain ⟨n', hn', hbare⟩ := bareStatement_ok hst
    obtain ⟨ha', hle, hheads'⟩ := hnext ha hs ⟨_, hchar, hc, hsemi⟩ hheads hp hn
    have hrest := ih' ha' hle hheads'
    rw [he] at hrest
    rw [statements_of_char (ha.trivia.trans hs) ((ha.char hs).trans hchar), if_neg hc, if_neg hsemi, hn']
    simp only [Except.bind, if_pos hlt', map_error hrest]
    rfl
  | case7 pos start hs hb hlt hc hsemi n next hn hlt' rest stop he ih' =>
    intro ha hp hheads
    have hchar := Array.getElem?_eq_getElem hlt
    have hst := hstatement ha hs ⟨_, hchar, hc, hsemi⟩ hheads
    rw [hn] at hst
    obtain ⟨n', hn', hbare⟩ := bareStatement_ok hst
    obtain ⟨ha', hle, hheads'⟩ := hnext ha hs ⟨_, hchar, hc, hsemi⟩ hheads hp hn
    have hrest := ih' ha' hle hheads'
    rw [he] at hrest
    obtain ⟨⟨rest', stop'⟩, hrest', heq⟩ := map_ok hrest
    obtain ⟨hbares, rfl⟩ := Prod.mk.inj heq
    rw [statements_of_char (ha.trivia.trans hs) ((ha.char hs).trans hchar), if_neg hc, if_neg hsemi, hn']
    simp only [Except.bind, if_pos hlt', hrest', Except.map, bareStatements, bareList, hbare, hbares]
  | case8 pos start hs hb hlt hc hsemi n next hn hlt' =>
    intro ha hp hheads
    have hchar := Array.getElem?_eq_getElem hlt
    have hst := hstatement ha hs ⟨_, hchar, hc, hsemi⟩ hheads
    rw [hn] at hst
    obtain ⟨n', hn', hbare⟩ := bareStatement_ok hst
    rw [statements_of_char (ha.trivia.trans hs) ((ha.char hs).trans hchar), if_neg hc, if_neg hsemi, hn']
    simp only [Except.bind, if_neg hlt', Except.map, bareStatements, bareList, hbare]
  | case9 pos start hs hb hlt brace hopen =>
    intro ha hp hheads
    subst hopen
    have hend := Array.getElem?_eq_none_iff.1 ((ha.char hs).trans (Array.getElem?_eq_none (Nat.le_of_not_lt hlt)))
    rw [statements_past_end (ha.trivia.trans hs) hend]
    rfl
  | case10 pos start hs hb hlt hopen =>
    intro ha hp hheads
    subst hopen
    have hend := Array.getElem?_eq_none_iff.1 ((ha.char hs).trans (Array.getElem?_eq_none (Nat.le_of_not_lt hlt)))
    rw [statements_past_end (ha.trivia.trans hs) hend]
    rfl

/-- **Two texts whose heads are read alike have the same tree but for its facts, or the same fault.** -/
theorem parse_alongside (ha : Alongside d src src' 0) (hsize : src'.size = src.size)
    (hheads : ∀ m ∈ startsFrom d src 0, bareHead d src' m = bareHead d src m) :
    (parse d src').map Node.bare = (parse d src).map Node.bare := by
  have hread := statements_alongside nestingLimit none 0 ha (Nat.zero_le _) hheads
  unfold parse
  cases hr : statements d src (blockAt d src nestingLimit) none 0 with
  | error e =>
    rw [hr] at hread
    rw [map_error hread]
  | ok found =>
    rw [hr] at hread
    obtain ⟨⟨ns, stop⟩, hr', heq⟩ := map_ok hread
    obtain ⟨hns, rfl⟩ := Prod.mk.inj heq
    rw [hr']
    simp only [Except.map, nodeOf, Node.bare, hns, hsize]

/-! ### Heads told by the tree -/

/-- A statement whose block is taken to be empty. -/
def emptied (n : Node) : Node :=
  match n.children.getLast? with
  | some ⟨.style .block, span, _⟩ => ⟨n.label, .between n.span.start span.start,
      n.children.dropLast ++ [nodeOf .block span.start span.start []]⟩
  | _ => n

theorem bare_block {label : Label} (h : label.bare = .style .block) : label = .style .block := by
  cases label with
  | style form => cases form <;> cases h; rfl
  | document => cases h
  | python form => cases h

/-- A statement without a block stays as it is. -/
theorem emptied_of_none {start headStop stop : Nat} {n : Node} (hle : start ≤ headStop)
    (h : headNode src start headStop stop none = .ok n) : emptied n.bare = n.bare := by
  obtain ⟨parts, hshape, -, -, hparts, -⟩ := headNode_shape hle h
  have hchildren : n.children = parts := (congrArg Node.children hshape).trans (List.append_nil _)
  unfold emptied
  split
  · rename_i label span children hlast
    rw [Node.bare_children, hchildren, Node.bareList_eq_map] at hlast
    obtain ⟨x, hx, hbare⟩ := List.mem_map.1 (List.mem_of_getLast? hlast)
    have hlabel : x.label.bare = .style .block := by rw [← Node.bare_label, hbare]
    exact absurd (bare_block hlabel) (hparts x (Node.mem_walkList_of_mem hx))
  · rfl

/-- **The head of a statement is told by the kinds and spans of the statement.** -/
theorem Item.bareHead {depth : Nat} {n : Node} (h : Item d src depth n) :
    bareHead d src n.span.start = .ok (emptied n.bare) := by
  cases h with
  | closed rest starts head node =>
    rw [bareHead_unfold head, if_neg (by decide), if_pos rfl, emptied_of_none (starts.le_trimEnd head) node, node]
    rfl
  | unclosed rest starts head char node =>
    rw [bareHead_unfold head, if_neg (by rcases char with rfl | rfl <;> decide),
      if_neg (by rcases char with rfl | rfl <;> decide), emptied_of_none (starts.le_trimEnd head) node, node]
    rfl
  | @nested depth brace last close children _ rest starts head inner trivia char node =>
    obtain ⟨r, hr⟩ := headNode_parts src n.span.start (trimEnd src n.span.start brace) true
    rw [hr _ _ rfl] at node
    obtain ⟨⟨label, parts⟩, rfl, hn⟩ := map_ok node
    have hbare : n.bare = ⟨label.bare, .between n.span.start (close + 1),
        bareList parts ++ [nodeOf .block brace (close + 1) (bareList children)]⟩ :=
      (congrArg Node.bare hn).symm.trans bare_parts
    rw [bareHead_unfold head, if_pos rfl, hr _ _ rfl, hbare]
    simp only [Except.map, bare_parts, emptied, List.getLast?_concat, List.dropLast_concat, nodeOf]
    rfl

theorem isStatement_bare (n : Node) : IsStatement n.bare ↔ IsStatement n := by
  obtain ⟨label, span, children⟩ := n
  cases label with
  | style form => cases form <;> exact Iff.rfl
  | document => exact Iff.rfl
  | python form => exact Iff.rfl

/-- Below a statement stand no statements but those of its block. -/
theorem not_isStatement_of_child {n c : Node} (hn : IsStatement n) (hfits : Fits src n) (hc : c ∈ n.children) :
    ¬ IsStatement c := by
  have hnot {c : Node} {form : Form} (hl : c.label = .style form)
      (hform : form = .selectorList ∨ form = .block ∨ (∃ name, form = .property name) ∨
        ∃ text, form = .value text) : ¬ IsStatement c := by
    rw [IsStatement, hl]
    rcases hform with rfl | rfl | ⟨name, rfl⟩ | ⟨text, rfl⟩ <;> exact id
  unfold IsStatement at hn
  split at hn <;> rename_i hl
  · -- a rule
    rw [Fits, hl] at hfits
    obtain ⟨list, block, hchildren, hlist, hblock, -⟩ := hfits
    rw [hchildren] at hc
    rcases List.mem_cons.1 hc with rfl | hc
    · exact hnot hlist (.inl rfl)
    · rw [List.mem_singleton.1 hc]
      exact hnot hblock (.inr (.inl rfl))
  · -- a declaration
    rw [Fits, hl] at hfits
    obtain ⟨property, value, name, hchildren, hproperty, -, hvalue⟩ := hfits
    rw [hchildren] at hc
    rcases List.mem_cons.1 hc with rfl | hc
    · exact hnot hproperty (.inr (.inr (.inl ⟨_, rfl⟩)))
    · rw [List.mem_singleton.1 hc]
      exact hnot hvalue (.inr (.inr (.inr ⟨_, rfl⟩)))
  · -- an at-rule
    simp only [Fits, hl] at hfits
    split at hfits
    · obtain ⟨block, hchildren, hblock⟩ := hfits
      rw [hchildren] at hc
      rw [List.mem_singleton.1 hc]
      exact hnot hblock (.inr (.inl rfl))
    · rw [hfits] at hc
      cases hc
  · cases hn

/-- A statement of a tree was read by itself. -/
theorem Reads.item_of_statement {depth p r : Nat} {ns : List Node} (h : Reads d src depth p ns r) {x : Node}
    (hx : x ∈ walkList ns) (hstatement : IsStatement x) : ∃ k, Item d src k x := by
  obtain ⟨k, m, hm, -, rfl | hx | hx⟩ := h.owner hx
  · exact ⟨k, hm⟩
  · obtain ⟨hm, hwell, -⟩ := hm.wellFormed
    exact absurd hstatement (not_isStatement_of_child hm hwell.fits hx)
  · unfold IsSelectorPart at hx
    unfold IsStatement at hstatement
    split at hx
    · rename_i hl; rw [hl] at hstatement; cases hstatement
    · rename_i hl; rw [hl] at hstatement; cases hstatement
    · rename_i hl; rw [hl] at hstatement; cases hstatement
    · cases hx

/-- **Every start that is met is the start of a statement of the tree**, or is met behind it. -/
theorem Reads.item_of_start {depth p r : Nat} {ns : List Node} (h : Reads d src depth p ns r) :
    ∀ m ∈ startsFrom d src p, m ∈ startsFrom d src r ∨
      ∃ k n, n ∈ walkList ns ∧ n.span.start = m ∧ Item d src k n := by
  induction h with
  | done => exact fun m hm => .inl hm
  | semicolon skip char rest ih =>
    rw [startsFrom_of_mark skip char (.inr rfl)]
    exact ih
  | @closed depth p q stop r n ns skip starts head node rest ih =>
    rw [startsFrom_of_head skip starts head]
    obtain rfl := headNode_start (starts.le_trimEnd head) node
    intro m hm
    rcases List.mem_cons.1 hm with rfl | hm
    · exact .inr ⟨depth, n, Node.mem_walkList_of_mem List.mem_cons_self, rfl,
        .closed (skipTrivia_idem skip) starts head node⟩
    · refine (ih m hm).imp_right ?_
      rintro ⟨k, n', hn', hrest⟩
      exact ⟨k, n', by rw [Node.walkList_cons]; exact List.mem_append_right _ hn', hrest⟩
  | @unclosed depth p q stop n c skip starts head char node =>
    rw [startsFrom_of_head skip starts head]
    obtain rfl := headNode_start (starts.le_trimEnd head) node
    intro m hm
    rcases List.mem_cons.1 hm with rfl | hm
    · exact .inr ⟨depth, n, Node.mem_walkList_of_mem List.mem_cons_self, rfl,
        .unclosed (skipTrivia_idem skip) starts head char node⟩
    · rcases char with rfl | rfl <;> exact .inl hm
  | @nested depth p q brace last close r children ns n skip starts head inner trivia char node rest ihi ih =>
    rw [startsFrom_of_head skip starts head]
    obtain ⟨parts, hshape, -⟩ := headNode_shape (starts.le_trimEnd head) node
    obtain rfl := headNode_start (starts.le_trimEnd head) node
    intro m hm
    rcases List.mem_cons.1 hm with rfl | hm
    · exact .inr ⟨_, n, Node.mem_walkList_of_mem List.mem_cons_self, rfl,
        .nested (skipTrivia_idem skip) starts head inner trivia char node⟩
    rcases ihi m hm with hm | ⟨k, n', hn', hrest⟩
    · rw [startsFrom_of_mark trivia char (.inl rfl)] at hm
      refine (ih m hm).imp_right ?_
      rintro ⟨k, n', hn', hrest⟩
      exact ⟨k, n', by rw [Node.walkList_cons]; exact List.mem_append_right _ hn', hrest⟩
    · -- a statement in the block
      refine .inr ⟨k, n', ?_, hrest⟩
      have hchildren : n.children = parts ++ [nodeOf .block brace (close + 1) children] :=
        congrArg Node.children hshape
      have hin : n' ∈ walkList n.children := by
        rw [hchildren, Node.walkList_append, Node.walkList_cons, Node.walk_eq]
        exact List.mem_append_right _ (List.mem_append_left _ (List.mem_cons_of_mem _ hn'))
      rw [Node.walkList_cons, Node.walk_eq]
      exact List.mem_append_left _ (List.mem_cons_of_mem _ hin)

/-- **Two texts with the same tree but for its facts have their heads read alike.** -/
theorem heads_of_parse {tree tree' : Node} (h : parse d src = .ok tree) (h' : parse d src' = .ok tree')
    (hbare : tree'.bare = tree.bare) : ∀ m ∈ startsFrom d src 0, bareHead d src' m = bareHead d src m := by
  obtain ⟨ns, r, hr, htail, rfl⟩ := parse_iff.1 h
  obtain ⟨ns', r', hr', htail', rfl⟩ := parse_iff.1 h'
  have hbares : bareList ns' = bareList ns := by
    have := congrArg Node.children hbare
    rwa [Node.bare_children, Node.bare_children] at this
  intro m hm
  rcases hr.item_of_start m hm with hm | ⟨k, n, hn, rfl, hitem⟩
  · -- behind the last statement none is met
    rw [startsFrom_of_end htail (Array.getElem?_eq_none (Nat.le_refl _))] at hm
    cases hm
  -- the node of the other tree that is the same but for its facts
  have hmem : n.bare ∈ walkList (bareList ns') := by
    rw [hbares, Node.walkList_bare]
    exact List.mem_map_of_mem hn
  rw [Node.walkList_bare] at hmem
  obtain ⟨n', hn', heq⟩ := List.mem_map.1 hmem
  have hstatement : IsStatement n' := by
    rw [← isStatement_bare, heq, isStatement_bare]
    exact hitem.wellFormed.1
  obtain ⟨k', hitem'⟩ := hr'.item_of_statement hn' hstatement
  have hstart : n'.span.start = n.span.start := by
    rw [← Node.bare_span, heq, Node.bare_span]
  rw [← hstart, hitem'.bareHead, heq, hstart, hitem.bareHead]

end HouseStyle.Stylesheet
