import HouseStyle.Proofs.Stylesheet.Moving

/-!
# The blocks of a stylesheet

* `Reads.splits`: the heads of a tree that was read split.
* `Reads.block`: the children of each block of a tree are read between its braces.
* `Reads.replace`: a text in which only the inside of one block differs has the same
  tree but for that block, if the heads of its rules split.
-/

namespace HouseStyle.Stylesheet

open Node (relocateList walkList Replaced)

variable {d : Dialect} {src src' : Array Char}

theorem headsSplit_nil : HeadsSplit src [] :=
  fun _ hm => absurd hm List.not_mem_nil

theorem HeadsSplit.of_children {m : Node} (hm : m.label ≠ .style .selectorList)
    (h : HeadsSplit src m.children) : HeadsSplit src [m] := by
  intro x hx hl
  rw [Node.walkList_cons, Node.walk_eq, List.cons_append, List.mem_cons, List.mem_append] at hx
  rcases hx with rfl | hx | hx
  · exact absurd hl hm
  · exact h x hx hl
  · cases hx

theorem Starts.le_trimEnd {q stop : Nat} {c : Option Char} (starts : Starts src q)
    (head : scan d src q = .ok (stop, c)) : q ≤ trimEnd src q stop :=
  Stylesheet.le_trimEnd (starts.scan_bounds head).1

/-- **The heads of what was read split.** -/
theorem Reads.splits {depth p r : Nat} {ns : List Node} (h : Reads d src depth p ns r) :
    HeadsSplit src ns := by
  induction h with
  | done => exact headsSplit_nil
  | semicolon skip char rest ih => exact ih
  | closed skip starts head node rest ih =>
    obtain ⟨parts, hshape, -, hlabel, -, hparts⟩ := headNode_shape (starts.le_trimEnd head) node
    refine HeadsSplit.cons.2 ⟨.of_children hlabel ?_, ih⟩
    rw [hshape]
    exact HeadsSplit.append.2 ⟨hparts, headsSplit_nil⟩
  | unclosed skip starts head char node =>
    obtain ⟨parts, hshape, -, hlabel, -, hparts⟩ := headNode_shape (starts.le_trimEnd head) node
    refine .of_children hlabel ?_
    rw [hshape]
    exact HeadsSplit.append.2 ⟨hparts, headsSplit_nil⟩
  | nested skip starts head inner trivia char node rest ihi ih =>
    obtain ⟨parts, hshape, -, hlabel, -, hparts⟩ := headNode_shape (starts.le_trimEnd head) node
    refine HeadsSplit.cons.2 ⟨.of_children hlabel ?_, ih⟩
    rw [hshape]
    exact HeadsSplit.append.2 ⟨hparts, .of_children (nomatch ·) ihi⟩

/-- The blocks of a statement without a block of its own: none. -/
theorem headNode_blocks {start headStop stop : Nat} {block : Option Node} {m x : Node}
    (hle : start ≤ headStop) (h : headNode src start headStop stop block = .ok m)
    (hx : x ∈ Node.walk m) (hl : x.label = .style .block) : x ∈ walkList block.toList := by
  obtain ⟨parts, hshape, hlabel, -, hparts, -⟩ := headNode_shape hle h
  rw [Node.walk_eq, List.mem_cons] at hx
  rcases hx with rfl | hx
  · exact absurd hl hlabel
  rw [hshape] at hx
  rw [Node.walkList_append, List.mem_append] at hx
  rcases hx with hx | hx
  · exact absurd hl (hparts x hx)
  · exact hx

/-- **The children of each block are read between its braces.** -/
theorem Reads.block {depth p r : Nat} {ns : List Node} (h : Reads d src depth p ns r)
    (hp : p ≤ src.size) {x : Node} (hx : x ∈ walkList ns) (hl : x.label = .style .block) :
    ∃ k brace children last close, x = nodeOf .block brace (close + 1) children ∧ p ≤ brace ∧
      brace < last ∧ last ≤ close ∧ close < r ∧ Reads d src k (brace + 1) children last ∧
      skipTrivia d src last = .ok close ∧ src[close]? = some '}' := by
  induction h with
  | done => cases hx
  | semicolon skip char rest ih =>
    have hpq := (skipTrivia_bounds skip).1
    have hlt := (Array.getElem?_eq_some_iff.1 char).1
    obtain ⟨k, brace, children, last, close, h1, h2, h3⟩ := ih hlt hx
    exact ⟨k, brace, children, last, close, h1, by omega, h3⟩
  | closed skip starts head node rest ih =>
    have hpq := (skipTrivia_bounds skip).1
    have hqs := (starts.scan_bounds head).1
    have hlt := starts.stop_lt_size head
    rw [Node.walkList_cons, List.mem_append] at hx
    rcases hx with hx | hx
    · cases headNode_blocks (starts.le_trimEnd head) node hx hl
    · obtain ⟨k, brace, children, last, close, h1, h2, h3⟩ := ih hlt hx
      exact ⟨k, brace, children, last, close, h1, by omega, h3⟩
  | unclosed skip starts head char node =>
    rw [Node.walkList_cons, List.mem_append] at hx
    rcases hx with hx | hx
    · cases headNode_blocks (starts.le_trimEnd head) node hx hl
    · cases hx
  | @nested depth p q brace last close r children ns m skip starts head inner trivia char node rest ihi ih =>
    have hpq := (skipTrivia_bounds skip).1
    have hqs := (starts.scan_bounds head).1
    have hlt := starts.stop_lt_size head
    have hlast := (inner.bounds hlt).1
    have hclose := (skipTrivia_bounds trivia).1
    have hlt' := (Array.getElem?_eq_some_iff.1 char).1
    have hqr := (rest.bounds hlt').1
    rw [Node.walkList_cons, List.mem_append] at hx
    rcases hx with hx | hx
    · -- the block of the statement, one inside of it, or none
      have hblock := headNode_blocks (starts.le_trimEnd head) node hx hl
      rw [Option.toList_some, Node.walkList_cons, Node.walk_eq, List.cons_append, List.mem_cons,
        List.mem_append] at hblock
      rcases hblock with rfl | hx | hx
      · exact ⟨depth, brace, children, last, close, rfl, by omega, by omega, hclose, by omega, inner,
          trivia, char⟩
      · obtain ⟨k, brace', children', last', close', h1, h2, h3, h4, h5, h6⟩ := ihi hlt hx
        exact ⟨k, brace', children', last', close', h1, by omega, h3, h4, by omega, h6⟩
      · cases hx
    · obtain ⟨k, brace', children', last', close', h1, h2, h3⟩ := ih hlt' hx
      exact ⟨k, brace', children', last', close', h1, by omega, h3⟩

theorem Agree.skipTrivia_prefix {n p q : Nat} (h : Agree src src' 0 0 n) (hq : q < n)
    (hnext : src[q]? = some '/' → q + 1 < n) (hs : skipTrivia d src p = .ok q) :
    skipTrivia d src' p = .ok q := by
  simpa using skipTrivia_move h (Nat.zero_le p) (by omega) (by simpa using hnext) hs

/-- A statement before the place where two texts begin to differ is read alike, and the
rest follows it. -/
theorem Reads.cons_prefix {n depth p q stop r r' : Nat} {c : Option Char} {m : Node} {ns : List Node}
    (hr : Reads d src depth p [m] r) (hp : p ≤ src.size) (h : Agree src src' 0 0 n) (hrn : r ≤ n)
    (hq : m.span.start = q) (starts : Starts src q) (head : scan d src q = .ok (stop, c)) (hstop : stop < n)
    (hc : c = some ';' ∨ c = some '\x7b') (hsplit : HeadsSplit src' [m]) (rest : Reads d src' depth r ns r') :
    Reads d src' depth p (m :: ns) r' := by
  have hself : relocateList 0 0 [m] = [m] := Node.relocateList_self _ fun _ _ => Nat.zero_le _
  have hlt := starts.lt_size
  have hqs := (starts.scan_bounds head).1
  have hlt' := h.lt_size (i := q) (by omega) (by omega)
  have head' : scan d src' q = .ok (stop, c) := by
    have := @scanFrom_agree d _ _ _ _ _ h 0 q stop c hstop (by omega) (by omega)
    rw [Nat.zero_add, Nat.zero_add] at this
    exact this head
  have hclosed : ∀ x ∈ [m], ¬ Unclosed d src x :=
    List.forall_mem_singleton.2 (not_unclosed (by rw [hq]; exact head) hc)
  have hclosed' : ∀ x ∈ [m], ¬ Unclosed d src' x :=
    List.forall_mem_singleton.2 (not_unclosed (by rw [hq]; exact head') hc)
  have hfirst := hr.move h (Nat.zero_le p) hp (by omega) (.inr hclosed) (by rw [hself]; exact hsplit)
  rw [hself, Nat.zero_add, Nat.sub_zero, Nat.zero_add, Nat.sub_zero] at hfirst
  exact hfirst.append hclosed' rest

theorem nodeOf_block_inj {o o' c c' : Nat} {ns ns' : List Node} (ho : o ≤ c) (ho' : o' ≤ c')
    (h : nodeOf .block o (c + 1) ns = nodeOf .block o' (c' + 1) ns') : o = o' ∧ c = c' ∧ ns = ns' := by
  have hspan := congrArg Node.span h
  have h1 : o = o' := congrArg Span.start hspan
  have h2 : max o (c + 1) = max o' (c' + 1) := congrArg Span.stop hspan
  exact ⟨h1, by omega, congrArg Node.children h⟩

/-- What a block becomes in a text that differs inside of it only. -/
theorem replaced_nodeOf (form : Form) {opening close close' : Nat} (start stop stop' : Nat)
    {children children' : List Node} (before after : List Node) {m m' : Node} (hopen : opening ≤ close)
    (hopen' : opening ≤ close')
    (h : Replaced (nodeOf .block opening (close + 1) children) (nodeOf .block opening (close' + 1) children')
      m m') (hstart : start ≤ opening) (hstop : close + 1 ≤ stop)
    (hstop' : stop' = close' + 1 + (stop - (close + 1))) :
    Replaced (nodeOf .block opening (close + 1) children) (nodeOf .block opening (close' + 1) children')
      (nodeOf form start stop (before ++ m :: after))
      (nodeOf form start stop' (before ++ m' :: relocateList (close + 1) (close' + 1) after)) := by
  have hB : (nodeOf .block opening (close + 1) children).span.stop = close + 1 :=
    Nat.max_eq_right (by omega)
  have hB' : (nodeOf .block opening (close' + 1) children').span.stop = close' + 1 :=
    Nat.max_eq_right (by omega)
  have := @Replaced.inside _ _ (.style form) (.between start stop) (.between start stop') before after _ _
    h rfl ?_
  · rw [hB, hB'] at this
    exact this
  · rw [hB, hB']
    simp only [Span.between_stop]
    omega

section

variable {n opening close close' : Nat} {children : List Node}

/-- A statement whose block is the one in which two texts differ, or holds it. -/
theorem Reads.replace_nested {depth p q brace mclose r : Nat} {inside inside' children' ns : List Node} {m : Node}
    (skip : skipTrivia d src p = .ok q) (starts : Starts src q)
    (head : scan d src q = .ok (brace, some '\x7b')) (char : src[mclose]? = some '}')
    (node : headNode src q (trimEnd src q brace) (mclose + 1)
      (some (nodeOf .block brace (mclose + 1) inside)) = .ok m)
    (rest : Reads d src (depth + 1) (mclose + 1) ns r) (hbefore : Agree src src' 0 0 n)
    (hafter : Agree src src' close close' (src.size - close + 1)) (hopen : opening ≤ close)
    (hopen' : opening ≤ close') (hn : brace < n) (hbrace : brace ≤ opening) (hle : close ≤ mclose)
    (hrep : Replaced (nodeOf .block opening (close + 1) children)
      (nodeOf .block opening (close' + 1) children') (nodeOf .block brace (mclose + 1) inside)
      (nodeOf .block brace (close' + (mclose - close) + 1) inside')) :
    ∃ m', Replaced (nodeOf .block opening (close + 1) children)
        (nodeOf .block opening (close' + 1) children') m m' ∧
      ((HeadsSplit src' inside' → ∃ last', Reads d src' depth (brace + 1) inside' last' ∧
          skipTrivia d src' last' = .ok (close' + (mclose - close))) →
        HeadsSplit src' (m' :: relocateList (close + 1) (close' + 1) ns) →
        Reads d src' (depth + 1) p (m' :: relocateList (close + 1) (close' + 1) ns)
          (close' + 1 + (r - (close + 1)))) := by
  have hlt := (Array.getElem?_eq_some_iff.1 char).1
  have hqb := (starts.scan_bounds head).1
  have hqr := rest.bounds hlt
  -- the head is not empty, so trivia before it ends where it ended
  have hne : src[q]? = some '/' → q + 1 < n := by
    intro hc
    have : q ≠ brace := by
      rintro rfl
      rw [(starts.scan_bounds head).2.2] at hc
      cases hc
    omega
  have hskip := hbefore.skipTrivia_prefix (by omega) hne skip
  obtain ⟨hscan, -, parts, hshape, hnode⟩ := head_move hbefore (Nat.zero_le q) (by omega) starts head
    (some (nodeOf .block brace (close' + (mclose - close) + 1) inside')) (by rfl) node
  rw [Node.relocateList_self parts fun _ _ => Nat.zero_le _] at hnode
  simp only [Nat.zero_add, Nat.sub_zero] at hscan hnode
  refine ⟨⟨m.label, .between q (close' + (mclose - close) + 1),
    parts ++ [nodeOf .block brace (close' + (mclose - close) + 1) inside']⟩, ?_, fun hin hsplit => ?_⟩
  · rw [hshape]
    refine @Replaced.inside _ _ _ _ _ parts [] _ _ hrep rfl ?_
    simp only [nodeOf, Span.between_stop]
    omega
  · obtain ⟨hm, hns⟩ := HeadsSplit.cons.1 hsplit
    have hchildren : HeadsSplit src'
        (parts ++ [nodeOf .block brace (close' + (mclose - close) + 1) inside']) := hm.children
    obtain ⟨hparts, hblock⟩ := HeadsSplit.append.1 hchildren
    have hinside : HeadsSplit src' inside' := hblock.children
    obtain ⟨last', hinner', htrivia'⟩ := hin hinside
    have hrest : Agree src src' (close + 1) (close' + 1) (src.size - close) := by
      simpa using hafter.drop 1
    have hmoved := rest.move hrest (by omega) hlt (by omega) (.inl (by omega)) hns
    rw [show close' + 1 + (mclose + 1 - (close + 1)) = close' + (mclose - close) + 1 by omega] at hmoved
    have hstarts : Starts src' q := by
      simpa using starts.move hbefore (Nat.zero_le q) (by omega)
    exact .nested hskip hstarts hscan hinner' htrivia' (hafter.at hle (by omega) char) (hnode _ hparts) hmoved

/-- **A text that differs from another inside one block only** has the same tree but for
that block, if the heads of its rules split. By induction on the reading: what
stands before the block is read as before, and what stands after it is moved. -/
theorem Reads.replace {depth p r : Nat} {ns : List Node} (hr : Reads d src depth p ns r)
    (hp : p ≤ src.size) (hmem : nodeOf .block opening (close + 1) children ∈ walkList ns)
    (hbefore : Agree src src' 0 0 n) (hn : opening < n)
    (hafter : Agree src src' close close' (src.size - close + 1)) (hopen : opening ≤ close)
    (hopen' : opening ≤ close') (children' : List Node) :
    close < r ∧ ∃ before m after m', ns = before ++ m :: after ∧
      Replaced (nodeOf .block opening (close + 1) children)
        (nodeOf .block opening (close' + 1) children') m m' ∧
      ((∀ k last, Reads d src k (opening + 1) children last → skipTrivia d src last = .ok close →
          HeadsSplit src' children' → ∃ last', Reads d src' k (opening + 1) children' last' ∧
            skipTrivia d src' last' = .ok close') →
        HeadsSplit src' (before ++ m' :: relocateList (close + 1) (close' + 1) after) →
        Reads d src' depth p (before ++ m' :: relocateList (close + 1) (close' + 1) after)
          (close' + 1 + (r - (close + 1)))) := by
  -- a block that stands behind a place begins behind it
  have hfrom {depth p r : Nat} {ns : List Node} (hr : Reads d src depth p ns r) (hp : p ≤ src.size)
      (hmem : nodeOf .block opening (close + 1) children ∈ walkList ns) : p ≤ opening := by
    obtain ⟨_, brace, _, _, _, hx, hle, -⟩ := hr.block hp hmem rfl
    have hq : brace = opening := congrArg (Span.start ∘ Node.span) hx.symm
    omega
  induction hr with
  | done => cases hmem
  | @semicolon depth p q r ns skip char rest ih =>
    have hlt := (Array.getElem?_eq_some_iff.1 char).1
    have hle := hfrom rest hlt hmem
    obtain ⟨hclose, before, m, after, m', rfl, hrep, hread⟩ := ih hlt hmem
    have hskip := hbefore.skipTrivia_prefix (by omega) (fun hc => by rw [char] at hc; cases hc) skip
    have hchar : src'[q]? = some ';' := by
      simpa using hbefore.at (Nat.zero_le q) (by omega) char
    exact ⟨hclose, before, m, after, m', rfl, hrep,
      fun hinner hsplit => .semicolon hskip hchar (hread hinner hsplit)⟩
  | @closed depth p q stop r m ns skip starts head node rest ih =>
    have hlt := starts.stop_lt_size head
    rw [Node.walkList_cons, List.mem_append] at hmem
    rcases hmem with hmem | hmem
    · cases headNode_blocks (starts.le_trimEnd head) node hmem rfl
    have hle := hfrom rest hlt hmem
    obtain ⟨hclose, before, m₁, after, m', rfl, hrep, hread⟩ := ih hlt hmem
    refine ⟨hclose, m :: before, m₁, after, m', rfl, hrep, fun hinner hsplit => ?_⟩
    obtain ⟨hm, hns⟩ := HeadsSplit.cons.1 hsplit
    have hfirst : Reads d src depth p [m] (stop + 1) := .closed skip starts head node .done
    exact hfirst.cons_prefix hp hbefore (by omega) (headNode_start (starts.le_trimEnd head) node) starts
      head (by omega) (.inl rfl) hm (hread hinner hns)
  | unclosed skip starts head char node =>
    rw [Node.walkList_cons, List.mem_append] at hmem
    rcases hmem with hmem | hmem
    · cases headNode_blocks (starts.le_trimEnd head) node hmem rfl
    · cases hmem
  | @nested depth p q brace last mclose r inside ns m skip starts head inner trivia char node rest ihi ih =>
    have hqb := (starts.scan_bounds head).1
    have hlt := starts.stop_lt_size head
    have hlast := (inner.bounds hlt).1
    have hlc := (skipTrivia_bounds trivia).1
    have hlt' := (Array.getElem?_eq_some_iff.1 char).1
    have hqr := rest.bounds hlt'
    rw [Node.walkList_cons, List.mem_append] at hmem
    rcases hmem with hmem | hmem
    · have hblock := headNode_blocks (starts.le_trimEnd head) node hmem rfl
      rw [Option.toList_some, Node.walkList_cons, Node.walk_eq, List.cons_append, List.mem_cons,
        List.mem_append] at hblock
      rcases hblock with heq | hin | hin
      · -- the block of this statement is the one
        obtain ⟨rfl, rfl, rfl⟩ := nodeOf_block_inj hopen (by omega) heq
        obtain ⟨m', hrep, hread⟩ := Reads.replace_nested skip starts head char node rest hbefore hafter
          hopen hopen' hn (Nat.le_refl _) (Nat.le_refl _)
          (by rw [Nat.sub_self, Nat.add_zero]; exact .here)
        rw [Nat.sub_self, Nat.add_zero] at hread
        exact ⟨by omega, [], m, ns, m', rfl, hrep, fun hinner => hread (hinner depth last inner trivia)⟩
      · -- the block of this statement holds it
        have hle := hfrom inner hlt hin
        obtain ⟨hlast', before, m₁, after, m₁', rfl, hrep₁, hread₁⟩ := ihi hlt hin
        have hrest : Agree src src' (close + 1) (close' + 1) (src.size - close) := by
          simpa using hafter.drop 1
        have htrivia := skipTrivia_move hrest (show close + 1 ≤ last by omega) (by omega)
          (fun hc => by rw [char] at hc; cases hc) trivia
        rw [show close' + 1 + (mclose - (close + 1)) = close' + (mclose - close) by omega] at htrivia
        obtain ⟨m', hrep, hread⟩ := Reads.replace_nested skip starts head char node rest hbefore hafter
          hopen hopen' (by omega) (by omega) (by omega)
          (replaced_nodeOf _ _ _ _ _ _ hopen hopen' hrep₁ (by omega) (by omega) (by omega))
        exact ⟨by omega, [], m, ns, m', rfl, hrep,
          fun hinner => hread fun hsplit => ⟨_, hread₁ hinner hsplit, htrivia⟩⟩
      · cases hin
    · have hle := hfrom rest hlt' hmem
      obtain ⟨hclose, before, m₁, after, m', rfl, hrep, hread⟩ := ih hlt' hmem
      refine ⟨hclose, m :: before, m₁, after, m', rfl, hrep, fun hinner hsplit => ?_⟩
      obtain ⟨hm, hns⟩ := HeadsSplit.cons.1 hsplit
      have hfirst : Reads d src (depth + 1) p [m] (mclose + 1) :=
        .nested skip starts head inner trivia char node .done
      exact hfirst.cons_prefix hp hbefore (by omega) (headNode_start (starts.le_trimEnd head) node) starts
        head (by omega) (.inr rfl) hm (hread hinner hns)

end

end HouseStyle.Stylesheet
