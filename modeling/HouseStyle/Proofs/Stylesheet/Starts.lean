import HouseStyle.Proofs.Stylesheet.Blocks

/-!
# Where the statements of a text start

A text can be passed over from one statement to the next without regard to the blocks in
which they stand: a brace that opens a block ends a head, and one that closes a block is
passed over like a semicolon.

* `startsFrom`: the starts of the statements that are met from a place on.
* `startsFrom_agree`: up to a start they are told by the text before it.
* `Reads.owner`: every node of a tree belongs to a statement whose start is met.
-/

namespace HouseStyle.Stylesheet

open Node (walkList)

variable {d : Dialect} {src src' : Array Char}

/-- Where a text is passed over from, after a head that ends at a place. -/
def resume (stop : Nat) (c : Option Char) : Nat :=
  if c = some ';' ∨ c = some '\x7b' then stop + 1 else stop

theorem le_resume (stop : Nat) (c : Option Char) : stop ≤ resume stop c := by
  unfold resume
  split <;> omega

theorem starts_of_char {start : Nat} (hlt : start < src.size) (hmark : ¬ (src[start] = '}' ∨ src[start] = ';')) :
    Starts src start :=
  ⟨_, Array.getElem?_eq_getElem hlt, not_or.1 hmark⟩

/-- Whether a statement can start at a place is told by the text up to there. -/
theorem Starts.agree {m start : Nat} (h : Agree src src' 0 0 m) (hs : Starts src start) (hlt : start < m) :
    Starts src' start := by
  have := hs.move h (Nat.zero_le _) (by omega)
  rwa [Nat.zero_add, Nat.sub_zero] at this

/-- The starts of the statements that are met from a place on. -/
def startsFrom (d : Dialect) (src : Array Char) (pos : Nat) : List Nat :=
  match hs : skipTrivia d src pos with
  | .error _ => []
  | .ok start =>
    have := skipTrivia_bounds hs
    if _h : start < src.size then
      if src[start] = '}' ∨ src[start] = ';' then startsFrom d src (start + 1)
      else
        match scan d src start with
        | .error _ => [start]
        | .ok (stop, c) =>
          -- A head ends after its start, so the other branch is never taken.
          if start < resume stop c then start :: startsFrom d src (resume stop c) else [start]
    else []
termination_by src.size - pos

theorem startsFrom_of_error {pos : Nat} {e : ParseError} (hskip : skipTrivia d src pos = .error e) :
    startsFrom d src pos = [] := by
  rw [startsFrom]
  split <;> rename_i heq <;> rw [hskip] at heq <;> cases heq

theorem startsFrom_of_end {pos start : Nat} (hskip : skipTrivia d src pos = .ok start)
    (hc : src[start]? = none) : startsFrom d src pos = [] := by
  rw [startsFrom]
  split <;> rename_i heq <;> rw [hskip] at heq <;> cases heq
  rw [dif_neg (Nat.not_lt.2 (Array.getElem?_eq_none_iff.1 hc))]

theorem startsFrom_of_mark {pos start : Nat} {c : Char} (hskip : skipTrivia d src pos = .ok start)
    (hc : src[start]? = some c) (hmark : c = '}' ∨ c = ';') :
    startsFrom d src pos = startsFrom d src (start + 1) := by
  obtain ⟨hlt, rfl⟩ := Array.getElem?_eq_some_iff.1 hc
  rw [startsFrom]
  split <;> rename_i heq <;> rw [hskip] at heq <;> cases heq
  rw [dif_pos hlt, if_pos hmark]

/-- The start of a statement is met. -/
theorem startsFrom_of_starts {pos start : Nat} (hskip : skipTrivia d src pos = .ok start)
    (hs : Starts src start) : ∃ rest, startsFrom d src pos = start :: rest := by
  obtain ⟨c, hc, hb, hsemi⟩ := hs
  obtain ⟨hlt, rfl⟩ := Array.getElem?_eq_some_iff.1 hc
  rw [startsFrom]
  split <;> rename_i heq <;> rw [hskip] at heq <;> cases heq
  rw [dif_pos hlt, if_neg (not_or.2 ⟨hb, hsemi⟩)]
  split
  · exact ⟨_, rfl⟩
  · split <;> exact ⟨_, rfl⟩

theorem Starts.lt_resume {start stop : Nat} {c : Option Char} (hs : Starts src start)
    (h : scan d src start = .ok (stop, c)) : start < resume stop c := by
  have hle := (hs.scan_bounds h).1
  unfold resume
  split
  · omega
  · rename_i hc
    exact hs.lt_stop h fun hx => hc (.inr hx)

/-- **Where the head of a statement ends the passing over goes on.** -/
theorem startsFrom_of_head {pos start stop : Nat} {c : Option Char} (hskip : skipTrivia d src pos = .ok start)
    (hs : Starts src start) (hscan : scan d src start = .ok (stop, c)) :
    startsFrom d src pos = start :: startsFrom d src (resume stop c) := by
  have hlt' := hs.lt_resume hscan
  obtain ⟨x, hx, hb, hsemi⟩ := hs
  obtain ⟨hlt, rfl⟩ := Array.getElem?_eq_some_iff.1 hx
  rw [startsFrom]
  split <;> rename_i heq <;> rw [hskip] at heq <;> cases heq
  rw [dif_pos hlt, if_neg (not_or.2 ⟨hb, hsemi⟩), hscan]
  simp only [if_pos hlt']

/-- A head without an end is the last one. -/
theorem startsFrom_of_fault {pos start : Nat} {e : ParseError} (hskip : skipTrivia d src pos = .ok start)
    (hs : Starts src start) (hscan : scan d src start = .error e) : startsFrom d src pos = [start] := by
  obtain ⟨x, hx, hb, hsemi⟩ := hs
  obtain ⟨hlt, rfl⟩ := Array.getElem?_eq_some_iff.1 hx
  rw [startsFrom]
  split <;> rename_i heq <;> rw [hskip] at heq <;> cases heq
  rw [dif_pos hlt, if_neg (not_or.2 ⟨hb, hsemi⟩), hscan]

/-! ### What is met -/

/-- A start that is met is the start of a statement, not before the place. -/
theorem mem_startsFrom {pos : Nat} : ∀ m ∈ startsFrom d src pos,
    pos ≤ m ∧ Starts src m ∧ skipTrivia d src m = .ok m := by
  fun_induction startsFrom d src pos with
  | case1 => exact fun _ hm => nomatch hm
  | case2 pos start hskip hb hlt hmark ih =>
    intro m hm
    obtain ⟨hle, hrest⟩ := ih m hm
    exact ⟨by omega, hrest⟩
  | case3 pos start hskip hb hlt hmark e hscan =>
    intro m hm
    obtain rfl := List.mem_singleton.1 hm
    exact ⟨hb.1, starts_of_char hlt hmark, skipTrivia_idem hskip⟩
  | case4 pos start hskip hb hlt hmark stop c hscan hlt' ih =>
    intro m hm
    rcases List.mem_cons.1 hm with rfl | hm
    · exact ⟨hb.1, starts_of_char hlt hmark, skipTrivia_idem hskip⟩
    · obtain ⟨hle, hrest⟩ := ih m hm
      exact ⟨by omega, hrest⟩
  | case5 pos start hskip hb hlt hmark stop c hscan hlt' =>
    intro m hm
    obtain rfl := List.mem_singleton.1 hm
    exact ⟨hb.1, starts_of_char hlt hmark, skipTrivia_idem hskip⟩
  | case6 => exact fun _ hm => nomatch hm

theorem startsFrom_sorted {pos : Nat} : (startsFrom d src pos).Pairwise (· < ·) := by
  fun_induction startsFrom d src pos with
  | case1 => exact .nil
  | case2 pos start hskip hb hlt hmark ih => exact ih
  | case3 => exact List.pairwise_singleton _ _
  | case4 pos start hskip hb hlt hmark stop c hscan hlt' ih =>
    exact List.pairwise_cons.2 ⟨fun m hm => Nat.lt_of_lt_of_le hlt' (mem_startsFrom m hm).1, ih⟩
  | case5 => exact List.pairwise_singleton _ _
  | case6 => exact .nil

/-- After a start the passing over goes on where its head ends. -/
theorem suffix_of_mem_startsFrom {pos m stop : Nat} {c : Option Char} (hm : m ∈ startsFrom d src pos)
    (hscan : scan d src m = .ok (stop, c)) : m :: startsFrom d src (resume stop c) <:+ startsFrom d src pos := by
  fun_induction startsFrom d src pos with
  | case1 => cases hm
  | case2 pos start hskip hb hlt hmark ih => exact ih hm
  | case3 pos start hskip hb hlt hmark e herr =>
    obtain rfl := List.mem_singleton.1 hm
    cases herr.symm.trans hscan
  | case4 pos start hskip hb hlt hmark stop' c' hscan' hlt' ih =>
    rcases List.mem_cons.1 hm with rfl | hm
    · cases hscan'.symm.trans hscan
      exact List.suffix_refl _
    · exact (ih hm).trans (List.suffix_cons _ _)
  | case5 pos start hskip hb hlt hmark stop' c' hscan' hlt' =>
    exact absurd ((starts_of_char hlt hmark).lt_resume hscan') hlt'
  | case6 => cases hm

/-- No start is met inside a head. -/
theorem not_mem_startsFrom {pos m stop p : Nat} {c : Option Char} (hm : m ∈ startsFrom d src pos)
    (hscan : scan d src m = .ok (stop, c)) (hlt : m < p) (hp : p < resume stop c) :
    p ∉ startsFrom d src pos := by
  intro hmem
  obtain ⟨before, hbefore⟩ := suffix_of_mem_startsFrom hm hscan
  have hsorted := @startsFrom_sorted d src pos
  rw [← hbefore] at hmem hsorted
  rcases List.mem_append.1 hmem with hmem | hmem
  · have := (List.pairwise_append.1 hsorted).2.2 p hmem m List.mem_cons_self
    omega
  · rcases List.mem_cons.1 hmem with rfl | hmem
    · omega
    · have := (mem_startsFrom p hmem).1
      omega

/-- No statement starts where a block or the text ends. -/
theorem stop_lt_of_mem {start stop m : Nat} {c : Option Char} (hs : Starts src start)
    (hscan : scan d src start = .ok (stop, c)) (hm : m ∈ startsFrom d src (resume stop c)) : stop < m := by
  obtain ⟨hle, ⟨x, hx, hb, -⟩, -⟩ := mem_startsFrom m hm
  obtain ⟨-, -, hstop⟩ := hs.scan_bounds hscan
  have hstopm := le_resume stop c
  refine Nat.lt_of_le_of_ne (by omega) ?_
  rintro rfl
  rw [hx] at hstop
  rcases scan_char hscan with rfl | rfl | rfl | rfl
  · exact Nat.not_succ_le_self stop hle
  · exact Nat.not_succ_le_self stop hle
  · cases hstop
    exact hb rfl
  · cases hstop

/-- A head that ends before the place where two texts begin to differ is met in both. -/
theorem head_prefix {m start stop : Nat} {c : Option Char} (h : Agree src src' 0 0 m)
    (hs : Starts src start) (hscan : scan d src start = .ok (stop, c)) (hstop : stop < m)
    (hrest : skipTrivia d src start = .ok start) :
    Starts src' start ∧ scan d src' start = .ok (stop, c) ∧ skipTrivia d src' start = .ok start := by
  obtain ⟨hle, -, hchar⟩ := hs.scan_bounds hscan
  have hstart := hs.agree h (by omega)
  refine ⟨hstart, ?_, h.skipTrivia_prefix (by omega) (fun hslash => ?_) hrest⟩
  · have := @scanFrom_agree d _ _ _ _ _ h 0 start stop c hstop
    rw [Nat.zero_add, Nat.zero_add] at this
    exact this (Nat.le_of_lt hs.lt_size) (Nat.le_of_lt hstart.lt_size) hscan
  · -- a head does not end at a slash
    have hne : start ≠ stop := by
      rintro rfl
      rw [hslash] at hchar
      rcases scan_char hscan with rfl | rfl | rfl | rfl <;> cases hchar
    omega

/-- Trivia that ends before a statement ends alike, if none stands there. -/
theorem skipTrivia_before {m pos q : Nat} (h : Agree src src' 0 0 m) (hq : q ≤ m) (hm : m < src.size)
    (hrest : skipTrivia d src' q = .ok q) (hs : skipTrivia d src pos = .ok q) :
    skipTrivia d src' pos = .ok q := by
  have := @skipTrivia_agree d _ _ _ _ _ h pos q hq (fun hend => by omega)
  rw [Nat.zero_add, Nat.zero_add] at this
  exact this hrest hs

/-- **Up to a start, the starts are told by the text before it**, and so is where the heads end
that begin at them. -/
theorem startsFrom_agree {m : Nat} (h : Agree src src' 0 0 m) (hrest : skipTrivia d src' m = .ok m)
    (hstarts : Starts src' m) {pos : Nat} (hm : m ∈ startsFrom d src pos) :
    ∃ before after after', startsFrom d src pos = before ++ m :: after ∧
      startsFrom d src' pos = before ++ m :: after' ∧
      ∀ q ∈ before, Starts src q ∧ ∃ stop c, stop < m ∧ scan d src q = .ok (stop, c) := by
  have hsize := (mem_startsFrom m hm).2.1.lt_size
  -- the start itself
  have hself {pos : Nat} (hs : skipTrivia d src pos = .ok m) :
      ∃ after', startsFrom d src' pos = m :: after' :=
    startsFrom_of_starts (skipTrivia_before h (Nat.le_refl _) hsize hrest hs) hstarts
  fun_induction startsFrom d src pos with
  | case1 => cases hm
  | case2 pos start hs hb hlt hmark ih =>
    obtain ⟨before, after, after', h1, h2, h3⟩ := ih hm
    have hlt' : start < m := (mem_startsFrom m hm).1
    have hc : src'[start]? = some src[start] := by
      have := h.char hlt' (by omega)
      simpa only [Nat.zero_add] using this
    have hq : skipTrivia d src' start = .ok start := by
      rcases hmark with hx | hx <;> rw [hx] at hc <;> exact skipTrivia_of_plain hc (by decide) (by decide)
    refine ⟨before, after, after', h1, ?_, h3⟩
    rw [startsFrom_of_mark (skipTrivia_before h (Nat.le_of_lt hlt') hsize hq hs) hc hmark, h2]
  | case3 pos start hs hb hlt hmark e hscan =>
    obtain rfl := List.mem_singleton.1 hm
    obtain ⟨after', h2⟩ := hself hs
    exact ⟨[], [], after', rfl, h2, fun _ hq => nomatch hq⟩
  | case4 pos start hs hb hlt hmark stop c hscan hlt' ih =>
    have hstart := starts_of_char hlt hmark
    rcases List.mem_cons.1 hm with rfl | hm
    · obtain ⟨after', h2⟩ := hself hs
      exact ⟨[], _, after', rfl, h2, fun _ hq => nomatch hq⟩
    · obtain ⟨before, after, after', h1, h2, h3⟩ := ih hm
      have hstop := stop_lt_of_mem hstart hscan hm
      have hle := (hstart.scan_bounds hscan).1
      obtain ⟨hstart', hscan', hq⟩ := head_prefix h hstart hscan hstop (skipTrivia_idem hs)
      refine ⟨start :: before, after, after', by rw [h1]; rfl, ?_, ?_⟩
      · rw [startsFrom_of_head (skipTrivia_before h (by omega) hsize hq hs) hstart' hscan', h2]
        rfl
      · exact List.forall_mem_cons.2 ⟨⟨hstart, stop, c, hstop, hscan⟩, h3⟩
  | case5 pos start hs hb hlt hmark stop c hscan hlt' =>
    exact absurd ((starts_of_char hlt hmark).lt_resume hscan) hlt'
  | case6 => cases hm

/-! ### The statements of a tree -/

/-- **Reading passes over the text as far as it reads.** -/
theorem Reads.startsFrom_suffix {depth p r : Nat} {ns : List Node} (h : Reads d src depth p ns r) :
    startsFrom d src r <:+ startsFrom d src p := by
  induction h with
  | done => exact List.suffix_refl _
  | semicolon skip char rest ih =>
    rw [startsFrom_of_mark skip char (.inr rfl)]
    exact ih
  | closed skip starts head node rest ih =>
    rw [startsFrom_of_head skip starts head]
    exact ih.trans (List.suffix_cons _ _)
  | unclosed skip starts head char node =>
    rw [startsFrom_of_head skip starts head]
    rcases char with rfl | rfl <;> exact List.suffix_cons _ _
  | nested skip starts head inner trivia char node rest ihi ih =>
    rw [startsFrom_of_mark trivia char (.inl rfl)] at ihi
    rw [startsFrom_of_head skip starts head]
    exact ih.trans (ihi.trans (List.suffix_cons _ _))

/-- A node among some trees is a root or stands below one. -/
theorem mem_walkList {ns : List Node} {x : Node} (h : x ∈ walkList ns) :
    ∃ m ∈ ns, x = m ∨ x ∈ walkList m.children := by
  induction ns with
  | nil => cases h
  | cons m ns ih =>
    rw [Node.walkList_cons, List.mem_append, Node.walk_eq, List.mem_cons] at h
    rcases h with h | h
    · exact ⟨m, List.mem_cons_self, h⟩
    · obtain ⟨m', hm', h⟩ := ih h
      exact ⟨m', List.mem_cons_of_mem _ hm', h⟩

/-- The nodes of a statement: it, its children, the parts of its selectors, and what stands in
its block. -/
theorem headNode_nodes {start headStop stop : Nat} {block : Option Node} {m x : Node}
    (h : headNode src start headStop stop block = .ok m) (hx : x ∈ Node.walk m) :
    x = m ∨ x ∈ m.children ∨ IsSelectorPart x ∨ ∃ b, block = some b ∧ x ∈ walkList b.children := by
  rw [Node.walk_eq, List.mem_cons] at hx
  rcases hx with hx | hbelow
  · exact .inl hx
  obtain ⟨y, hy, rfl | hx⟩ := mem_walkList hbelow
  · exact .inr (.inl hy)
  refine .inr (.inr ?_)
  unfold headNode at h
  split at h
  · obtain ⟨name, prelude, mixin, rfl⟩ := atRule_shape h
    exact .inr ⟨y, Option.mem_toList.1 hy, hx⟩
  · split at h
    · rename_i b
      obtain ⟨list, hl, rfl⟩ := rule_shape h
      rcases List.mem_cons.1 hy with rfl | hy
      · exact .inl ((selectorList_shape hl).2 x hx)
      · rw [List.mem_singleton.1 hy] at hx
        exact .inr ⟨b, rfl, hx⟩
    · -- a property and a value have no children
      obtain ⟨property, value, important, name, propertyStop, valueStart, rfl⟩ := declaration_shape h
      rcases List.mem_cons.1 hy with rfl | hy
      · cases hx
      · rw [List.mem_singleton.1 hy] at hx
        cases hx

/-- **Every node of a tree belongs to a statement whose start is met**: it is the statement, a
child of it, or a part of its selectors. -/
theorem Reads.owner {depth p r : Nat} {ns : List Node} (h : Reads d src depth p ns r) {x : Node}
    (hx : x ∈ walkList ns) : ∃ k m, Item d src k m ∧ m.span.start ∈ startsFrom d src p ∧
      (x = m ∨ x ∈ m.children ∨ IsSelectorPart x) := by
  induction h with
  | done => cases hx
  | semicolon skip char rest ih =>
    rw [startsFrom_of_mark skip char (.inr rfl)]
    exact ih hx
  | @closed depth p q stop r m ns skip starts head node rest ih =>
    rw [startsFrom_of_head skip starts head]
    rw [Node.walkList_cons, List.mem_append] at hx
    rcases hx with hx | hx
    · obtain rfl := headNode_start (starts.le_trimEnd head) node
      refine ⟨depth, m, .closed (skipTrivia_idem skip) starts head node, List.mem_cons_self, ?_⟩
      simpa using headNode_nodes node hx
    · obtain ⟨k, m', hm', hmem, hown⟩ := ih hx
      exact ⟨k, m', hm', List.mem_cons_of_mem _ hmem, hown⟩
  | @unclosed depth p q stop m c skip starts head char node =>
    rw [startsFrom_of_head skip starts head]
    rw [Node.walkList_cons, walkList, List.append_nil] at hx
    obtain rfl := headNode_start (starts.le_trimEnd head) node
    refine ⟨depth, m, .unclosed (skipTrivia_idem skip) starts head char node, List.mem_cons_self, ?_⟩
    simpa using headNode_nodes node hx
  | @nested depth p q brace last close r children ns m skip starts head inner trivia char node rest ihi ih =>
    have hsuffix := inner.startsFrom_suffix
    rw [startsFrom_of_mark trivia char (.inl rfl)] at hsuffix
    rw [startsFrom_of_head skip starts head]
    rw [Node.walkList_cons, List.mem_append] at hx
    rcases hx with hx | hx
    · obtain rfl := headNode_start (starts.le_trimEnd head) node
      have hitem : Item d src (depth + 1) m :=
        .nested (skipTrivia_idem skip) starts head inner trivia char node
      rcases headNode_nodes node hx with hx | hx | hx | ⟨b, hb, hx⟩
      · exact ⟨_, m, hitem, List.mem_cons_self, .inl hx⟩
      · exact ⟨_, m, hitem, List.mem_cons_self, .inr (.inl hx)⟩
      · exact ⟨_, m, hitem, List.mem_cons_self, .inr (.inr hx)⟩
      · cases hb
        obtain ⟨k, m', hm', hmem, hown⟩ := ihi hx
        exact ⟨k, m', hm', List.mem_cons_of_mem _ hmem, hown⟩
    · obtain ⟨k, m', hm', hmem, hown⟩ := ih hx
      exact ⟨k, m', hm', List.mem_cons_of_mem _ (hsuffix.subset hmem), hown⟩

/-- What a statement is read from: a head, and the block after its brace. -/
theorem Item.head {depth : Nat} {m : Node} (h : Item d src depth m) :
    ∃ stop c e block, Starts src m.span.start ∧ scan d src m.span.start = .ok (stop, c) ∧
      headNode src m.span.start (trimEnd src m.span.start stop) e block = .ok m ∧
      (block.isSome = true ↔ c = some '\x7b') ∧ ∀ b, block = some b → b.label = .style .block := by
  cases h with
  | closed _ starts head node =>
    exact ⟨_, _, _, none, starts, head, node, by decide, fun _ hb => nomatch hb⟩
  | unclosed _ starts head char node =>
    refine ⟨_, _, _, none, starts, head, node, ?_, fun _ hb => nomatch hb⟩
    rcases char with rfl | rfl <;> decide
  | nested _ starts head _ _ _ node =>
    refine ⟨_, _, _, _, starts, head, node, iff_of_true rfl rfl, fun b hb => ?_⟩
    cases hb
    rfl

end HouseStyle.Stylesheet
