import HouseStyle.Proofs.Stylesheet.Heads

/-!
# How a stylesheet is read

* `Reads`: the statements between two places of a text, one after the other.
* `parse_iff`: the tree of a text is the one that `Reads` tells.
-/

namespace HouseStyle.Stylesheet

variable {d : Dialect} {src : Array Char}

/-! ### Statements -/

/-- The node of a statement whose head is `[start, headStop)`. -/
def headNode (src : Array Char) (start headStop stop : Nat) (block : Option Node) :
    Except ParseError Node :=
  if src[start]? = some '@' then atRule src start headStop stop block
  else
    match block with
    | some b => rule src start headStop stop b
    | none => declaration src start headStop stop

/-- A statement can start with a character. -/
def Starts (src : Array Char) (pos : Nat) : Prop :=
  ∃ c, src[pos]? = some c ∧ c ≠ '}' ∧ c ≠ ';'

/-- **Statements read from one place to another**, with blocks at most `depth` deep.
The place at the end stands right after a statement or a semicolon, or where a
statement without a semicolon meets the end of its block. -/
inductive Reads (d : Dialect) (src : Array Char) : Nat → Nat → List Node → Nat → Prop
  | done {depth p : Nat} : Reads d src depth p [] p
  | semicolon {depth p q r : Nat} {ns : List Node} (skip : skipTrivia d src p = .ok q)
      (char : src[q]? = some ';') (rest : Reads d src depth (q + 1) ns r) : Reads d src depth p ns r
  | closed {depth p q stop r : Nat} {n : Node} {ns : List Node} (skip : skipTrivia d src p = .ok q)
      (starts : Starts src q) (head : scan d src q = .ok (stop, some ';'))
      (node : headNode src q (trimEnd src q stop) (stop + 1) none = .ok n)
      (rest : Reads d src depth (stop + 1) ns r) : Reads d src depth p (n :: ns) r
  | unclosed {depth p q stop : Nat} {n : Node} {c : Option Char} (skip : skipTrivia d src p = .ok q)
      (starts : Starts src q) (head : scan d src q = .ok (stop, c)) (char : c = some '}' ∨ c = none)
      (node : headNode src q (trimEnd src q stop) (trimEnd src q stop) none = .ok n) :
      Reads d src depth p [n] stop
  | nested {depth p q brace last close r : Nat} {children ns : List Node} {n : Node}
      (skip : skipTrivia d src p = .ok q) (starts : Starts src q)
      (head : scan d src q = .ok (brace, some '\x7b')) (inner : Reads d src depth (brace + 1) children last)
      (trivia : skipTrivia d src last = .ok close) (char : src[close]? = some '}')
      (node : headNode src q (trimEnd src q brace) (close + 1)
        (some (nodeOf .block brace (close + 1) children)) = .ok n)
      (rest : Reads d src (depth + 1) (close + 1) ns r) : Reads d src (depth + 1) p (n :: ns) r

/-- A block, or the text, ends at a place. -/
def Ends (src : Array Char) (opening : Option Nat) (pos : Nat) : Prop :=
  match opening with
  | some _ => src[pos]? = some '}'
  | none => pos = src.size

theorem statement_unfold {blockAt : Nat → Except ParseError Node} {start stop : Nat} {c : Option Char}
    (h : scan d src start = .ok (stop, c)) : statement d src blockAt start =
      if c = some '\x7b' then
        (blockAt stop).bind fun block =>
          (headNode src start (trimEnd src start stop) block.span.stop (some block)).map (·, block.span.stop)
      else if c = some ';' then
        (headNode src start (trimEnd src start stop) (stop + 1) none).map (·, stop + 1)
      else (headNode src start (trimEnd src start stop) (trimEnd src start stop) none).map (·, stop) := by
  simp only [statement, h, headNode, beq_iff_eq]
  split
  · cases blockAt stop <;> rfl
  · split <;> rfl

theorem statements_of_char {blockAt : Nat → Except ParseError Node} {opening : Option Nat}
    {pos start : Nat} {c : Char} (h : skipTrivia d src pos = .ok start) (hc : src[start]? = some c) :
    statements d src blockAt opening pos =
      if c = '}' then if opening.isSome then .ok ([], start) else .error ⟨start, .unexpectedBrace⟩
      else if c = ';' then statements d src blockAt opening (start + 1)
      else (statement d src blockAt start).bind fun (node, resume) =>
        if start < resume then
          (statements d src blockAt opening resume).map fun (rest, stop) => (node :: rest, stop)
        else .ok ([node], resume) := by
  obtain ⟨hlt, rfl⟩ := Array.getElem?_eq_some_iff.1 hc
  rw [statements]
  split <;> rename_i heq <;> rw [h] at heq <;> cases heq
  rw [dif_pos hlt]
  split
  · rfl
  · split
    · rfl
    · split <;> rename_i he <;> simp only [he, Except.bind]
      split
      · split <;> rename_i he' <;> simp only [he', Except.map]
      · rfl

theorem statements_of_end {blockAt : Nat → Except ParseError Node} {pos stop : Nat}
    {opening : Option Nat} (h : skipTrivia d src pos = .ok stop) (he : Ends src opening stop) :
    statements d src blockAt opening pos = .ok ([], stop) := by
  cases opening with
  | some brace => rw [statements_of_char h he, if_pos rfl]; rfl
  | none =>
    rw [statements]
    split <;> rename_i heq <;> rw [h] at heq <;> cases heq
    rw [dif_neg (by rw [show stop = src.size from he]; omega)]

theorem statements_of_error {blockAt : Nat → Except ParseError Node} {opening : Option Nat} {pos : Nat}
    {e : ParseError} (hs : skipTrivia d src pos = .error e) :
    statements d src blockAt opening pos = .error e := by
  rw [statements]
  split <;> rename_i heq <;> rw [hs] at heq <;> cases heq
  rfl

theorem statements_past_end {blockAt : Nat → Except ParseError Node} {opening : Option Nat}
    {pos start : Nat} (hs : skipTrivia d src pos = .ok start) (h : src.size ≤ start) :
    statements d src blockAt opening pos =
      opening.elim (.ok ([], start)) fun brace => .error ⟨brace, .unclosedBlock⟩ := by
  rw [statements]
  split <;> rename_i heq <;> rw [hs] at heq <;> cases heq
  rw [dif_neg (Nat.not_lt.2 h)]
  cases opening <;> rfl

/-! ### From the parser to the reading -/

theorem bind_ok {α β ε : Type} {x : Except ε α} {f : α → Except ε β} {y : β} (h : x.bind f = .ok y) :
    ∃ a, x = .ok a ∧ f a = .ok y := by
  cases x with
  | error e => cases h
  | ok a => exact ⟨a, rfl, h⟩

theorem map_ok {α β ε : Type} {x : Except ε α} {f : α → β} {y : β} (h : x.map f = .ok y) :
    ∃ a, x = .ok a ∧ f a = y := by
  cases x with
  | error e => cases h
  | ok a => cases h; exact ⟨a, rfl, rfl⟩

theorem map_error {α β ε : Type} {x : Except ε α} {f : α → β} {e : ε} (h : x.map f = .error e) :
    x = .error e := by
  cases x with
  | error e' => cases h; rfl
  | ok a => cases h

theorem scanFrom_endsHead {depth pos stop : Nat} {c : Char}
    (h : scanFrom d src depth pos = .ok (stop, some c)) : endsHead c = true := by
  fun_induction scanFrom d src depth pos with
  | case1 => cases h
  | case2 _ _ _ _ _ _ ih => exact ih h
  | case3 _ _ _ _ _ ih => exact ih h
  | case4 _ _ _ _ _ _ ih => exact ih h
  | case5 _ _ _ _ _ _ hc =>
    cases h
    exact hc.2
  | case6 _ _ _ _ _ _ _ ih => exact ih h
  | case7 => cases h

/-- A head ends at a semicolon or a brace, or with the text. -/
theorem scan_char {pos stop : Nat} {c : Option Char} (h : scan d src pos = .ok (stop, c)) :
    c = some ';' ∨ c = some '\x7b' ∨ c = some '}' ∨ c = none := by
  cases c with
  | none => simp
  | some c =>
    have := scanFrom_endsHead h
    simpa [endsHead, or_assoc] using this

theorem Starts.lt_size {pos : Nat} (h : Starts src pos) : pos < src.size := by
  obtain ⟨c, hc, -⟩ := h
  exact (Array.getElem?_eq_some_iff.1 hc).1

theorem Starts.scan_bounds {pos stop : Nat} {c : Option Char} (hs : Starts src pos)
    (h : scan d src pos = .ok (stop, c)) : pos ≤ stop ∧ stop ≤ src.size ∧ src[stop]? = c :=
  scanFrom_bounds (Nat.le_of_lt hs.lt_size) h

theorem Starts.stop_lt_size {pos stop : Nat} {c : Char} (hs : Starts src pos)
    (h : scan d src pos = .ok (stop, some c)) : stop < src.size :=
  (Array.getElem?_eq_some_iff.1 (hs.scan_bounds h).2.2).1

/-- A head that a block does not follow is not empty. -/
theorem Starts.lt_stop {pos stop : Nat} {c : Option Char} (hs : Starts src pos)
    (h : scan d src pos = .ok (stop, c)) (hc : c ≠ some '\x7b') : pos < stop := by
  obtain ⟨h1, h2, h3⟩ := hs.scan_bounds h
  refine Nat.lt_of_le_of_ne h1 fun he => ?_
  subst he
  obtain ⟨x, hx, hb, hsemi⟩ := hs
  rw [hx] at h3
  obtain h | h | h | h := scan_char h <;> rw [h] at h3 hc <;> cases h3
  · exact hsemi rfl
  · exact hc rfl
  · exact hb rfl

/-- **What a statement can be**: closed by a semicolon, or by the end of its block, or
with a block of its own. -/
theorem statement_cases {blockAt : Nat → Except ParseError Node} {start resume : Nat} {n : Node}
    (h : statement d src blockAt start = .ok (n, resume)) :
    (∃ stop, scan d src start = .ok (stop, some ';') ∧ resume = stop + 1 ∧
        headNode src start (trimEnd src start stop) (stop + 1) none = .ok n) ∨
      (∃ c, scan d src start = .ok (resume, c) ∧ (c = some '}' ∨ c = none) ∧
        headNode src start (trimEnd src start resume) (trimEnd src start resume) none = .ok n) ∨
      ∃ brace block, scan d src start = .ok (brace, some '\x7b') ∧ blockAt brace = .ok block ∧
        resume = block.span.stop ∧
        headNode src start (trimEnd src start brace) block.span.stop (some block) = .ok n := by
  -- which of the three it is depends on the character that ends the head
  cases hscan : scan d src start with
  | error e => simp only [statement, hscan] at h; cases h
  | ok found =>
    obtain ⟨stop, c⟩ := found
    rw [statement_unfold hscan] at h
    by_cases hbrace : c = some '\x7b'
    · subst hbrace
      rw [if_pos rfl] at h
      obtain ⟨block, hblock, h⟩ := bind_ok h
      obtain ⟨node, hnode, h⟩ := map_ok h
      cases h
      exact .inr (.inr ⟨stop, block, rfl, hblock, rfl, hnode⟩)
    rw [if_neg hbrace] at h
    by_cases hsemi : c = some ';'
    · subst hsemi
      rw [if_pos rfl] at h
      obtain ⟨node, hnode, h⟩ := map_ok h
      cases h
      exact .inl ⟨stop, rfl, rfl, hnode⟩
    · rw [if_neg hsemi] at h
      obtain ⟨node, hnode, h⟩ := map_ok h
      cases h
      refine .inr (.inl ⟨c, rfl, ?_, hnode⟩)
      rcases scan_char hscan with hc | hc | hc
      · exact absurd hc hsemi
      · exact absurd hc hbrace
      · exact hc

theorem blockAt_ok {depth opening : Nat} {b : Node} (h : blockAt d src depth opening = .ok b) :
    ∃ k children close, depth = k + 1 ∧
      statements d src (blockAt d src k) (some opening) (opening + 1) = .ok (children, close) ∧
      b = nodeOf .block opening (close + 1) children := by
  cases depth with
  | zero => cases h
  | succ k =>
    rw [blockAt] at h
    split at h
    · cases h
    · rename_i children close hs
      cases h
      exact ⟨k, children, close, rfl, hs, rfl⟩

/-- Where a statement without a semicolon ends so does its block. -/
theorem statements_at_stop {blockAt : Nat → Except ParseError Node} {opening : Option Nat} {pos stop : Nat}
    {ns : List Node} (hc : src[pos]? = some '}' ∨ src[pos]? = none) (hle : pos ≤ src.size)
    (h : statements d src blockAt opening pos = .ok (ns, stop)) :
    ns = [] ∧ stop = pos ∧ skipTrivia d src pos = .ok pos ∧ Ends src opening pos := by
  rcases hc with hc | hc
  · have hskip : skipTrivia d src pos = .ok pos := skipTrivia_of_plain hc (by decide) (by decide)
    rw [statements_of_char hskip hc, if_pos rfl] at h
    cases opening with
    | none => cases h
    | some brace =>
      cases h
      exact ⟨rfl, rfl, hskip, hc⟩
  · have hend := Array.getElem?_eq_none_iff.1 hc
    have hskip : skipTrivia d src pos = .ok pos := skipTrivia_of_end hend
    rw [statements] at h
    split at h <;> rename_i heq <;> rw [hskip] at heq <;> cases heq
    rw [dif_neg (by omega)] at h
    cases opening with
    | some brace => cases h
    | none =>
      cases h
      exact ⟨rfl, rfl, hskip, show pos = src.size by omega⟩

theorem Reads.bounds {depth p r : Nat} {ns : List Node} (h : Reads d src depth p ns r)
    (hp : p ≤ src.size) : p ≤ r ∧ r ≤ src.size := by
  induction h with
  | done => exact ⟨Nat.le_refl _, hp⟩
  | semicolon skip char rest ih =>
    have h1 := skipTrivia_bounds skip
    have h2 := (Array.getElem?_eq_some_iff.1 char).1
    have := ih h2
    omega
  | closed skip starts head node rest ih =>
    have h1 := skipTrivia_bounds skip
    obtain ⟨h2, -, h3⟩ := starts.scan_bounds head
    have h4 := (Array.getElem?_eq_some_iff.1 h3).1
    have := ih h4
    omega
  | unclosed skip starts head char node =>
    have h1 := skipTrivia_bounds skip
    have h2 := starts.scan_bounds head
    omega
  | nested skip starts head inner trivia char node rest ihi ih =>
    have h1 := skipTrivia_bounds skip
    obtain ⟨h2, -, h3⟩ := starts.scan_bounds head
    have h4 := (Array.getElem?_eq_some_iff.1 h3).1
    have h5 := ihi h4
    have h6 := skipTrivia_bounds trivia
    have h7 := (Array.getElem?_eq_some_iff.1 char).1
    have := ih h7
    omega

/-- What is read between two places is what `Reads` tells, by induction on the depth
and, at each depth, along the text. -/
theorem Reads.of_statements (depth : Nat) : ∀ (opening : Option Nat) (pos stop : Nat) (ns : List Node),
    statements d src (blockAt d src depth) opening pos = .ok (ns, stop) → pos ≤ src.size →
      ∃ r, Reads d src depth pos ns r ∧ skipTrivia d src r = .ok stop ∧ Ends src opening stop := by
  induction depth using Nat.strongRecOn with
  | ind depth ih =>
  -- the block that follows a head
  have hblocks {start brace : Nat} {block : Node} (hs : Starts src start)
      (hscan : scan d src start = .ok (brace, some '\x7b')) (h : blockAt d src depth brace = .ok block) :
      ∃ k children close last, depth = k + 1 ∧ Reads d src k (brace + 1) children last ∧
        skipTrivia d src last = .ok close ∧ src[close]? = some '}' ∧ brace < close ∧
        block = nodeOf .block brace (close + 1) children := by
    obtain ⟨k, children, close, rfl, hin, rfl⟩ := blockAt_ok h
    have hlt := (Array.getElem?_eq_some_iff.1 (hs.scan_bounds hscan).2.2).1
    obtain ⟨last, hlast, htrivia, he⟩ := ih k (Nat.lt_succ_self k) _ _ _ _ hin hlt
    have := hlast.bounds hlt
    have := skipTrivia_bounds htrivia
    exact ⟨k, children, close, last, rfl, hlast, htrivia, he, by omega, rfl⟩
  intro opening pos
  fun_induction statements d src (blockAt d src depth) opening pos with
  | case1 => intro _ _ h; cases h
  | case2 pos start hskip _ hlt hc ho =>
    intro stop ns h hp
    cases h
    refine ⟨pos, .done, hskip, ?_⟩
    cases opening with
    | none => cases ho
    | some brace => exact (Array.getElem?_eq_getElem hlt).trans (congrArg some hc)
  | case3 => intro _ _ h; cases h
  | case4 pos start hskip _ hlt _ hc ih' =>
    intro stop ns h hp
    obtain ⟨r, hr, htail⟩ := ih' stop ns h hlt
    exact ⟨r, .semicolon hskip ((Array.getElem?_eq_getElem hlt).trans (congrArg some hc)) hr, htail⟩
  | case5 => intro _ _ h; cases h
  | case6 => intro _ _ h; cases h
  | case7 pos start hskip _ hlt hb hsemi n resume hst _ rest stop hrest ih' =>
    -- a statement and those after it
    intro stop' ns h hp
    cases h
    have hs : Starts src start := ⟨_, Array.getElem?_eq_getElem hlt, hb, hsemi⟩
    rcases statement_cases hst with
      ⟨send, hscan, rfl, hn⟩ | ⟨c, hscan, hc, hn⟩ | ⟨brace, block, hscan, hblock, rfl, hn⟩
    · have hlt' := (Array.getElem?_eq_some_iff.1 (hs.scan_bounds hscan).2.2).1
      obtain ⟨r, hr, htail⟩ := ih' stop rest hrest hlt'
      exact ⟨r, .closed hskip hs hscan hn hr, htail⟩
    · obtain ⟨-, hle, hchar⟩ := hs.scan_bounds hscan
      obtain ⟨rfl, rfl, hat, he⟩ := statements_at_stop (by rw [hchar]; exact hc) hle hrest
      exact ⟨stop, .unclosed hskip hs hscan hc hn, hat, he⟩
    · obtain ⟨k, children, close, last, rfl, hin, htrivia, hchar, hlast, rfl⟩ := hblocks hs hscan hblock
      have hclose := (Array.getElem?_eq_some_iff.1 hchar).1
      have hstop : (nodeOf .block brace (close + 1) children).span.stop = close + 1 :=
        Nat.max_eq_right (by omega)
      rw [hstop] at hn hrest ih'
      obtain ⟨r, hr, htail⟩ := ih' stop rest hrest hclose
      exact ⟨r, .nested hskip hs hscan hin htrivia hchar hn hr, htail⟩
  | case8 pos start hskip _ hlt hb hsemi n resume hst hnot =>
    -- reading a statement always moves on
    have hs : Starts src start := ⟨_, Array.getElem?_eq_getElem hlt, hb, hsemi⟩
    rcases statement_cases hst with
      ⟨send, hscan, rfl, hn⟩ | ⟨c, hscan, hc, hn⟩ | ⟨brace, block, hscan, hblock, rfl, hn⟩
    · have := (hs.scan_bounds hscan).1
      omega
    · refine absurd (hs.lt_stop hscan ?_) hnot
      rintro rfl
      rcases hc with hc | hc <;> cases hc
    · obtain ⟨k, children, close, last, rfl, hin, htrivia, hchar, hlast, rfl⟩ := hblocks hs hscan hblock
      have hstop : (nodeOf .block brace (close + 1) children).span.stop = close + 1 :=
        Nat.max_eq_right (by omega)
      have := (hs.scan_bounds hscan).1
      omega
  | case9 => intro _ _ h; cases h
  | case10 pos start hskip hle hend hnone =>
    intro stop ns h hp
    cases h
    subst hnone
    have := hle.2 hp
    exact ⟨pos, .done, hskip, show start = src.size by omega⟩

/-- What `Reads` tells is read, by induction on the reading. -/
theorem Reads.statements {depth p r : Nat} {ns : List Node} (h : Reads d src depth p ns r)
    (hp : p ≤ src.size) {opening : Option Nat} {stop : Nat} (htail : skipTrivia d src r = .ok stop)
    (he : Ends src opening stop) :
    statements d src (blockAt d src depth) opening p = .ok (ns, stop) := by
  induction h generalizing opening stop with
  | done => exact statements_of_end htail he
  | semicolon skip char rest ih =>
    have hlt := (Array.getElem?_eq_some_iff.1 char).1
    rw [statements_of_char skip char, if_neg (by decide), if_pos rfl]
    exact ih hlt htail he
  | closed skip starts head node rest ih =>
    have hlt := starts.stop_lt_size head
    have hle := (starts.scan_bounds head).1
    obtain ⟨c, hc, hb, hsemi⟩ := starts
    rw [statements_of_char skip hc, if_neg hb, if_neg hsemi, statement_unfold head,
      if_neg (by decide), if_pos rfl, node]
    simp only [Except.map, Except.bind, if_pos (Nat.lt_succ_of_le hle), ih hlt htail he]
  | @unclosed depth p q rstop n c skip starts head char node =>
    have hlt := starts.lt_stop head (by rcases char with rfl | rfl <;> decide)
    obtain ⟨-, hle, hchar⟩ := starts.scan_bounds head
    obtain ⟨x, hx, hb, hsemi⟩ := starts
    -- no statement follows one that is unclosed
    have hrest : Stylesheet.statements d src (blockAt d src depth) opening rstop = .ok ([], stop) :=
      statements_of_end htail he
    rw [statements_of_char skip hx, if_neg hb, if_neg hsemi, statement_unfold head,
      if_neg (by rcases char with rfl | rfl <;> decide), if_neg (by rcases char with rfl | rfl <;> decide),
      node]
    simp only [Except.map, Except.bind, if_pos hlt, hrest]
  | @nested depth p q brace last close r children ns n skip starts head inner trivia char node rest ihi ih =>
    have hlt := (Array.getElem?_eq_some_iff.1 char).1
    obtain ⟨hle, -, hbrace⟩ := starts.scan_bounds head
    have hlt' := (Array.getElem?_eq_some_iff.1 hbrace).1
    have hin := inner.bounds hlt'
    have htr := skipTrivia_bounds trivia
    have hblock : blockAt d src (depth + 1) brace = .ok (nodeOf .block brace (close + 1) children) := by
      rw [blockAt, ihi hlt' trivia (show Ends src (some brace) close from char)]
    have hstop : (nodeOf .block brace (close + 1) children).span.stop = close + 1 :=
      Nat.max_eq_right (by omega)
    obtain ⟨x, hx, hb, hsemi⟩ := starts
    rw [statements_of_char skip hx, if_neg hb, if_neg hsemi, statement_unfold head, if_pos rfl, hblock]
    simp only [Except.bind, hstop, node, Except.map]
    rw [if_pos (by omega), ih hlt htail he]

/-- **The tree of a text** is made of the statements that are read from its start to
its end. -/
theorem parse_iff {tree : Node} : parse d src = .ok tree ↔
    ∃ ns r, Reads d src nestingLimit 0 ns r ∧ skipTrivia d src r = .ok src.size ∧
      tree = nodeOf .stylesheet 0 src.size ns := by
  unfold parse
  constructor
  · intro h
    split at h
    · cases h
    · rename_i ns stop hs
      cases h
      obtain ⟨r, hr, htail, he⟩ := Reads.of_statements _ _ _ _ _ hs (Nat.zero_le _)
      obtain rfl : stop = src.size := he
      exact ⟨ns, r, hr, htail, rfl⟩
  · rintro ⟨ns, r, hr, htail, rfl⟩
    rw [hr.statements (Nat.zero_le _) htail (show Ends src none src.size from rfl)]

end HouseStyle.Stylesheet
