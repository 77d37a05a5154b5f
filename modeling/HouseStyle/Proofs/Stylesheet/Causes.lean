import HouseStyle.Proofs.Stylesheet.LineEndings

/-!
# Faults of a stylesheet point at their cause

A scan that fails reports where the string, comment or interpolation opened that it could not leave, however
often the text was scanned before. The other faults are about a statement or a block.

* `Blames`: what is true of every fault of a step; `Blames.bind`: of one step after another.
* `Unterminated`: the faults of scanning, with one `_blames` lemma for each scan.
* `Arrives`: the places between statements, with the blocks that are open there; `Arrives.of_reads`: where
  reading goes on.
* `Cause`: what stands where a fault is reported.
* `parse_points_at_cause`: **a fault is reported inside the text, at its cause.**
-/

namespace HouseStyle.Stylesheet

variable {d : Dialect} {src : Array Char}

/-! ### Faults of a step -/

/-- What is true of the fault of a step that fails. -/
def Blames {α : Type} (P : ParseError → Prop) (x : Except ParseError α) : Prop :=
  ∀ e, x = .error e → P e

namespace Blames

variable {α β : Type} {P Q : ParseError → Prop} {x : Except ParseError α}

theorem ok (a : α) : Blames P (.ok a) :=
  fun _ h => nomatch h

theorem error {e : ParseError} (h : P e) : Blames P (.error e : Except ParseError α) :=
  fun _ he => Except.error.inj he ▸ h

theorem bind {f : α → Except ParseError β} (hx : Blames P x) (hf : ∀ a, x = .ok a → Blames P (f a)) :
    Blames P (x.bind f) := by
  cases x with
  | error e => exact .error (hx e rfl)
  | ok a => exact hf a rfl

theorem map {f : α → β} (hx : Blames P x) : Blames P (x.map f) :=
  fun e he => hx e (map_error he)

theorem mono (hx : Blames P x) (h : ∀ e, P e → Q e) : Blames Q x :=
  fun e he => h e (hx e he)

end Blames

/-! ### Scanning -/

/-- A string, a comment or an interpolation opens where the fault is reported, and does not close. -/
inductive Unterminated (src : Array Char) : ParseError → Prop where
  | string {pos : Nat} {quote : Char} (char : src[pos]? = some quote) (opens : isQuote quote = true)
      (never : closingQuote? src quote (pos + 1) = none) : Unterminated src ⟨pos, .unterminatedString⟩
  | comment {pos : Nat} (slash : src[pos]? = some '/') (star : src[pos + 1]? = some '*')
      (never : closingComment? src (pos + 2) = none) : Unterminated src ⟨pos, .unterminatedComment⟩
  | interpolation {pos : Nat} (hash : src[pos]? = some '#') (brace : src[pos + 1]? = some '\x7b')
      (never : ∀ stop, interpolationEnd src pos ≠ .ok stop) : Unterminated src ⟨pos, .unterminatedInterpolation⟩

theorem stringEnd_blames {pos : Nat} {c : Char} (hc : src[pos]? = some c) (hquote : isQuote c = true) :
    Blames (Unterminated src) (stringEnd src c pos) := by
  unfold stringEnd
  split
  · exact .ok _
  · exact .error (.string hc hquote ‹_›)

/-- The braces of an interpolation blame a string among them, or the interpolation. -/
theorem closingBrace_blames (pos depth cursor : Nat) :
    Blames (fun e => Unterminated src e ∨ e = ⟨pos, .unterminatedInterpolation⟩)
      (closingBrace src pos depth cursor) := by
  fun_induction closingBrace src pos depth cursor with
  | case1 depth cursor hlt hquote e he =>
    exact .error (.inl (stringEnd_blames (Array.getElem?_eq_getElem hlt) hquote e he))
  | case2 _ _ _ _ _ _ _ ih => exact ih
  | case3 _ _ _ _ _ ih => exact ih
  | case4 => exact .ok _
  | case5 _ _ _ _ _ _ _ ih => exact ih
  | case6 _ _ _ _ _ _ ih => exact ih
  | case7 => exact .error (.inr rfl)

theorem interpolationEnd_blames {pos : Nat} (hopens : opensInterpolation src pos = true) :
    Blames (Unterminated src) (interpolationEnd src pos) := by
  intro e he
  rcases closingBrace_blames pos 0 (pos + 1) e he with hstring | rfl
  · exact hstring
  · rw [opensInterpolation, Bool.and_eq_true, beq_iff_eq, beq_iff_eq] at hopens
    refine .interpolation hopens.1 hopens.2 fun stop hstop => ?_
    rw [he] at hstop
    cases hstop

theorem quotedEnd?_blames (src : Array Char) (pos : Nat) : Blames (Unterminated src) (quotedEnd? src pos) := by
  unfold quotedEnd?
  split
  · exact .ok _
  · rename_i c hc
    split
    · exact (stringEnd_blames hc ‹_›).map
    · split
      · exact (interpolationEnd_blames ‹_›).map
      · exact .ok _

theorem commentEnd?_blames (lines : Bool) (src : Array Char) (pos : Nat) :
    Blames (Unterminated src) (commentEnd? lines src pos) := by
  unfold commentEnd?
  split
  · split
    · refine Blames.map ?_
      unfold commentEnd
      split
      · exact .ok _
      · exact .error (.comment ‹_› ‹_› ‹_›)
    · split <;> exact .ok _
  · exact .ok _

theorem opaqueEnd?_blames (depth pos : Nat) : Blames (Unterminated src) (opaqueEnd? d src depth pos) := by
  rw [opaqueEnd?_eq_bind]
  refine (quotedEnd?_blames src pos).bind fun found _ => ?_
  cases found with
  | some stop => exact .ok _
  | none => exact commentEnd?_blames _ src pos

theorem scanFrom_blames (depth pos : Nat) : Blames (Unterminated src) (scanFrom d src depth pos) := by
  fun_induction scanFrom d src depth pos with
  | case1 depth pos _ e he => exact .error (opaqueEnd?_blames depth pos e he)
  | case2 _ _ _ _ _ _ ih => exact ih
  | case3 _ _ _ _ _ ih => exact ih
  | case4 _ _ _ _ _ _ ih => exact ih
  | case5 => exact .ok _
  | case6 _ _ _ _ _ _ _ ih => exact ih
  | case7 => exact .ok _

theorem skipTrivia_blames (pos : Nat) : Blames (Unterminated src) (skipTrivia d src pos) := by
  fun_induction skipTrivia d src pos with
  | case1 _ _ _ ih => exact ih
  | case2 pos _ _ e he => exact .error (commentEnd?_blames _ src pos e he)
  | case3 _ _ _ _ _ _ ih => exact ih
  | case4 => exact .ok _
  | case5 => exact .ok _

theorem findColon?_blames (stop pos : Nat) : Blames (Unterminated src) (findColon? src stop pos) := by
  fun_induction findColon? src stop pos with
  | case1 pos _ hopens e he => exact .error (interpolationEnd_blames hopens e he)
  | case2 _ _ _ _ _ _ ih => exact ih
  | case3 => exact .ok _
  | case4 _ _ _ _ ih => exact ih
  | case5 => exact .ok _

/-! ### Selectors -/

theorem simpleSelectors_blames (stop pos : Nat) : Blames (Unterminated src) (simpleSelectors src stop pos) := by
  fun_induction simpleSelectors src stop pos with
  | case1 pos _ e he => exact .error (quotedEnd?_blames src pos e he)
  | case2 _ _ _ _ _ ih => exact ih
  | case3 => exact .ok _
  | case4 _ _ _ _ _ ih => exact ih
  | case5 _ _ _ _ _ _ _ _ _ e he ih => exact .error (ih e he)
  | case6 => exact .ok _
  | case7 _ _ _ _ _ _ _ ih => exact ih
  | case8 => exact .ok _

theorem selectorBetween_blames (start stop : Nat) : Blames (Unterminated src) (selectorBetween src start stop) := by
  rw [selectorBetween_eq_map]
  split
  · exact .ok _
  · exact (simpleSelectors_blames _ _).map

theorem selectorsFrom_blames (stop segment depth pos : Nat) :
    Blames (Unterminated src) (selectorsFrom src stop segment depth pos) := by
  fun_induction selectorsFrom src stop segment depth pos with
  | case1 segment depth pos _ e he => exact .error (quotedEnd?_blames src pos e he)
  | case2 _ _ _ _ _ _ _ ih => exact ih
  | case3 => exact .ok _
  | case4 _ _ _ _ _ _ _ _ ih => exact ih
  | case5 _ _ _ _ _ _ _ _ _ ih => exact ih
  | case6 segment _ pos _ _ _ _ _ _ _ e he => exact .error (selectorBetween_blames segment pos e he)
  | case7 _ _ _ _ _ _ _ _ _ _ _ _ e he ih => exact .error (ih e he)
  | case8 => exact .ok _
  | case9 _ _ _ _ _ _ _ _ _ _ ih => exact ih
  | case10 segment => exact selectorBetween_blames segment stop

theorem selectorList_blames (start stop : Nat) : Blames (Unterminated src) (selectorList src start stop) := by
  rw [selectorList_eq_map]
  exact (selectorsFrom_blames stop start 0 start).map

/-! ### Places between statements -/

/-- **The places between statements**, with the number of blocks that are open there: the start of the text,
and what follows a semicolon, a head or the brace that closes a block. -/
inductive Arrives (d : Dialect) (src : Array Char) : Nat → Nat → Prop where
  | start : Arrives d src 0 0
  | semicolon {k p q : Nat} (arrives : Arrives d src k p) (skip : skipTrivia d src p = .ok q)
      (char : src[q]? = some ';') : Arrives d src k (q + 1)
  | closed {k p q stop : Nat} (arrives : Arrives d src k p) (skip : skipTrivia d src p = .ok q)
      (starts : Starts src q) (head : scan d src q = .ok (stop, some ';')) : Arrives d src k (stop + 1)
  | unclosed {k p q stop : Nat} {c : Option Char} (arrives : Arrives d src k p) (skip : skipTrivia d src p = .ok q)
      (starts : Starts src q) (head : scan d src q = .ok (stop, c)) (char : c = some '}' ∨ c = none) :
      Arrives d src k stop
  | opened {k p q brace : Nat} (arrives : Arrives d src k p) (skip : skipTrivia d src p = .ok q)
      (starts : Starts src q) (head : scan d src q = .ok (brace, some '\x7b')) : Arrives d src (k + 1) (brace + 1)
  | left {k p close : Nat} (arrives : Arrives d src (k + 1) p) (skip : skipTrivia d src p = .ok close)
      (char : src[close]? = some '}') : Arrives d src k (close + 1)

/-- A statement begins at a place: its first character, after white space and comments. -/
structure BeginsAt (d : Dialect) (src : Array Char) (k q : Nat) : Prop where
  arrives : ∃ p, Arrives d src k p ∧ skipTrivia d src p = .ok q
  starts : Starts src q

/-- Where statements are read from a place, reading goes on at a place with as many blocks open. -/
theorem Arrives.of_reads {depth p r : Nat} {ns : List Node} (h : Reads d src depth p ns r) {k : Nat}
    (hp : Arrives d src k p) : Arrives d src k r := by
  induction h generalizing k with
  | done => exact hp
  | semicolon skip char _ ih => exact ih (hp.semicolon skip char)
  | closed skip starts head _ _ ih => exact ih (hp.closed skip starts head)
  | unclosed skip starts head char _ => exact hp.unclosed skip starts head char
  | nested skip starts head _ trivia char _ _ ihi ih => exact ih ((ihi (hp.opened skip starts head)).left trivia char)

/-- So it does after a statement. -/
theorem Arrives.of_statement {depth k p q resume : Nat} {n : Node} (hp : Arrives d src k p)
    (skip : skipTrivia d src p = .ok q) (starts : Starts src q)
    (h : statement d src (blockAt d src depth) q = .ok (n, resume)) : Arrives d src k resume := by
  rcases statement_cases h with ⟨stop, head, rfl, -⟩ | ⟨c, head, hc, -⟩ | ⟨brace, block, head, hblock, rfl, -⟩
  · exact hp.closed skip starts head
  · exact hp.unclosed skip starts head hc
  · obtain ⟨j, children, close, rfl, hin, rfl⟩ := blockAt_ok hblock
    have hlt := starts.stop_lt_size head
    obtain ⟨last, hreads, htrivia, hclose⟩ := Reads.of_statements j _ _ _ _ hin hlt
    have hle := hreads.bounds hlt
    have htrivial := skipTrivia_bounds htrivia
    have hstop : (nodeOf .block brace (close + 1) children).span.stop = close + 1 := Nat.max_eq_right (by omega)
    rw [hstop]
    exact (of_reads hreads (hp.opened skip starts head)).left htrivia hclose

/-! ### Causes -/

/-- **What stands where a fault is reported.** -/
inductive Cause (d : Dialect) (src : Array Char) : ParseError → Prop where
  | unterminated {e : ParseError} (opens : Unterminated src e) : Cause d src e
  /-- The brace that opens the block of a statement, where the text ends with as many blocks open as inside. -/
  | unclosedBlock {k q brace p stop : Nat} (begins : BeginsAt d src k q)
      (head : scan d src q = .ok (brace, some '\x7b')) (char : src[brace]? = some '\x7b')
      (last : Arrives d src (k + 1) p) (skip : skipTrivia d src p = .ok stop) (ends : src[stop]? = none) :
      Cause d src ⟨brace, .unclosedBlock⟩
  /-- A brace that closes, where no block is open. -/
  | unexpectedBrace {p q : Nat} (arrives : Arrives d src 0 p) (skip : skipTrivia d src p = .ok q)
      (char : src[q]? = some '}') : Cause d src ⟨q, .unexpectedBrace⟩
  /-- The sign that begins an at-rule. -/
  | missingAtRuleName {k q : Nat} (begins : BeginsAt d src k q) (char : src[q]? = some '@') :
      Cause d src ⟨q, .missingAtRuleName⟩
  /-- The first character of a statement that has no block and no colon. -/
  | missingColon {k q stop : Nat} {c : Option Char} {first : Char} (begins : BeginsAt d src k q)
      (head : scan d src q = .ok (stop, c)) (noBlock : c ≠ some '\x7b')
      (noColon : findColon? src (trimEnd src q stop) q = .ok none) (char : src[q]? = some first)
      (notBlank : isStyleBlank first = false) (plain : first ∉ ['@', ';', '\x7b', '}']) :
      Cause d src ⟨q, .missingColon⟩

/-- A fault has its cause where it is reported, or the text is nested too deeply. -/
def Faulted (d : Dialect) (src : Array Char) (e : ParseError) : Prop :=
  e = ⟨0, .nestedTooDeeply⟩ ∨ Cause d src e

theorem Blames.faulted {α : Type} {x : Except ParseError α} (h : Blames (Unterminated src) x) :
    Blames (Faulted d src) x :=
  h.mono fun _ he => .inr (.unterminated he)

/-- A character inside the text stands where a fault is reported. -/
theorem Cause.lt_size {e : ParseError} (h : Cause d src e) : e.offset < src.size := by
  have hchar : ∃ c, src[e.offset]? = some c := by
    cases h with
    | unterminated opens =>
      cases opens with
      | string char => exact ⟨_, char⟩
      | comment slash => exact ⟨_, slash⟩
      | interpolation hash => exact ⟨_, hash⟩
    | unclosedBlock _ _ char _ _ _ => exact ⟨_, char⟩
    | unexpectedBrace _ _ char => exact ⟨_, char⟩
    | missingAtRuleName _ char => exact ⟨_, char⟩
    | missingColon _ _ _ _ char => exact ⟨_, char⟩
  obtain ⟨c, hc⟩ := hchar
  exact (Array.getElem?_eq_some_iff.1 hc).1

/-! ### Statements -/

theorem scan_of_brace {q : Nat} (h : src[q]? = some '\x7b') : scan d src q = .ok (q, some '\x7b') := by
  rw [scan, scanFrom_of_char h, opaqueEnd?_of_plain h (by decide) (by decide) (by decide)]
  rfl

theorem atRule_blames {k q : Nat} (hbegins : BeginsAt d src k q) (hat : src[q]? = some '@') (headStop stop : Nat)
    (block : Option Node) : Blames (Faulted d src) (atRule src q headStop stop block) := by
  unfold atRule
  dsimp only
  split
  · exact .error (.inr (.missingAtRuleName hbegins hat))
  · exact .ok _

theorem rule_blames (start headStop stop : Nat) (block : Node) :
    Blames (Faulted d src) (rule src start headStop stop block) := by
  rw [rule_eq_map]
  exact (selectorList_blames start headStop).faulted.map

theorem declaration_blames {k q stop : Nat} {c : Option Char} (hbegins : BeginsAt d src k q)
    (hhead : scan d src q = .ok (stop, c)) (hc : c ≠ some '\x7b') (hat : src[q]? ≠ some '@') (declStop : Nat) :
    Blames (Faulted d src) (declaration src q (trimEnd src q stop) declStop) := by
  rw [declaration_eq_bind]
  refine (findColon?_blames _ q).faulted.bind fun found hcolon => ?_
  cases found with
  | some colon => exact .ok _
  | none =>
    obtain ⟨p, -, hskip⟩ := hbegins.arrives
    obtain ⟨first, hfirst, hclose, hsemi⟩ := hbegins.starts
    refine .error (.inr (.missingColon hbegins hhead hc hcolon hfirst
      (not_blank_of_rest (skipTrivia_idem hskip) hfirst) ?_))
    -- a brace that opens a block would end the head at once
    have hnotAt : first ≠ '@' := fun h => hat (h ▸ hfirst)
    have hnotBrace : first ≠ '\x7b' := by
      rintro rfl
      rw [scan_of_brace hfirst] at hhead
      cases hhead
      exact hc rfl
    simp [hnotAt, hsemi, hnotBrace, hclose]

/-- A statement blames its own characters, or what its block blames. -/
theorem statement_blames {k q : Nat} {block : Nat → Except ParseError Node} (hbegins : BeginsAt d src k q)
    (hblock : ∀ brace, scan d src q = .ok (brace, some '\x7b') → Blames (Faulted d src) (block brace)) :
    Blames (Faulted d src) (statement d src block q) := by
  rw [statement_eq_bind]
  refine (scanFrom_blames 0 q).faulted.bind fun found hhead => ?_
  obtain ⟨stop, c⟩ := found
  dsimp only
  have hnode (nodeStop : Nat) (hc : c ≠ some '\x7b') :
      Blames (Faulted d src) (headNode src q (trimEnd src q stop) nodeStop none) := by
    unfold headNode
    split
    · exact atRule_blames hbegins ‹_› _ _ _
    · exact declaration_blames hbegins hhead hc ‹_› _
  split
  · rename_i hc
    refine (hblock stop (hc ▸ hhead)).bind fun b _ => Blames.map ?_
    unfold headNode
    split
    · exact atRule_blames hbegins ‹_› _ _ _
    · exact rule_blames _ _ _ _
  · rename_i hc
    split
    · exact (hnode _ hc).map
    · exact (hnode _ hc).map

/-- **What statements blame**, from a place with `k` blocks open, by induction along the text. -/
theorem statements_blames {depth : Nat} (hblock : ∀ {k q brace : Nat}, BeginsAt d src k q →
      scan d src q = .ok (brace, some '\x7b') → Blames (Faulted d src) (blockAt d src depth brace))
    {opening : Option Nat} {k pos : Nat} (harrives : Arrives d src k pos) (hnone : opening = none → k = 0)
    (hopen : ∀ brace ∈ opening, ∀ p stop, Arrives d src k p → skipTrivia d src p = .ok stop → src[stop]? = none →
      Cause d src ⟨brace, .unclosedBlock⟩) :
    Blames (Faulted d src) (statements d src (blockAt d src depth) opening pos) := by
  induction hleft : src.size - pos using Nat.strongRecOn generalizing pos with
  | ind left ih =>
  rw [statements_eq_bind]
  refine (skipTrivia_blames pos).faulted.bind fun start hskip => ?_
  have hbounds := skipTrivia_bounds hskip
  split
  · -- the text ends
    rename_i hend
    cases opening with
    | none => exact .ok _
    | some brace => exact .error (.inr (hopen brace rfl pos start harrives hskip hend))
  · rename_i c hc
    have hlt := (Array.getElem?_eq_some_iff.1 hc).1
    split
    · rename_i hclose
      subst hclose
      split
      · exact .ok _
      · rename_i hout
        have hk := hnone (by simpa using hout)
        subst hk
        exact .error (.inr (.unexpectedBrace harrives hskip hc))
    · rename_i hclose
      split
      · rename_i hsemi
        subst hsemi
        exact ih _ (by omega) (harrives.semicolon hskip hc) rfl
      · rename_i hsemi
        have hbegins : BeginsAt d src k start := ⟨⟨pos, harrives, hskip⟩, c, hc, hclose, hsemi⟩
        refine (statement_blames hbegins fun brace => hblock hbegins).bind fun found hstatement => ?_
        obtain ⟨n, resume⟩ := found
        dsimp only
        split
        · exact (ih _ (by omega) (harrives.of_statement hskip hbegins.starts hstatement) rfl).map
        · exact .ok _

/-- **What a block blames**, by induction on the depth: a statement inside, or its own brace. -/
theorem blockAt_blames (depth : Nat) {k q brace : Nat} (hbegins : BeginsAt d src k q)
    (hhead : scan d src q = .ok (brace, some '\x7b')) : Blames (Faulted d src) (blockAt d src depth brace) := by
  induction depth generalizing k q brace with
  | zero => exact .error (.inl rfl)
  | succ depth ih =>
    obtain ⟨p, harrives, hskip⟩ := hbegins.arrives
    have hchar := (hbegins.starts.scan_bounds hhead).2.2
    rw [blockAt_eq_bind]
    refine Blames.bind (statements_blames ih (harrives.opened hskip hbegins.starts hhead) ?_ ?_) fun _ _ => .ok _
    · intro hnone
      cases hnone
    · intro _ hmem _ _ hlast hskipped hend
      rw [← Option.mem_some_iff.1 hmem]
      exact .unclosedBlock hbegins hhead hchar hlast hskipped hend

/-- **A fault of a stylesheet is reported at its cause**: a place inside the text, where what was not closed
opens, a brace closes that no block has opened, an at-rule without a name begins, or a statement without a
colon. Reporting it inside the text does not move it. -/
theorem parse_points_at_cause {t : Source} {e : ParseError} (h : parse d t.chars = .error e) :
    (Unparsed.inText t e).offset = e.offset ∧
      (e.fault ≠ .nestedTooDeeply → e.offset < t.size ∧ Cause d t.chars e) := by
  rw [parse_eq_bind] at h
  have hblames : Blames (Faulted d t.chars) (statements d t.chars (blockAt d t.chars nestingLimit) none 0) :=
    statements_blames (blockAt_blames nestingLimit) .start (fun _ => rfl)
      fun _ hmem => absurd hmem (Option.not_mem_none _)
  have hfaulted : Faulted d t.chars e := hblames.bind (fun _ _ => .ok _) e h
  rcases hfaulted with rfl | hcause
  · exact ⟨Nat.min_eq_left (Nat.zero_le _), fun hdepth => absurd rfl hdepth⟩
  · exact ⟨Nat.min_eq_left (Nat.le_of_lt hcause.lt_size), fun _ => ⟨hcause.lt_size, hcause⟩⟩

/-- The second statement of a block has no colon. -/
theorem parse_points_at_cause_colon :
    parse .css (Source.ofString "a \x7b b:c; d; \x7d").chars = .error ⟨9, .missingColon⟩ ∧
      (Unparsed.inText (.ofString "a \x7b b:c; d; \x7d") ⟨9, .missingColon⟩).offset = 9 ∧
      9 < (Source.ofString "a \x7b b:c; d; \x7d").size ∧
      Cause .css (Source.ofString "a \x7b b:c; d; \x7d").chars ⟨9, .missingColon⟩ := by
  have hfault : parse .css (Source.ofString "a \x7b b:c; d; \x7d").chars = .error ⟨9, .missingColon⟩ :=
    map_error (f := fun _ => ()) (by decide +kernel)
  obtain ⟨hoffset, hcause⟩ := parse_points_at_cause hfault
  exact ⟨hfault, hoffset, hcause (by decide)⟩

end HouseStyle.Stylesheet
