import HouseStyle.Proofs.Stylesheet.Kinds
import HouseStyle.Proofs.Stylesheet.Returns
import HouseStyle.Proofs.Stylesheet.ShortValues

/-!
# Stylesheets with either line ending

The steps of the parser meet in the same places of two texts that differ by carriage returns before line
feeds. Their nodes are the same but for the facts that are spelled with such a return.

* `Stands`: a node, and the one that stands where it went.
* `parse_widened`: both trees, or both faults, by the steps of the parser.
* `SameReading`, `parse_withReturns`: **a text whose lines end in carriage return and line feed is read like
  the one whose lines end in line feeds**, unless one of its strings goes on over the end of a line.
* `parse_crossing`: with such a string it is not.
-/

namespace HouseStyle.Stylesheet

open Cursor (skipWhile le_skipWhile)
open Node (bareList sketchList)

variable {d : Dialect} {src src' : Array Char} {place : Nat → Nat}

/-! ### Trees with other places -/

/-- The same tree but for its facts, with the ends of its spans where they went. -/
def Stands (place : Nat → Nat) (n n' : Node) : Prop :=
  n'.bare = n.bare.sketch place

/-- The same trees but for their facts, with the ends of their spans where they went. -/
def StandAll (place : Nat → Nat) (ns ns' : List Node) : Prop :=
  bareList ns' = sketchList place (bareList ns)

theorem Form.sketch_bare (form : Form) : form.bare.sketch = form.bare := by
  cases form <;> rfl

theorem Stands.nodeOf (hplace : Monotone place) {form form' : Form} (hform : form'.bare = form.bare)
    {start stop : Nat} {ns ns' : List Node} (hns : StandAll place ns ns') :
    Stands place (nodeOf form start stop ns) (nodeOf form' (place start) (place stop) ns') := by
  have hbare {form : Form} {start stop : Nat} {ns : List Node} :
      (Stylesheet.nodeOf form start stop ns).bare = Stylesheet.nodeOf form.bare start stop (bareList ns) := rfl
  rw [Stands, hbare, hbare, sketch_nodeOf hplace, Form.sketch_bare, hform, hns]
  rfl

theorem Stands.stop (hplace : Monotone place) {n n' : Node} (h : Stands place n n') :
    n'.span.stop = place n.span.stop := by
  have hspan := congrArg Node.span h
  rw [Node.bare_span, Node.sketch_span, Node.bare_span] at hspan
  rw [hspan, Span.between_stop]
  exact Nat.max_eq_right (hplace n.span.start_le_stop)

theorem StandAll.cons {n n' : Node} {ns ns' : List Node} (h : Stands place n n') (hs : StandAll place ns ns') :
    StandAll place (n :: ns) (n' :: ns') := by
  rw [StandAll, bareList, bareList, sketchList, h, hs]

theorem StandAll.append {ns ns' ms ms' : List Node} (h : StandAll place ns ns') (hs : StandAll place ms ms') :
    StandAll place (ns ++ ms) (ns' ++ ms') := by
  rw [StandAll, Node.bareList_append, Node.bareList_append, Node.sketchList_append, h, hs]

/-! ### Readings as steps -/

theorem selectorBetween_eq_map (src : Array Char) (start stop : Nat) : selectorBetween src start stop =
    if skipWhile isStyleBlank src stop start = trimEnd src (skipWhile isStyleBlank src stop start) stop then .ok []
    else
      (simpleSelectors src (trimEnd src (skipWhile isStyleBlank src stop start) stop)
        (skipWhile isStyleBlank src stop start)).map fun parts =>
          [nodeOf (.selector (Cursor.text src (skipWhile isStyleBlank src stop start)
              (trimEnd src (skipWhile isStyleBlank src stop start) stop)))
            (skipWhile isStyleBlank src stop start)
            (trimEnd src (skipWhile isStyleBlank src stop start) stop) parts] := by
  simp only [selectorBetween]
  split
  · rfl
  · split <;> rename_i heq <;> rw [heq] <;> rfl

theorem selectorList_eq_map (src : Array Char) (start stop : Nat) : selectorList src start stop =
    (selectorsFrom src stop start 0 start).map (nodeOf .selectorList start stop) := by
  unfold selectorList
  split <;> rename_i heq <;> rw [heq] <;> rfl

/-- The node of a declaration whose colon is known. -/
def declarationAt (src : Array Char) (start bodyStop stop colon : Nat) : Node :=
  nodeOf (.declaration (lower (Cursor.text src start (trimEnd src start colon)))
      (Cursor.text src (skipWhile isStyleBlank src bodyStop (colon + 1)) bodyStop)
      (occursIn importantMark (lowerChars
        (Cursor.text src (skipWhile isStyleBlank src bodyStop (colon + 1)) bodyStop).toList))) start stop
    [nodeOf (.property (Cursor.text src start (trimEnd src start colon))) start (trimEnd src start colon) [],
      nodeOf (.value (Cursor.text src (skipWhile isStyleBlank src bodyStop (colon + 1)) bodyStop))
        (skipWhile isStyleBlank src bodyStop (colon + 1)) bodyStop []]

theorem declaration_eq_bind (src : Array Char) (start bodyStop stop : Nat) : declaration src start bodyStop stop =
    (findColon? src bodyStop start).bind fun
      | none => .error ⟨start, .missingColon⟩
      | some colon => .ok (declarationAt src start bodyStop stop colon) := by
  unfold declaration
  split <;> rename_i heq <;> rw [heq] <;> rfl

theorem rule_eq_map (src : Array Char) (start headStop stop : Nat) (block : Node) :
    rule src start headStop stop block = (selectorList src start headStop).map fun selectors =>
      nodeOf (.rule (Cursor.text src start headStop)) start stop [selectors, block] := by
  unfold rule
  split <;> rename_i heq <;> rw [heq] <;> rfl

theorem statement_eq_bind (blockAt : Nat → Except ParseError Node) (start : Nat) :
    statement d src blockAt start = (scan d src start).bind fun (stop, c) =>
      if c = some '\x7b' then
        (blockAt stop).bind fun block =>
          (headNode src start (trimEnd src start stop) block.span.stop (some block)).map (·, block.span.stop)
      else if c = some ';' then
        (headNode src start (trimEnd src start stop) (stop + 1) none).map (·, stop + 1)
      else (headNode src start (trimEnd src start stop) (trimEnd src start stop) none).map (·, stop) := by
  cases hscan : scan d src start with
  | error e =>
    simp only [statement, hscan]
    rfl
  | ok found => exact statement_unfold hscan

theorem statements_eq_bind (blockAt : Nat → Except ParseError Node) (opening : Option Nat) (pos : Nat) :
    statements d src blockAt opening pos = (skipTrivia d src pos).bind fun start =>
      match src[start]? with
      | none => opening.elim (.ok ([], start)) fun brace => .error ⟨brace, .unclosedBlock⟩
      | some c =>
        if c = '}' then if opening.isSome then .ok ([], start) else .error ⟨start, .unexpectedBrace⟩
        else if c = ';' then statements d src blockAt opening (start + 1)
        else (statement d src blockAt start).bind fun (node, resume) =>
          if start < resume then
            (statements d src blockAt opening resume).map fun (rest, stop) => (node :: rest, stop)
          else .ok ([node], resume) := by
  cases hskip : skipTrivia d src pos with
  | error e => exact statements_of_error hskip
  | ok start =>
    rw [Except.bind]
    cases hchar : src[start]? with
    | none => exact statements_past_end hskip (Array.getElem?_eq_none_iff.1 hchar)
    | some c => exact statements_of_char hskip hchar

theorem blockAt_eq_bind (depth opening : Nat) : blockAt d src (depth + 1) opening =
    (statements d src (blockAt d src depth) (some opening) (opening + 1)).bind fun (children, close) =>
      .ok (nodeOf .block opening (close + 1) children) := by
  rw [blockAt]
  split <;> rename_i heq <;> rw [heq] <;> rfl

theorem parse_eq_bind : parse d src =
    (statements d src (blockAt d src nestingLimit) none 0).bind fun (children, _) =>
      .ok (nodeOf .stylesheet 0 src.size children) := by
  unfold parse
  split <;> rename_i heq <;> rw [heq] <;> rfl

section

variable {k : Nat} {c : Char}

theorem simpleSelectors_of_blank {stop : Nat} (hk : k < stop) (hc : src[k]? = some c) (h : isStyleBlank c = true) :
    simpleSelectors src stop k = simpleSelectors src stop (k + 1) := by
  have hmark : ¬ (c = '#' ∨ c = '.') := fun hx =>
    hx.elim (ne_of_blank h (by decide)) (ne_of_blank h (by decide))
  rw [simpleSelectors_of_char hk hc, quotedEnd?_of_blank hc h]
  simp only [Except.bind, if_neg (ne_of_blank h (show isStyleBlank '[' = false by decide)), hmark, false_and, if_false]

theorem selectorsFrom_of_blank {stop segment depth : Nat} (hk : k < stop) (hc : src[k]? = some c)
    (h : isStyleBlank c = true) : selectorsFrom src stop segment depth k =
      selectorsFrom src stop segment depth (k + 1) := by
  obtain ⟨hopens, hcloses⟩ := not_group_of_blank h
  have hcomma : c ≠ ',' := ne_of_blank h (by decide)
  rw [selectorsFrom_of_char hk hc, quotedEnd?_of_blank hc h]
  simp only [Except.bind, hopens, hcloses, hcomma, Bool.false_eq_true, false_and, if_false]

end

section

variable (h : Widens src src' place)

include h

/-! ### Selectors -/

theorem bracketEnd_widened {stop : Nat} (hstop : stop ≤ src.size) (pos : Nat) :
    bracketEnd src' (place stop) (place pos) = place (bracketEnd src stop pos) := by
  unfold bracketEnd
  rw [find_widened h (by decide) hstop]
  simp only [h.lt_iff]
  split
  · have hclose := (@find_stops src ']' stop pos).resolve_left (by omega)
    rw [h.succ_of_char hclose (by decide)]
  · rfl

theorem startsName_widened (stop pos : Nat) :
    startsName src' (place stop) (place pos) = startsName src stop pos := by
  have hfollow := h.any (f := fun f => isLetter f || f == '-' || f == '_') (by decide) (pos + 1)
  unfold startsName
  simp only [h.lt_iff]
  cases hc : src[pos]? with
  | none => rw [h.char_none hc]
  | some c =>
    by_cases hfeed : c = '\n'
    · subst hfeed
      rw [(h.feed _ hc).1]
      rfl
    · obtain ⟨hchar, hsucc⟩ := h.kept _ _ hc hfeed
      simp only [hchar, ← hsucc, h.lt_iff, hfollow]

theorem simpleSelector_stands (mark : Char) (pos stop : Nat) :
    Stands place (simpleSelector src mark pos stop) (simpleSelector src' mark (place pos) (place stop)) := by
  unfold simpleSelector
  refine .nodeOf h.strictMono.monotone ?_ rfl
  by_cases hmark : mark = '#'
  · rw [if_pos hmark, if_pos hmark]
    rfl
  · rw [if_neg hmark, if_neg hmark]
    rfl

/-- By induction on what is left of the selector. -/
theorem simpleSelectors_widened {stop : Nat} (hstop : stop ≤ src.size) (pos : Nat) :
    Follows src place (StandAll place) (simpleSelectors src stop pos)
      (simpleSelectors src' (place stop) (place pos)) := by
  induction hleft : stop - pos using Nat.strongRecOn generalizing pos with
  | ind left ih =>
  by_cases hlt : pos < stop
  · have hchar := Array.getElem?_eq_getElem (Nat.lt_of_lt_of_le hlt hstop)
    generalize src[pos] = c at hchar
    by_cases hfeed : c = '\n'
    · subst hfeed
      have hnext : place (pos + 1) ≤ place stop := h.le_iff.2 hlt
      rw [h.pass hchar fun k c hk => simpleSelectors_of_blank (by omega),
        simpleSelectors_of_blank hlt hchar (by decide)]
      exact ih _ (by omega) (pos + 1) rfl
    · obtain ⟨hchar', hsucc⟩ := h.kept _ _ hchar hfeed
      rw [simpleSelectors_of_char hlt hchar, simpleSelectors_of_char (h.lt_iff.2 hlt) hchar']
      refine (quotedEnd?_widened h pos).bind ?_
      rintro (_ | next) _ hquoted rfl
      · simp only [Option.map_none, ← hsucc, bracketEnd_widened h hstop, startsName_widened h,
          skipWhile_widened h (p := isNameChar) (by decide)]
        split
        · have := @lt_bracketEnd src stop pos hlt
          exact ih _ (by omega) _ rfl
        · split
          · have := @le_skipWhile isNameChar src stop (pos + 1)
            exact (ih _ (by omega) _ rfl).map fun _ _ => .cons (simpleSelector_stands h c pos _)
          · exact ih _ (by omega) _ rfl
      · have := quotedEnd?_bounds hquoted
        exact ih _ (by omega) next rfl
  · rw [simpleSelectors_of_le (Nat.le_of_not_lt hlt), simpleSelectors_of_le (h.le_iff.2 (Nat.le_of_not_lt hlt))]
    exact .ok rfl

theorem selectorBetween_widened {stop : Nat} (hstop : stop ≤ src.size) (start : Nat) :
    Follows src place (StandAll place) (selectorBetween src start stop)
      (selectorBetween src' (place start) (place stop)) := by
  rw [selectorBetween_eq_map, selectorBetween_eq_map, skipWhile_widened h (by decide), trimEnd_widened h]
  generalize skipWhile isStyleBlank src stop start = first
  have hparts := simpleSelectors_widened h (Nat.le_trans (@trimEnd_le src first stop) hstop) first
  by_cases hempty : first = trimEnd src first stop
  · rw [if_pos hempty, if_pos (congrArg place hempty)]
    exact .ok rfl
  · rw [if_neg hempty, if_neg fun heq => hempty (h.strictMono.injective heq)]
    exact hparts.map fun _ _ hns => .cons (.nodeOf h.strictMono.monotone rfl hns) rfl

/-- By induction on what is left of the head. -/
theorem selectorsFrom_widened {stop : Nat} (hstop : stop ≤ src.size) (segment depth pos : Nat) :
    Follows src place (StandAll place) (selectorsFrom src stop segment depth pos)
      (selectorsFrom src' (place stop) (place segment) depth (place pos)) := by
  induction hleft : stop - pos using Nat.strongRecOn generalizing segment depth pos with
  | ind left ih =>
  by_cases hlt : pos < stop
  · have hchar := Array.getElem?_eq_getElem (Nat.lt_of_lt_of_le hlt hstop)
    generalize src[pos] = c at hchar
    by_cases hfeed : c = '\n'
    · subst hfeed
      have hnext : place (pos + 1) ≤ place stop := h.le_iff.2 hlt
      rw [h.pass hchar fun k c hk => selectorsFrom_of_blank (by omega),
        selectorsFrom_of_blank hlt hchar (by decide)]
      exact ih _ (by omega) segment depth (pos + 1) rfl
    · obtain ⟨hchar', hsucc⟩ := h.kept _ _ hchar hfeed
      rw [selectorsFrom_of_char hlt hchar, selectorsFrom_of_char (h.lt_iff.2 hlt) hchar']
      refine (quotedEnd?_widened h pos).bind ?_
      rintro (_ | next) _ hquoted rfl
      · simp only [Option.map_none, ← hsucc]
        split
        · exact ih _ (by omega) segment (depth + 1) (pos + 1) rfl
        · split
          · exact ih _ (by omega) segment (depth - 1) (pos + 1) rfl
          · split
            · refine (selectorBetween_widened h (by omega) segment).bind fun here here' _ hhere => ?_
              exact (ih _ (by omega) (pos + 1) 0 (pos + 1) rfl).map fun _ _ => hhere.append
            · exact ih _ (by omega) segment depth (pos + 1) rfl
      · have := quotedEnd?_bounds hquoted
        exact ih _ (by omega) segment depth next rfl
  · rw [selectorsFrom_of_le (Nat.le_of_not_lt hlt), selectorsFrom_of_le (h.le_iff.2 (Nat.le_of_not_lt hlt))]
    exact selectorBetween_widened h hstop segment

theorem selectorList_widened {stop : Nat} (hstop : stop ≤ src.size) (start : Nat) :
    Follows src place (Stands place) (selectorList src start stop) (selectorList src' (place start) (place stop)) := by
  rw [selectorList_eq_map, selectorList_eq_map]
  exact (selectorsFrom_widened h hstop start 0 start).map fun _ _ => .nodeOf h.strictMono.monotone rfl

/-! ### Heads -/

theorem atRule_widened {start : Nat} (hat : src[start]? = some '@') (headStop stop : Nat) {block block' : Option Node}
    (hblock : Option.Rel (Stands place) block block') :
    Follows src place (Stands place) (atRule src start headStop stop block)
      (atRule src' (place start) (place headStop) (place stop) block') := by
  have hsucc := h.succ_of_char hat (by decide)
  have hname {nameStop : Nat} : lower (Cursor.text src' (place (start + 1)) (place nameStop)) = "" ↔
      lower (Cursor.text src (start + 1) nameStop) = "" := by
    rw [lower_text_eq_empty, lower_text_eq_empty, ← h.size, min_le_iff, min_le_iff, h.le_iff, h.le_iff]
  have hchildren : StandAll place block.toList block'.toList := by
    cases hblock with
    | none => rfl
    | some hstands => exact .cons hstands rfl
  simp only [atRule, ← hsucc, skipWhile_widened h (p := isNameChar) (by decide), hname]
  split
  · exact .error ⟨start, .missingAtRuleName⟩
  · exact .ok (.nodeOf h.strictMono.monotone rfl hchildren)

theorem declaration_widened {bodyStop : Nat} (hstop : bodyStop ≤ src.size) (start stop : Nat) :
    Follows src place (Stands place) (declaration src start bodyStop stop)
      (declaration src' (place start) (place bodyStop) (place stop)) := by
  have hmono := h.strictMono.monotone
  rw [declaration_eq_bind, declaration_eq_bind]
  refine (findColon?_widened h hstop start).bind ?_
  rintro (_ | colon) _ hfound rfl
  · exact .error ⟨start, .missingColon⟩
  · have hcolon := (findColon?_bounds hfound).2.2
    simp only [Option.map_some, declarationAt, trimEnd_widened h, ← h.succ_of_char hcolon (by decide),
      skipWhile_widened h (p := isStyleBlank) (by decide)]
    exact .ok (.nodeOf hmono rfl (.cons (.nodeOf hmono rfl rfl) (.cons (.nodeOf hmono rfl rfl) rfl)))

theorem rule_widened {headStop : Nat} (hstop : headStop ≤ src.size) (start stop : Nat) {block block' : Node}
    (hblock : Stands place block block') :
    Follows src place (Stands place) (rule src start headStop stop block)
      (rule src' (place start) (place headStop) (place stop) block') := by
  rw [rule_eq_map, rule_eq_map]
  exact (selectorList_widened h hstop start).map fun _ _ hlist =>
    .nodeOf h.strictMono.monotone rfl (.cons hlist (.cons hblock rfl))

theorem headNode_widened {headStop : Nat} (hstop : headStop ≤ src.size) (start stop : Nat) {block block' : Option Node}
    (hblock : Option.Rel (Stands place) block block') :
    Follows src place (Stands place) (headNode src start headStop stop block)
      (headNode src' (place start) (place headStop) (place stop) block') := by
  unfold headNode
  by_cases hat : src[start]? = some '@'
  · rw [if_pos hat, if_pos ((h.char_iff (by decide)).2 hat)]
    exact atRule_widened h hat headStop stop hblock
  · rw [if_neg hat, if_neg (mt (h.char_iff (by decide)).1 hat)]
    cases hblock with
    | none => exact declaration_widened h hstop start stop
    | some hstands => exact rule_widened h hstop start stop hstands

/-! ### Statements -/

theorem statement_widened {blockAt blockAt' : Nat → Except ParseError Node}
    (hblock : ∀ p, src[p]? = some '\x7b' → Follows src place (Stands place) (blockAt p) (blockAt' (place p)))
    {start : Nat} (hstart : start ≤ src.size) :
    Follows src place (fun a b => Stands place a.1 b.1 ∧ b.2 = place a.2) (statement d src blockAt start)
      (statement d src' blockAt' (place start)) := by
  have hmono := h.strictMono.monotone
  rw [statement_eq_bind, statement_eq_bind]
  refine (scan_widened h start).bind ?_
  rintro ⟨stop, c⟩ _ hscan rfl
  obtain ⟨-, hle, hchar⟩ := scanFrom_bounds hstart hscan
  have htrim : trimEnd src start stop ≤ src.size := Nat.le_trans trimEnd_le hle
  simp only [trimEnd_widened h]
  split
  · rename_i hbrace
    refine (hblock stop (hchar.trans hbrace)).bind fun block block' _ hstands => ?_
    rw [hstands.stop hmono]
    exact (headNode_widened h htrim start _ (.some hstands)).map fun _ _ hnode => ⟨hnode, rfl⟩
  · split
    · rename_i hsemi
      rw [← h.succ_of_char (hchar.trans hsemi) (by decide)]
      exact (headNode_widened h htrim start _ .none).map fun _ _ hnode => ⟨hnode, rfl⟩
    · exact (headNode_widened h htrim start _ .none).map fun _ _ hnode => ⟨hnode, rfl⟩

/-- By induction on what is left of the text. -/
theorem statements_widened {blockAt blockAt' : Nat → Except ParseError Node}
    (hblock : ∀ p, src[p]? = some '\x7b' → Follows src place (Stands place) (blockAt p) (blockAt' (place p)))
    (opening : Option Nat) (pos : Nat) :
    Follows src place (fun a b => StandAll place a.1 b.1 ∧ b.2 = place a.2) (statements d src blockAt opening pos)
      (statements d src' blockAt' (opening.map place) (place pos)) := by
  induction hleft : src.size - pos using Nat.strongRecOn generalizing pos with
  | ind left ih =>
  rw [statements_eq_bind, statements_eq_bind]
  refine (skipTrivia_widened h pos).bind ?_
  rintro start _ hskip rfl
  have hle := (skipTrivia_bounds hskip).1
  cases hchar : src[start]? with
  | none =>
    rw [h.char_none hchar]
    cases opening with
    | none => exact .ok ⟨rfl, rfl⟩
    | some brace => exact .error ⟨brace, .unclosedBlock⟩
  | some c =>
    have hlt := (Array.getElem?_eq_some_iff.1 hchar).1
    obtain ⟨c', hchar'⟩ : ∃ c', src'[place start]? = some c' := by
      by_cases hfeed : c = '\n'
      · subst hfeed
        exact ⟨_, (h.feed _ hchar).1⟩
      · exact ⟨c, (h.kept _ _ hchar hfeed).1⟩
    have hmark {x : Char} (hx : isStyleBlank x = false) : c' = x ↔ c = x := by
      have hiff := h.char_iff (p := start) hx
      rwa [hchar', hchar, Option.some.injEq, Option.some.injEq] at hiff
    have hbrace : c' = '}' ↔ c = '}' := hmark (by decide)
    have hsemi : c' = ';' ↔ c = ';' := hmark (by decide)
    rw [hchar']
    simp only [hbrace, hsemi, Option.isSome_map]
    split
    · split
      · exact .ok ⟨rfl, rfl⟩
      · exact .error ⟨start, .unexpectedBrace⟩
    · split
      · rename_i hc
        subst hc
        rw [← h.succ_of_char hchar (by decide)]
        exact ih _ (by omega) (start + 1) rfl
      · refine (statement_widened h hblock hlt.le).bind ?_
        rintro ⟨node, resume⟩ ⟨node', _⟩ - ⟨hnode, rfl⟩
        simp only [h.lt_iff]
        split
        · exact (ih _ (by omega) resume rfl).map fun _ _ hrest => ⟨.cons hnode hrest.1, hrest.2⟩
        · exact .ok ⟨.cons hnode rfl, rfl⟩

/-- By induction on the depth of the blocks. -/
theorem blockAt_widened (depth : Nat) : ∀ opening, src[opening]? = some '\x7b' →
    Follows src place (Stands place) (blockAt d src depth opening) (blockAt d src' depth (place opening)) := by
  induction depth with
  | zero =>
    intro opening _
    have hfault : Follows src place (Stands place) _ _ := .error ⟨0, .nestedTooDeeply⟩
    rwa [h.zero] at hfault
  | succ depth ih =>
    intro opening hopening
    have hlt := (Array.getElem?_eq_some_iff.1 hopening).1
    rw [blockAt_eq_bind, blockAt_eq_bind, ← h.succ_of_char hopening (by decide)]
    refine (statements_widened h ih (some opening) (opening + 1)).bind ?_
    rintro ⟨children, close⟩ ⟨children', _⟩ hstatements ⟨hchildren, rfl⟩
    obtain ⟨-, -, -, hclose⟩ := Reads.of_statements _ _ _ _ _ hstatements hlt
    simp only [← h.succ_of_char (show src[close]? = some '}' from hclose) (by decide)]
    exact .ok (.nodeOf h.strictMono.monotone rfl hchildren)

/-- **A text with carriage returns is read like the text**, unless one of its strings crosses a line
feed. -/
theorem parse_widened : Follows src place (Stands place) (parse d src) (parse d src') := by
  rw [parse_eq_bind, parse_eq_bind]
  have hall := statements_widened (d := d) h (blockAt_widened (d := d) h nestingLimit) none 0
  rw [h.zero] at hall
  refine hall.bind ?_
  rintro ⟨children, _⟩ ⟨children', _⟩ - ⟨hchildren, -⟩
  have htree : Stands place (nodeOf .stylesheet 0 src.size children)
      (nodeOf .stylesheet (place 0) (place src.size) children') := .nodeOf h.strictMono.monotone rfl hchildren
  rw [h.zero, h.size] at htree
  exact .ok htree

end

/-! ### What a tree tells -/

theorem Stands.kinds_eq {n n' : Node} (h : Stands place n n') : n'.kinds = n.kinds := by
  rw [← Node.kinds_bare, h, Node.kinds_sketch, Node.kinds_bare]

theorem Stands.spans_eq {n n' : Node} (h : Stands place n n') :
    n'.spans = n.spans.map fun s => .between (place s.start) (place s.stop) := by
  rw [← Node.spans_bare, h, Node.spans_sketch, Node.spans_bare]

/-- **Two readings that agree but for the places**: trees with the same kinds at the same depths, whose
spans went where the places went, or the same fault where its place went. -/
inductive SameReading (place : Nat → Nat) : Except ParseError Node → Except ParseError Node → Prop
  | tree {n n' : Node} (kinds : n'.kinds = n.kinds)
    (spans : n'.spans = n.spans.map fun s => .between (place s.start) (place s.stop)) :
    SameReading place (.ok n) (.ok n')
  | fault {e e' : ParseError} (fault : e'.fault = e.fault) (offset : e'.offset = place e.offset) :
    SameReading place (.error e) (.error e')

theorem Follows.sameReading {x x' : Except ParseError Node} (h : Follows src place (Stands place) x x') :
    SameReading place x x' ∨ ∃ pos, Crosses src pos ∧ x' = .error ⟨place pos, .unterminatedString⟩ := by
  cases h with
  | ok related => exact .inl (.tree related.kinds_eq related.spans_eq)
  | error e => exact .inl (.fault rfl rfl)
  | cut crosses => exact .inr ⟨_, crosses, rfl⟩

/-- **A stylesheet is read alike with either line ending**: where each line feed is given a carriage
return, the text is accepted if it was, with the same kinds at the same depths, and is refused with the
same message otherwise; unless one of its strings goes on over a line feed, which is then refused as
unterminated. -/
theorem parse_withReturns (d : Dialect) (src : Array Char) :
    SameReading (placeWithReturns src) (parse d src) (parse d (withReturns src)) ∨
      ∃ pos, Crosses src pos ∧
        parse d (withReturns src) = .error ⟨placeWithReturns src pos, .unterminatedString⟩ :=
  (parse_widened (widens_withReturns src)).sameReading

/-- A value that goes on over a line feed. -/
def crossingValue : Array Char :=
  "a\x7bb:\"x\\\ny\"\x7d".toList.toArray

/-- **A string that goes on over a line feed is unterminated with a carriage return.** -/
theorem parse_crossing :
    '\r' ∉ crossingValue ∧ (parse .css crossingValue).toOption.isSome = true ∧
      parse .css (withReturns crossingValue) = .error ⟨4, .unterminatedString⟩ ∧
      ¬ SameReading (placeWithReturns crossingValue) (parse .css crossingValue)
        (parse .css (withReturns crossingValue)) := by
  have haccepted : (parse .css crossingValue).toOption.isSome = true := by decide +kernel
  have hrefused : parse .css (withReturns crossingValue) = .error ⟨4, .unterminatedString⟩ :=
    map_error (f := fun _ => ()) (by decide +kernel)
  refine ⟨by decide +kernel, haccepted, hrefused, ?_⟩
  obtain ⟨tree, htree⟩ := Option.isSome_iff_exists.1 haccepted
  rw [hrefused, toOption_eq_some.1 htree]
  nofun

end HouseStyle.Stylesheet
