import HouseStyle.Proofs.Stylesheet.Closing
import HouseStyle.Proofs.Stylesheet.Opacity
import HouseStyle.Proofs.Text.Replacement
import Mathlib.Logic.Relation

/-!
# A stylesheet in pieces

A stylesheet can be passed over from its start to its end, whatever statements it holds: strings, comments
and interpolations as a whole, and other characters one by one.

* `next?`: one step, from so many open parentheses and brackets at a place. `Visits`: more of them.
* `visits_startsFrom`: this comes to the start of every statement.
* `Visits.not_inside`: it comes to no place inside of what is passed over as a whole.
* `piecesFrom`: the comments, and the text between them but for white space behind commas outside of
  parentheses and brackets.
* `applyBackwards_pieces`: edits that put other white space behind such commas leave the pieces as they are.
* `visits_of_applyBackwards`: edits that break lines behind commas do so only behind such commas.
-/

namespace HouseStyle.Stylesheet

variable {d : Dialect} {src src' pre : Array Char} {p q r : Nat × Nat} {pos k n : Nat} {e : Edit}

/-! ### Passing over a text -/

/-- How many parentheses and brackets are open behind a character. -/
def depthAfter (depth : Nat) (c : Char) : Nat :=
  if opensGroup c then depth + 1 else if closesGroup c then depth - 1 else depth

/-- The next place that is come to, with the number of open parentheses and brackets before it. -/
def next? (d : Dialect) (src : Array Char) (p : Nat × Nat) : Option (Nat × Nat) :=
  match opaqueEnd? d src p.1 p.2 with
  | .error _ => none
  | .ok (some next) => some (p.1, next)
  | .ok none => src[p.2]?.map fun c => (depthAfter p.1 c, p.2 + 1)

theorem next?_bounds (h : next? d src p = some q) : p.2 < q.2 ∧ q.2 ≤ src.size := by
  unfold next? at h
  split at h
  · cases h
  · rename_i hwhole
    cases h
    exact opaqueEnd?_bounds hwhole
  · obtain ⟨c, hc, rfl⟩ := Option.map_eq_some_iff.1 h
    exact ⟨Nat.lt_succ_self _, (Array.getElem?_eq_some_iff.1 hc).1⟩

theorem next?_of_char {c : Char} (hwhole : opaqueEnd? d src p.1 p.2 = .ok none) (hc : src[p.2]? = some c) :
    next? d src p = some (depthAfter p.1 c, p.2 + 1) := by
  rw [next?, hwhole, hc]
  rfl

/-- The characters that stand between statements and selectors, outside of white space. -/
def separators : List Char :=
  [',', ';', '\x7b', '\x7d']

theorem next?_of_separator {c : Char} (hc : src[p.2]? = some c) (hsep : c ∈ separators) :
    next? d src p = some (p.1, p.2 + 1) := by
  have hplain : isQuote c = false ∧ c ≠ '#' ∧ c ≠ '/' ∧ opensGroup c = false ∧ closesGroup c = false := by
    simp only [separators, List.mem_cons, List.not_mem_nil, or_false] at hsep
    rcases hsep with rfl | rfl | rfl | rfl <;> decide
  obtain ⟨hquote, hhash, hslash, hopens, hcloses⟩ := hplain
  rw [next?_of_char (opaqueEnd?_of_plain hc hquote hhash hslash) hc, depthAfter, hopens, hcloses]
  rfl

theorem depthAfter_blank {c : Char} (hc : isStyleBlank c = true) (depth : Nat) : depthAfter depth c = depth := by
  simp only [isStyleBlank, Bool.or_eq_true, beq_iff_eq] at hc
  rcases hc with (((rfl | rfl) | rfl) | rfl) | rfl <;> rfl

theorem next?_of_blank (hc : src[p.2]?.any isStyleBlank = true) : next? d src p = some (p.1, p.2 + 1) := by
  obtain ⟨c, hchar, hblank⟩ := (Option.any_eq_true ..).1 hc
  rw [next?_of_char (opaqueEnd?_of_blank hchar hblank) hchar, depthAfter_blank hblank]

/-- A step is told by the text up to its end. -/
theorem next?_agree (h : next? d src p = some q) (hagree : Agree src src' 0 0 n) (hq : q.2 < n) :
    next? d src' p = some q := by
  have hlt := (next?_bounds h).1
  obtain ⟨depth, pos⟩ := p
  have hchar := hagree pos (by omega)
  have hsome := fun j hj => @opaqueEnd?_agree d _ _ _ _ _ hagree depth pos j hj
  have hnone := @opaqueEnd?_agree_none d _ _ _ _ _ hagree depth pos (by omega) fun _ => by omega
  simp only [Nat.zero_add] at hchar hsome hnone
  unfold next? at h ⊢
  split at h
  · cases h
  · rename_i next hwhole
    cases h
    rw [hsome next hq hwhole]
  · rename_i hwhole
    rw [hnone hwhole]
    exact hchar ▸ h

/-- A step is told by the text from its start on. -/
theorem next?_shift (depth pos : Nat) : next? d (pre ++ src) (depth, pre.size + pos) =
    (next? d src (depth, pos)).map fun q => (q.1, pre.size + q.2) := by
  unfold next?
  rw [opaqueEnd?_shift]
  cases hwhole : opaqueEnd? d src depth pos with
  | error e => rfl
  | ok stop? =>
    cases stop? with
    | some stop => rfl
    | none =>
      simp only [shifted_ok, Option.map_none, getElem?_shift, Option.map_map]
      rfl

/-- **A place is come to from another one.** -/
def Visits (d : Dialect) (src : Array Char) : Nat × Nat → Nat × Nat → Prop :=
  Relation.ReflTransGen fun p q => next? d src p = some q

theorem Visits.le (h : Visits d src p q) : p.2 ≤ q.2 := by
  induction h with
  | refl => exact Nat.le_refl _
  | tail _ hnext ih => exact Nat.le_trans ih (Nat.le_of_lt (next?_bounds hnext).1)

/-- Of two places that are come to one is come to from the other. -/
theorem Visits.total (h : Visits d src p q) (h' : Visits d src p r) : Visits d src q r ∨ Visits d src r q :=
  Relation.ReflTransGen.total_of_right_unique (fun _ _ _ h h' => Option.some.inj (h.symm.trans h')) h h'

/-- From a place before another one the next place is on the way there. -/
theorem Visits.next_of_lt (h : Visits d src p q) (h' : Visits d src p r) (hlt : q.2 < r.2) :
    ∃ q', next? d src q = some q' ∧ Visits d src q' r := by
  rcases h.total h' with hafter | hbefore
  · rcases Relation.ReflTransGen.cases_head hafter with rfl | ⟨q', hnext, hrest⟩
    · exact absurd hlt (Nat.lt_irrefl _)
    · exact ⟨q', hnext, hrest⟩
  · exact absurd hbefore.le (Nat.not_le.2 hlt)

/-- **What is passed over in one step is not come to.** -/
theorem Visits.not_inside {q' : Nat × Nat} (h : Visits d src p q) (hnext : next? d src q = some q')
    (h' : Visits d src p r) (hlt : q.2 < r.2) : q'.2 ≤ r.2 := by
  obtain ⟨x, hx, hrest⟩ := h.next_of_lt h' hlt
  cases hnext.symm.trans hx
  exact hrest.le

/-- What is come to is told by the text up to there. -/
theorem Visits.agree (h : Visits d src p q) (hagree : Agree src src' 0 0 n) (hq : q.2 < n) :
    Visits d src' p q := by
  induction h with
  | refl => exact .refl
  | tail _ hnext ih =>
    exact (ih (Nat.lt_trans (next?_bounds hnext).1 hq)).tail (next?_agree hnext hagree hq)

/-! ### Statements -/

theorem visits_skipTrivia {start : Nat} (h : skipTrivia d src pos = .ok start) :
    Visits d src (0, pos) (0, start) := by
  fun_induction skipTrivia d src pos with
  | case1 pos hlt hblank ih =>
    refine .head (next?_of_blank ?_) (ih h)
    rw [Array.getElem?_eq_getElem hlt]
    exact hblank
  | case2 => cases h
  | case3 pos hlt hblank next hcomment hb ih =>
    refine .head ?_ (ih h)
    have hslash : src[pos]? = some '/' := by
      by_contra hno
      rw [commentEnd?, if_neg hno] at hcomment
      cases hcomment
    have hwhole : opaqueEnd? d src 0 pos = .ok (some next) := by
      rw [opaqueEnd?, quotedEnd?_of_slash hslash]
      simpa using hcomment
    rw [next?, hwhole]
  | case4 | case5 =>
    cases h
    exact .refl

/-- The end of the head of a statement is come to outside of parentheses and brackets. -/
theorem visits_scanFrom {depth stop : Nat} {c : Char} (h : scanFrom d src depth pos = .ok (stop, some c)) :
    Visits d src (depth, pos) (0, stop) := by
  have hstep {depth depth' pos : Nat} {c : Char} (hwhole : opaqueEnd? d src depth pos = .ok none)
      (hc : src[pos]? = some c) (hdepth : depthAfter depth c = depth') :
      next? d src (depth, pos) = some (depth', pos + 1) := by
    rw [next?_of_char hwhole hc, hdepth]
  fun_induction scanFrom d src depth pos with
  | case1 => cases h
  | case2 depth pos hlt next hwhole hb ih =>
    refine .head ?_ (ih h)
    rw [next?, hwhole]
  | case3 depth pos hlt hwhole hopens ih =>
    exact .head (hstep hwhole (Array.getElem?_eq_getElem hlt) (if_pos hopens)) (ih h)
  | case4 depth pos hlt hwhole hopens hcloses ih =>
    exact .head (hstep hwhole (Array.getElem?_eq_getElem hlt) ((if_neg hopens).trans (if_pos hcloses))) (ih h)
  | case5 depth pos hlt hwhole hopens hcloses hends =>
    obtain ⟨rfl, -⟩ := hends
    cases h
    exact .refl
  | case6 depth pos hlt hwhole hopens hcloses hends ih =>
    exact .head (hstep hwhole (Array.getElem?_eq_getElem hlt) ((if_neg hopens).trans (if_neg hcloses))) (ih h)
  | case7 => cases h

/-- What stands behind the end of a head is come to. -/
theorem visits_resume {start stop : Nat} {c : Char} (hstart : start ≤ src.size)
    (h : scan d src start = .ok (stop, some c)) : Visits d src (0, start) (0, resume stop (some c)) := by
  have hstop := visits_scanFrom h
  unfold resume
  split
  · rename_i hc
    have hchar : src[stop]? = some c := (scanFrom_bounds hstart h).2.2
    refine hstop.tail (next?_of_separator hchar ?_)
    rcases hc with hc | hc <;> cases hc <;> decide
  · exact hstop

/-- **The start of every statement is come to.** -/
theorem visits_startsFrom {m : Nat} (h : m ∈ startsFrom d src pos) : Visits d src (0, pos) (0, m) := by
  fun_induction startsFrom d src pos with
  | case1 => cases h
  | case2 pos start hskip hb hlt hmark ih =>
    have hnext : next? d src (0, start) = some (0, start + 1) := by
      refine next?_of_separator (Array.getElem?_eq_getElem hlt) ?_
      rcases hmark with hc | hc <;> rw [hc] <;> decide
    exact (visits_skipTrivia hskip).trans (.head hnext (ih h))
  | case3 pos start hskip =>
    obtain rfl := List.mem_singleton.1 h
    exact visits_skipTrivia hskip
  | case4 pos start hskip hb hlt hmark stop c hscan hlt' ih =>
    rcases List.mem_cons.1 h with rfl | h
    · exact visits_skipTrivia hskip
    · cases c with
      | some c => exact (visits_skipTrivia hskip).trans ((visits_resume (Nat.le_of_lt hlt) hscan).trans (ih h))
      | none =>
        -- no statement stands behind a head without an end
        have hend := Array.getElem?_eq_none_iff.1 (scanFrom_bounds (Nat.le_of_lt hlt) hscan).2.2
        have hm := mem_startsFrom m h
        exact absurd hm.2.1.lt_size (Nat.not_lt.2 (Nat.le_trans hend hm.1))
  | case5 pos start hskip =>
    obtain rfl := List.mem_singleton.1 h
    exact visits_skipTrivia hskip
  | case6 => cases h

/-! ### Pieces -/

/-- A comment, or what stands outside of comments and is passed over in one step. -/
inductive Piece where
  | comment (text : List Char)
  | text (text : List Char)
  deriving DecidableEq

/-- What is passed over in one step. A slash that is passed over with more than itself begins a comment. -/
def pieceAt (src : Array Char) (pos next : Nat) : Piece :=
  if src[pos]? = some '/' ∧ pos + 1 < next then .comment ((src.toList.drop pos).take (next - pos))
  else .text ((src.toList.drop pos).take (next - pos))

/-- The pieces of a text from a place on, without the white space behind commas outside of parentheses
and brackets; `loose` tells whether the place stands behind such a comma and white space only. What
cannot be passed over is one piece. -/
def piecesFrom (d : Dialect) (src : Array Char) (loose : Bool) (p : Nat × Nat) : List Piece :=
  match hnext : next? d src p with
  | none => [.text (src.toList.drop p.2)]
  | some q =>
    have := next?_bounds hnext
    if loose ∧ src[p.2]?.any isStyleBlank then piecesFrom d src true q
    else pieceAt src p.2 q.2 :: piecesFrom d src (p.1 == 0 && src[p.2]? == some ',') q
termination_by src.size - p.2

/-- The pieces of a text. -/
def pieces (d : Dialect) (src : Array Char) : List Piece :=
  piecesFrom d src false (0, 0)

theorem piecesFrom_of_none {loose : Bool} (h : next? d src p = none) :
    piecesFrom d src loose p = [.text (src.toList.drop p.2)] := by
  rw [piecesFrom]
  split <;> rename_i heq <;> cases heq.symm.trans h
  rfl

theorem piecesFrom_of_some {loose : Bool} (h : next? d src p = some q) : piecesFrom d src loose p =
    if loose ∧ src[p.2]?.any isStyleBlank then piecesFrom d src true q
    else pieceAt src p.2 q.2 :: piecesFrom d src (p.1 == 0 && src[p.2]? == some ',') q := by
  rw [piecesFrom]
  split <;> rename_i heq <;> cases heq.symm.trans h
  rfl

theorem drop_shift (pos : Nat) : (pre ++ src).toList.drop (pre.size + pos) = src.toList.drop pos := by
  rw [Array.toList_append, ← List.drop_drop, ← Array.length_toList, List.drop_left]

theorem pieceAt_shift (pos next : Nat) :
    pieceAt (pre ++ src) (pre.size + pos) (pre.size + next) = pieceAt src pos next := by
  simp only [pieceAt, drop_shift, getElem?_shift, Nat.add_sub_add_left, Nat.add_assoc, Nat.add_lt_add_iff_left]

/-- The pieces are told by the text from their start on. -/
theorem piecesFrom_shift {loose : Bool} :
    piecesFrom d (pre ++ src) loose (p.1, pre.size + p.2) = piecesFrom d src loose p := by
  fun_induction piecesFrom d src loose p with
  | case1 loose p hnext =>
    have hnone : next? d (pre ++ src) (p.1, pre.size + p.2) = none := by
      rw [next?_shift, hnext]
      rfl
    rw [piecesFrom_of_none hnone, drop_shift]
  | case2 loose p q hnext hb hblank ih =>
    have hsome : next? d (pre ++ src) (p.1, pre.size + p.2) = some (q.1, pre.size + q.2) := by
      rw [next?_shift, hnext]
      rfl
    rw [piecesFrom_of_some hsome, getElem?_shift, if_pos hblank, ih]
  | case3 loose p q hnext hb hblank ih =>
    have hsome : next? d (pre ++ src) (p.1, pre.size + p.2) = some (q.1, pre.size + q.2) := by
      rw [next?_shift, hnext]
      rfl
    rw [piecesFrom_of_some hsome, getElem?_shift, if_neg hblank, ih, pieceAt_shift]

/-- White space behind a comma is no piece. -/
theorem piecesFrom_blanks {stop : Nat} (hblank : ∀ i, pos ≤ i → i < stop → src[i]?.any isStyleBlank = true)
    (hle : pos ≤ stop) : piecesFrom d src true (0, pos) = piecesFrom d src true (0, stop) := by
  induction stop, hle using Nat.le_induction with
  | base => rfl
  | succ stop hle ih =>
    have hat := hblank stop hle (Nat.lt_succ_self _)
    rw [ih fun i hi hlt => hblank i hi (Nat.lt_succ_of_lt hlt), piecesFrom_of_some (next?_of_blank hat),
      if_pos ⟨rfl, hat⟩]

/-- White space behind a place is white space where it stands. -/
theorem blank_of_drop {blanks rest : List Char} (h : src.toList.drop k = blanks ++ rest)
    (hblanks : ∀ c ∈ blanks, isStyleBlank c = true) {i : Nat} (hi : k ≤ i) (hlt : i < k + blanks.length) :
    src[i]?.any isStyleBlank = true := by
  obtain ⟨j, rfl⟩ := Nat.exists_eq_add_of_le hi
  have hj : j < blanks.length := by omega
  rw [← Array.getElem?_toList, ← List.getElem?_drop, h, List.getElem?_append_left hj, List.getElem?_eq_getElem hj]
  exact hblanks _ (List.getElem_mem hj)

/-- Behind white space the pieces are those of the rest. -/
theorem piecesFrom_rest {blanks post : List Char} (hk : k ≤ src.size) (hsrc : src.toList.drop k = blanks ++ post)
    (hblanks : ∀ c ∈ blanks, isStyleBlank c = true) :
    piecesFrom d src true (0, k) = piecesFrom d post.toArray true (0, 0) := by
  have hlen : (src.toList.take k ++ blanks).toArray.size = k + blanks.length := by
    rw [List.size_toArray, List.length_append, List.length_take_of_le hk]
  have hcut : src = (src.toList.take k ++ blanks).toArray ++ post.toArray := by
    rw [List.append_toArray, List.append_assoc, ← hsrc, List.take_append_drop]
  rw [piecesFrom_blanks (fun _ => blank_of_drop hsrc hblanks) (Nat.le_add_right _ _)]
  have hshift := @piecesFrom_shift d post.toArray (src.toList.take k ++ blanks).toArray (0, 0) true
  rw [hlen, ← hcut] at hshift
  exact hshift

/-- A piece is told by the text up to its end. -/
theorem pieceAt_agree {next : Nat} (hagree : Agree src src' 0 0 n) (hlt : pos < next) (hnext : next ≤ n) :
    pieceAt src' pos next = pieceAt src pos next := by
  have htext : (src'.toList.drop pos).take (next - pos) = (src.toList.drop pos).take (next - pos) := by
    apply List.ext_getElem?
    intro i
    by_cases hi : i < next - pos
    · rw [List.getElem?_take_of_lt hi, List.getElem?_take_of_lt hi, List.getElem?_drop, List.getElem?_drop,
        Array.getElem?_toList, Array.getElem?_toList, hagree.same (by omega)]
    · rw [List.getElem?_eq_none (by rw [List.length_take]; omega),
        List.getElem?_eq_none (by rw [List.length_take]; omega)]
  rw [pieceAt, pieceAt, htext, hagree.same (by omega)]

/-- **Other white space behind a comma leaves the pieces as they are.** By induction on the way to the comma. -/
theorem piecesFrom_splice {blanks blanks' post : List Char} {loose : Bool} (hagree : Agree src src' 0 0 (k + 1))
    (hcomma : src[k]? = some ',') (hvisits : Visits d src p (0, k))
    (hsrc : src.toList.drop (k + 1) = blanks ++ post) (hsrc' : src'.toList.drop (k + 1) = blanks' ++ post)
    (hblanks : ∀ c ∈ blanks, isStyleBlank c = true) (hblanks' : ∀ c ∈ blanks', isStyleBlank c = true) :
    piecesFrom d src' loose p = piecesFrom d src loose p := by
  induction hvisits using Relation.ReflTransGen.head_induction_on generalizing loose with
  | refl =>
    have hcomma' : src'[k]? = some ',' := (hagree.same (Nat.lt_succ_self _)).trans hcomma
    have hsize := (Array.getElem?_eq_some_iff.1 hcomma).1
    have hsize' := (Array.getElem?_eq_some_iff.1 hcomma').1
    have hnext := @next?_of_separator d src (0, k) ',' hcomma (by decide)
    have hnext' := @next?_of_separator d src' (0, k) ',' hcomma' (by decide)
    have hrest : piecesFrom d src' true (0, k + 1) = piecesFrom d src true (0, k + 1) := by
      rw [piecesFrom_rest hsize' hsrc' hblanks', piecesFrom_rest hsize hsrc hblanks]
    have hcomma_blank : ¬ (loose = true ∧ (some ',').any isStyleBlank = true) := fun h => by cases h.2
    rw [piecesFrom_of_some hnext, piecesFrom_of_some hnext', hcomma, hcomma', if_neg hcomma_blank,
      if_neg hcomma_blank, pieceAt_agree hagree (Nat.lt_succ_self k) (Nat.le_refl _)]
    exact congrArg _ hrest
  | @head p q hnext hrest ih =>
    have hlt := (next?_bounds hnext).1
    have hle : q.2 ≤ k := Visits.le hrest
    rw [piecesFrom_of_some hnext, piecesFrom_of_some (next?_agree hnext hagree (Nat.lt_succ_of_le hle)),
      hagree.same (show p.2 < k + 1 by omega), ih, ih, pieceAt_agree hagree hlt (Nat.le_succ_of_le hle)]

/-! ### Texts with the same pieces -/

/-- The text of a piece. -/
def Piece.chars : Piece → List Char
  | .comment cs => cs
  | .text cs => cs

theorem chars_pieceAt (pos next : Nat) : (pieceAt src pos next).chars = (src.toList.drop pos).take (next - pos) := by
  unfold pieceAt
  split <;> rfl

/-- A place that is not behind a comma begins a piece. -/
theorem piecesFrom_tight (h : next? d src p = some q) : piecesFrom d src false p =
    pieceAt src p.2 q.2 :: piecesFrom d src (p.1 == 0 && src[p.2]? == some ',') q := by
  rw [piecesFrom_of_some h, if_neg (fun h => Bool.false_ne_true h.1)]

theorem piecesFrom_ne_nil : piecesFrom d src false p ≠ [] := by
  cases hnext : next? d src p with
  | none =>
    rw [piecesFrom_of_none hnext]
    exact List.cons_ne_nil _ _
  | some q =>
    rw [piecesFrom_tight hnext]
    exact List.cons_ne_nil _ _

/-- The first piece begins with the first character. -/
theorem head?_piecesFrom : ((piecesFrom d src false p).head?.bind fun x => x.chars.head?) = src[p.2]? := by
  cases hnext : next? d src p with
  | none =>
    rw [piecesFrom_of_none hnext, List.head?_cons, Option.bind_some, Piece.chars, List.head?_drop,
      Array.getElem?_toList]
  | some q =>
    have hlt := (next?_bounds hnext).1
    rw [piecesFrom_tight hnext, List.head?_cons, Option.bind_some, chars_pieceAt, List.head?_take, if_neg (by omega),
      List.head?_drop, Array.getElem?_toList]

theorem not_comma_of_blank (h : src[pos]?.any isStyleBlank = true) : (src[pos]? == some ',') = false := by
  rw [beq_eq_false_iff_ne]
  intro heq
  rw [heq] at h
  cases h

/-- White space that is not behind a comma is a piece of its own, and so is what follows it. -/
theorem piecesFrom_blanks_ne {depth depth' : Nat} (hagree : Agree src src' 0 0 n) (hdiffer : src'[n]? ≠ src[n]?)
    (hle : pos ≤ n) (hblank : ∀ i, pos ≤ i → i < n → src[i]?.any isStyleBlank = true) :
    piecesFrom d src' false (depth', pos) ≠ piecesFrom d src false (depth, pos) := by
  induction hle using Nat.decreasingInduction with
  | self =>
    intro heq
    refine hdiffer ?_
    rw [← @head?_piecesFrom d src' (depth', n), heq, head?_piecesFrom]
  | of_succ pos hlt ih =>
    have hat := hblank pos (Nat.le_refl _) hlt
    have hat' : src'[pos]?.any isStyleBlank = true := by rwa [hagree.same hlt]
    have hnext := @next?_of_blank d src (depth, pos) hat
    have hnext' := @next?_of_blank d src' (depth', pos) hat'
    rw [piecesFrom_tight hnext, piecesFrom_tight hnext', not_comma_of_blank hat, not_comma_of_blank hat',
      Bool.and_false, Bool.and_false]
    exact fun heq => ih (fun i hi => hblank i (Nat.le_of_succ_le hi)) (List.cons.inj heq).2

/-- A piece tells where it ends and what stands in it. -/
theorem eq_of_pieceAt {next next' : Nat} (hlt : pos < next) (hlt' : pos < next') (hnext : next ≤ src.size)
    (hnext' : next' ≤ src'.size) (h : pieceAt src' pos next' = pieceAt src pos next) :
    next' = next ∧ ∀ i, pos ≤ i → i < next → src'[i]? = src[i]? := by
  have hchars := congrArg Piece.chars h
  rw [chars_pieceAt, chars_pieceAt] at hchars
  have hlen := congrArg List.length hchars
  rw [List.length_take, List.length_drop, List.length_take, List.length_drop, Array.length_toList,
    Array.length_toList] at hlen
  obtain rfl : next' = next := by omega
  refine ⟨rfl, fun i hi hin => ?_⟩
  have hat := congrArg (·[i - pos]?) hchars
  simp only [List.getElem?_take_of_lt (show i - pos < next' - pos by omega), List.getElem?_drop,
    Nat.add_sub_cancel' hi, Array.getElem?_toList] at hat
  exact hat

/-- **Where texts with the same pieces differ, a comma is come to.** If they differ first behind a comma and
white space, the comma stands outside of strings, comments, interpolations, parentheses and brackets. By
induction on the way to a place behind the difference. -/
theorem visits_of_piecesFrom {loose : Bool} (hagree : Agree src src' 0 0 n) (hdiffer : src'[n]? ≠ src[n]?)
    (hcomma : src[k]? = some ',') (hkn : k < n) (hblank : ∀ i, k < i → i < n → src[i]?.any isStyleBlank = true)
    (hvisits : Visits d src p r) (hp : p.2 ≤ k) (hr : n < r.2)
    (heq : piecesFrom d src' loose p = piecesFrom d src loose p) : Visits d src p (0, k) := by
  induction hvisits using Relation.ReflTransGen.head_induction_on generalizing loose with
  | refl => omega
  | @head p q hnext hrest ih =>
    have hbounds := next?_bounds hnext
    have hchar : src'[p.2]? = src[p.2]? := hagree.same (by omega)
    rw [piecesFrom_of_some hnext] at heq
    by_cases hdrop : loose = true ∧ src[p.2]?.any isStyleBlank = true
    · -- a dropped character is no comma
      have hq : q = (p.1, p.2 + 1) := Option.some.inj (hnext.symm.trans (next?_of_blank hdrop.2))
      have hne : p.2 ≠ k := by
        rintro rfl
        rw [hcomma] at hdrop
        cases hdrop.2
      have hqk : q.2 ≤ k := by
        rw [hq]
        exact Nat.lt_of_le_of_ne hp hne
      rw [piecesFrom_of_some (next?_agree hnext hagree (by omega)), hchar, if_pos hdrop, if_pos hdrop] at heq
      exact .head hnext (ih hqk heq)
    · rw [if_neg hdrop] at heq
      by_cases hqk : q.2 ≤ k
      · rw [piecesFrom_of_some (next?_agree hnext hagree (by omega)), hchar, if_neg hdrop] at heq
        exact .head hnext (ih hqk (List.cons.inj heq).2)
      by_cases hloose : p.1 = 0 ∧ src[p.2]? = some ','
      · -- the comma is passed over by itself
        have hq : q = (p.1, p.2 + 1) := Option.some.inj (hnext.symm.trans (next?_of_separator hloose.2 (by decide)))
        rw [hq] at hqk
        obtain rfl : p = (0, k) := Prod.ext hloose.1 (by omega)
        exact .refl
      have hloose' : (p.1 == 0 && src[p.2]? == some ',') = false := by
        rw [Bool.and_eq_false_iff, beq_eq_false_iff_ne, beq_eq_false_iff_ne]
        exact Decidable.not_and_iff_not_or_not.1 hloose
      rw [hloose'] at heq
      cases hnext' : next? d src' p with
      | none =>
        rw [piecesFrom_of_none hnext'] at heq
        exact absurd (List.cons.inj heq).2.symm piecesFrom_ne_nil
      | some q' =>
        have hbounds' := next?_bounds hnext'
        rw [piecesFrom_of_some hnext', hchar, if_neg hdrop, hloose'] at heq
        obtain ⟨hpiece, hrest'⟩ := List.cons.inj heq
        obtain ⟨hstop, hsame⟩ := eq_of_pieceAt hbounds.1 hbounds'.1 hbounds.2 hbounds'.2 hpiece
        have hqn : q.2 ≤ n := Nat.le_of_not_lt fun hlt => hdiffer (hsame n (by omega) hlt)
        obtain ⟨depth', stop⟩ := q'
        obtain rfl : stop = q.2 := hstop
        exact absurd hrest' (piecesFrom_blanks_ne hagree hdiffer hqn fun i hi => hblank i (by omega))

/-! ### Edits behind commas -/

/-- **An edit puts other white space behind a comma** outside of strings, comments, interpolations,
parentheses and brackets. -/
structure Respaces (d : Dialect) (src : Array Char) (k : Nat) (e : Edit) : Prop where
  visits : Visits d src (0, 0) (0, k)
  comma : src[k]? = some ','
  start : e.span.start = k + 1
  stop : e.span.stop ≤ src.size
  blank : ∀ i, k < i → i < e.span.stop → src[i]?.any isStyleBlank = true
  replacement : ∀ c ∈ e.replacement.toList, isStyleBlank c = true

/-- A comment that is passed over. -/
def IsComment (d : Dialect) (src : Array Char) (i j : Nat) : Prop :=
  src[i]? = some '/' ∧ i + 1 < j ∧ ∃ depth, Visits d src (0, 0) (depth, i) ∧ next? d src (depth, i) = some (depth, j)

/-- **Such an edit stands outside of comments.** -/
theorem Respaces.outside (h : Respaces d src k e) {i j : Nat} (hcomment : IsComment d src i j) :
    e.span.stop ≤ i ∨ j ≤ e.span.start := by
  obtain ⟨hslash, -, depth, hvisits, hnext⟩ := hcomment
  rw [h.start]
  rcases Nat.lt_trichotomy i k with hlt | rfl | hgt
  · exact .inr (Nat.le_succ_of_le (hvisits.not_inside hnext h.visits hlt))
  · cases hslash.symm.trans h.comma
  · refine .inl (Nat.le_of_not_lt fun hin => ?_)
    have := h.blank i hgt hin
    rw [hslash] at this
    cases this

/-- The way to the comma is told by the text up to the end of the edit. -/
theorem Respaces.agree (h : Respaces d src k e) (hagree : Agree src src' 0 0 e.span.stop)
    (hstop : e.span.stop ≤ src'.size) : Respaces d src' k e := by
  have hk : k < e.span.stop := by
    rw [← Nat.succ_le_iff, ← Nat.add_one, ← h.start]
    exact e.span.start_le_stop
  refine ⟨h.visits.agree hagree hk, (hagree.same hk).trans h.comma, h.start, hstop, fun i hi hlt => ?_, h.replacement⟩
  rw [hagree.same hlt]
  exact h.blank i hi hlt

/-- **Such an edit leaves the pieces as they are.** -/
theorem pieces_splice {text : List Char} (h : Respaces d text.toArray k e) :
    pieces d (Edit.splice text e).toArray = pieces d text.toArray := by
  have hk := (Array.getElem?_eq_some_iff.1 h.comma).1
  have hle := e.span.start_le_stop
  rw [h.start] at hle
  have hsplice : (Edit.splice text e).toArray.toList =
      text.toArray.toList.take (k + 1) ++ (e.replacement.toList ++ text.drop e.span.stop) := by
    rw [Edit.splice, h.start, List.append_assoc]
  obtain ⟨hagree, hafter⟩ := agree_of_take hk hsplice
  have hbefore : text.drop (k + 1) = (text.drop (k + 1)).take (e.span.stop - (k + 1)) ++ text.drop e.span.stop := by
    have hsplit := List.take_append_drop (e.span.stop - (k + 1)) (text.drop (k + 1))
    rw [List.drop_drop, Nat.add_sub_cancel' hle] at hsplit
    exact hsplit.symm
  refine piecesFrom_splice hagree h.comma h.visits hbefore hafter (fun c hc => ?_) h.replacement
  obtain ⟨i, hi, hc⟩ := List.getElem_of_mem hc
  rw [List.length_take, List.length_drop] at hi
  have hin : k + 1 + i < text.length := by omega
  have hblank := h.blank (k + 1 + i) (by omega) (by omega)
  rw [List.getElem_take, List.getElem_drop] at hc
  rw [← Array.getElem?_toList, List.getElem?_eq_getElem hin, hc] at hblank
  exact hblank

/-- **So do many of them.** By induction on the edits, of which the last one is performed first. -/
theorem applyBackwards_pieces {text : List Char} {edits : List Edit} (hbefore : edits.Pairwise Edit.Before)
    (h : ∀ e ∈ edits, ∃ k, Respaces d text.toArray k e) :
    ∃ done, Edit.applyBackwards text edits = .ok done ∧ pieces d done.toArray = pieces d text.toArray := by
  induction edits with
  | nil => exact ⟨text, rfl, rfl⟩
  | cons e rest ih =>
    obtain ⟨done, hdone, hpieces⟩ := ih hbefore.of_cons fun x hx => h x (List.mem_cons_of_mem _ hx)
    obtain ⟨k, hk⟩ := h e List.mem_cons_self
    have hstop : e.span.stop ≤ text.length := hk.stop
    -- what is done leaves the text up to the end of this edit
    have hrest := Edit.applyBackwards_of_before hbefore.of_cons
      (fun x hx => (h x (List.mem_cons_of_mem _ hx)).elim fun _ hx => hx.stop) hstop
      fun x hx => (List.rel_of_pairwise_cons hbefore hx).1
    have heq : done = text.take e.span.stop ++ Edit.replacedFrom text e.span.stop rest :=
      Except.ok.inj (hdone.symm.trans hrest)
    refine ⟨Edit.splice done e, ?_, ?_⟩
    · rw [Edit.applyBackwards, hdone]
      exact if_pos hstop
    · rw [← hpieces]
      have hagree := (@agree_of_take text.toArray done.toArray e.span.stop _ hstop heq).1
      refine pieces_splice (hk.agree hagree ?_)
      rw [heq, List.size_toArray, List.length_append, List.length_take_of_le hstop]
      exact Nat.le_add_right _ _

/-! ### Broken lines -/

/-- **An edit breaks the line behind a comma**: it puts white space with a new line in the place of white space
without one, up to what is none. -/
structure BreaksLine (d : Dialect) (src : Array Char) (k : Nat) (e : Edit) : Prop where
  comma : src[k]? = some ','
  start : e.span.start = k + 1
  ends : ∃ r, Visits d src (0, 0) r ∧ e.span.stop < r.2
  blank : ∀ i, k < i → i < e.span.stop → src[i]?.any isStyleBlank = true ∧ src[i]? ≠ some '\n'
  solid : src[e.span.stop]?.any isStyleBlank = false
  replacement : ∀ c ∈ e.replacement.toList, isStyleBlank c = true
  breaks : '\n' ∈ e.replacement.toList

/-- White space with a new line differs from white space without one and what follows it. -/
theorem exists_differ {front rest : List Char} (hfront : ∀ c ∈ front, isStyleBlank c = true) (hbreak : '\n' ∈ front)
    {stop : Nat} {cs : List Char} (hline : ∀ i, i < stop → cs[i]? ≠ some '\n')
    (hsolid : cs[stop]?.any isStyleBlank = false) :
    ∃ i, i ≤ stop ∧ (∀ j, j < i → (front ++ rest)[j]? = cs[j]?) ∧ (front ++ rest)[i]? ≠ cs[i]? := by
  induction front generalizing stop cs with
  | nil => cases hbreak
  | cons c front ih =>
    rw [List.forall_mem_cons] at hfront
    by_cases hsame : cs[0]? = some c
    · cases stop with
      | zero =>
        rw [hsame, Option.any_some, hfront.1] at hsolid
        cases hsolid
      | succ stop =>
        obtain ⟨c', cs, rfl⟩ := List.exists_cons_of_ne_nil (show cs ≠ [] by rintro rfl; cases hsame)
        obtain rfl : c' = c := Option.some.inj hsame
        have hlater : '\n' ∈ front := (List.mem_cons.1 hbreak).resolve_left fun hc =>
          hline 0 (Nat.succ_pos _) (by rw [hc]; rfl)
        obtain ⟨i, hi, hbefore, hat⟩ := ih hfront.2 hlater (fun i hi => hline (i + 1) (Nat.succ_lt_succ hi)) hsolid
        refine ⟨i + 1, Nat.succ_le_succ hi, fun j hj => ?_, hat⟩
        cases j with
        | zero => rfl
        | succ j => exact hbefore j (Nat.lt_of_succ_lt_succ hj)
    · exact ⟨0, Nat.zero_le _, fun j hj => absurd hj (Nat.not_lt_zero j), fun h => hsame h.symm⟩

theorem Visits.le_size (h : Visits d src p q) (hlt : p.2 < q.2) : q.2 ≤ src.size := by
  rcases Relation.ReflTransGen.cases_tail h with rfl | ⟨r, -, hnext⟩
  · exact absurd hlt (Nat.lt_irrefl _)
  · exact (next?_bounds hnext).2

theorem BreaksLine.stop_le (h : BreaksLine d src k e) : e.span.stop ≤ src.size := by
  obtain ⟨r, hr, hlt⟩ := h.ends
  exact Nat.le_trans (Nat.le_of_lt hlt) (hr.le_size (by omega))

theorem BreaksLine.respaces (h : BreaksLine d src k e) (hvisits : Visits d src (0, 0) (0, k)) : Respaces d src k e :=
  ⟨hvisits, h.comma, h.start, h.stop_le, fun i hi hlt => (h.blank i hi hlt).1, h.replacement⟩

/-- Two such edits stand one after the other, or at one place. -/
theorem BreaksLine.apart {k' : Nat} {e' : Edit} (h : BreaksLine d src k e) (h' : BreaksLine d src k' e') :
    e.span = e'.span ∨ Edit.Apart e e' := by
  have hbefore {k k' : Nat} {e e' : Edit} (h : BreaksLine d src k e) (h' : BreaksLine d src k' e') (hlt : k < k') :
      Edit.Before e e' := by
    have hle : e.span.stop ≤ k' := Nat.le_of_not_lt fun hin => by
      have := (h.blank k' hlt hin).1
      rw [h'.comma] at this
      cases this
    rw [Edit.Before, h.start, h'.start]
    omega
  have hstop {e e' : Edit} (h : BreaksLine d src k e) (h' : BreaksLine d src k e') : e'.span.stop ≤ e.span.stop :=
    Nat.le_of_not_lt fun hin => by
      have hstart := e.span.start_le_stop
      rw [h.start] at hstart
      have := (h'.blank e.span.stop hstart hin).1
      rw [h.solid] at this
      cases this
  rcases Nat.lt_trichotomy k k' with hlt | rfl | hgt
  · exact .inr (hbefore h h' hlt).apart
  · exact .inl (Span.ext (h.start.trans h'.start.symm) (Nat.le_antisymm (hstop h' h) (hstop h h')))
  · exact .inr (Edit.Apart.symm (hbefore h' h hgt).apart)

/-- **If the pieces stay, the comma is come to**, whatever is done behind the edit. -/
theorem BreaksLine.visits {text rest : List Char} (h : BreaksLine d text.toArray k e)
    (hpieces : pieces d (text.take (k + 1) ++ (e.replacement.toList ++ rest)).toArray = pieces d text.toArray) :
    Visits d text.toArray (0, 0) (0, k) := by
  obtain ⟨r, hr, hlt⟩ := h.ends
  have hk := (Array.getElem?_eq_some_iff.1 h.comma).1
  have hstart := e.span.start_le_stop
  rw [h.start] at hstart
  obtain ⟨src', hsrc'⟩ : ∃ src', src' = (text.take (k + 1) ++ (e.replacement.toList ++ rest)).toArray := ⟨_, rfl⟩
  obtain ⟨hagree, hafter⟩ := @agree_of_take text.toArray src' (k + 1) (e.replacement.toList ++ rest) hk (by rw [hsrc'])
  rw [← hsrc'] at hpieces
  have hdrop (src : Array Char) (j : Nat) : (src.toList.drop (k + 1))[j]? = src[k + 1 + j]? := by
    rw [List.getElem?_drop, Array.getElem?_toList]
  -- the first place at which the texts differ
  obtain ⟨i, hi, hbefore, hat⟩ := @exists_differ e.replacement.toList rest h.replacement h.breaks
    (e.span.stop - (k + 1)) (text.toArray.toList.drop (k + 1))
    (fun i hi => by rw [hdrop]; exact (h.blank _ (by omega) (by omega)).2)
    (by rw [hdrop, Nat.add_sub_cancel' hstart]; exact h.solid)
  rw [← hafter, hdrop, hdrop] at hat
  refine @visits_of_piecesFrom d _ _ (0, 0) r k (k + 1 + i) false (fun j hj => ?_) hat h.comma (by omega)
    (fun j hj hlt => (h.blank j hj (by omega)).1) hr (Nat.zero_le _) (by omega) hpieces
  rw [Nat.zero_add]
  rcases Nat.lt_or_ge j (k + 1) with hj' | hj'
  · exact (hagree.same hj').symm
  · obtain ⟨j, rfl⟩ := Nat.exists_eq_add_of_le hj'
    have := hbefore j (by omega)
    rw [← hafter, hdrop, hdrop] at this
    exact this.symm

/-- **Edits that leave the pieces as they are stand behind commas that are come to.** By induction on the edits,
of which the first one makes the first difference. -/
theorem visits_of_applyBackwards {text done : List Char} {edits : List Edit} (hbefore : edits.Pairwise Edit.Before)
    (h : ∀ e ∈ edits, ∃ k, BreaksLine d text.toArray k e) (hdone : Edit.applyBackwards text edits = .ok done)
    (hpieces : pieces d done.toArray = pieces d text.toArray) :
    ∀ e ∈ edits, ∃ k, Respaces d text.toArray k e := by
  induction edits generalizing done with
  | nil => exact List.forall_mem_nil _
  | cons e rest ih =>
    obtain ⟨k, hk⟩ := h e List.mem_cons_self
    have hstop : e.span.stop ≤ text.length := hk.stop_le
    have hk' : k + 1 ≤ e.span.stop := hk.start ▸ e.span.start_le_stop
    have hrest := Edit.applyBackwards_of_before hbefore.of_cons
      (fun x hx => (h x (List.mem_cons_of_mem _ hx)).elim fun _ hx => hx.stop_le) hstop
      fun x hx => (List.rel_of_pairwise_cons hbefore hx).1
    generalize hlater : text.take e.span.stop ++ Edit.replacedFrom text e.span.stop rest = later at hrest
    have hall : done = Edit.splice later e := by
      rw [Edit.applyBackwards, hrest] at hdone
      exact Except.ok.inj (hdone.symm.trans (if_pos hstop))
    have htake : later.take (k + 1) = text.take (k + 1) := by
      rw [← hlater, List.take_append_of_le_length (by rw [List.length_take]; omega), List.take_take,
        Nat.min_eq_left hk']
    have hvisits : Visits d text.toArray (0, 0) (0, k) := by
      refine @BreaksLine.visits d k e text (later.drop e.span.stop) hk ?_
      rw [← hpieces, hall, Edit.splice, hk.start, htake, List.append_assoc]
    have hrespaces := hk.respaces hvisits
    refine List.forall_mem_cons.2 ⟨⟨k, hrespaces⟩, ?_⟩
    refine ih hbefore.of_cons (fun x hx => h x (List.mem_cons_of_mem _ hx)) hrest ?_
    rw [← hpieces, hall]
    have hagree := (@agree_of_take text.toArray later.toArray e.span.stop _ hstop hlater.symm).1
    refine (pieces_splice (hrespaces.agree hagree ?_)).symm
    rw [← hlater, List.size_toArray, List.length_append, List.length_take_of_le hstop]
    exact Nat.le_add_right _ _

end HouseStyle.Stylesheet
