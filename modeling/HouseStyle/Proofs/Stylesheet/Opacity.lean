import HouseStyle.Proofs.Parse.Parsed
import HouseStyle.Proofs.Stylesheet.Ahead
import HouseStyle.Proofs.Stylesheet.Kinds

/-!
# What stands in comments and strings of a head

The scan of a head passes over its comments and strings, so their characters do not matter for where
statements and blocks begin and end. They do matter where the head is split into selectors: there
comments are text, and a bracket inside of brackets closes them also in a string.

* `Body`: what stands between the marks of a comment or a string.
* `parse_otherBody`: a text in which only a body differs has the same tree but for its facts, or the
  same fault, if the heads are read alike, and they are if the body keeps its kinds of characters.
* `otherBody_unreadable`: a body can make a text unreadable.
-/

namespace HouseStyle.Stylesheet

open Cursor (find)
open Node (relocate)

variable {d : Dialect} {src src' : Array Char}

/-! ### A common rest -/

/-- Two texts with the same characters from a place on, cut there. -/
theorem exists_rest {n : Nat} (hn : n ≤ src.size) (hn' : n ≤ src'.size)
    (h : ∀ k, n ≤ k → src'[k]? = src[k]?) :
    ∃ pre pre' post, src = pre ++ post ∧ src' = pre' ++ post ∧ pre.size = n ∧ pre'.size = n := by
  have hdrop : src'.toList.drop n = src.toList.drop n := by
    apply List.ext_getElem?
    intro k
    rw [List.getElem?_drop, List.getElem?_drop, Array.getElem?_toList, Array.getElem?_toList]
    exact h (n + k) (Nat.le_add_right n k)
  have hcut (t : Array Char) : t = (t.toList.take n).toArray ++ (t.toList.drop n).toArray := by
    rw [List.append_toArray, List.take_append_drop]
  have hsize {t : Array Char} (ht : n ≤ t.size) : (t.toList.take n).toArray.size = n := by
    rw [List.size_toArray, List.length_take, Array.length_toList]
    exact Nat.min_eq_left ht
  exact ⟨_, _, _, hcut src, by rw [← hdrop]; exact hcut src', hsize hn, hsize hn'⟩

section

variable {n : Nat} (hn : n ≤ src.size) (hn' : n ≤ src'.size) (h : ∀ k, n ≤ k → src'[k]? = src[k]?)

include hn hn' h

theorem skipTrivia_rest {p : Nat} (hp : n ≤ p) : skipTrivia d src' p = skipTrivia d src p := by
  obtain ⟨pre, pre', post, rfl, rfl, rfl, hpre'⟩ := exists_rest hn hn' h
  obtain ⟨k, rfl⟩ := Nat.exists_eq_add_of_le hp
  rw [skipTrivia_shift, ← hpre', skipTrivia_shift]

theorem scanFrom_rest {depth p : Nat} (hp : n ≤ p) : scanFrom d src' depth p = scanFrom d src depth p := by
  obtain ⟨pre, pre', post, rfl, rfl, rfl, hpre'⟩ := exists_rest hn hn' h
  obtain ⟨k, rfl⟩ := Nat.exists_eq_add_of_le hp
  rw [scanFrom_shift, ← hpre', scanFrom_shift]

theorem bareHead_rest {m : Nat} (hm : n ≤ m) : bareHead d src' m = bareHead d src m := by
  obtain ⟨pre, pre', post, rfl, rfl, rfl, hpre'⟩ := exists_rest hn hn' h
  obtain ⟨k, rfl⟩ := Nat.exists_eq_add_of_le hm
  -- an empty block moves with its brace
  have hblock (pre : Array Char) (brace : Nat) :
      (.ok (nodeOf .block (pre.size + brace) (pre.size + brace) []) : Except ParseError Node) =
        shifted pre.size (relocate 0 pre.size) (.ok (nodeOf .block brace brace [])) := by
    rw [shifted_ok, nodeOf_shift]
    rfl
  unfold bareHead
  rw [statement_shift (hblock pre), ← hpre', statement_shift (hblock pre')]

/-- **Texts go on alongside where they are the same.** -/
theorem alongside_rest {p : Nat} (hp : n ≤ p) : Alongside d src src' p := by
  induction hk : src.size - p using Nat.strongRecOn generalizing p with
  | ind k ih =>
  refine .mk (skipTrivia_rest hn hn' h hp) ?_ ?_ ?_ ?_
  · intro q skip
    exact h q (Nat.le_trans hp (skipTrivia_bounds skip).1)
  · intro q c skip hc _
    have hlt := (Array.getElem?_eq_some_iff.1 hc).1
    have hpq := (skipTrivia_bounds skip).1
    exact ih (src.size - (q + 1)) (by omega) (by omega) rfl
  · intro q skip _
    exact scanFrom_rest hn hn' h (Nat.le_trans hp (skipTrivia_bounds skip).1)
  · intro q stop c skip starts head
    have hlt := starts.lt_size
    have hpq := (skipTrivia_bounds skip).1
    have hnext := starts.lt_resume head
    exact ih (src.size - resume stop c) (by omega) (by omega) rfl

end

/-! ### Up to a head -/

theorem Alongside.of_mark {p q : Nat} {c : Char} (skip : skipTrivia d src p = .ok q)
    (skip' : skipTrivia d src' p = .ok q) (hc : src[q]? = some c) (hc' : src'[q]? = some c)
    (hmark : c = '}' ∨ c = ';') (rest : Alongside d src src' (q + 1)) : Alongside d src src' p := by
  have hstarts {q' : Nat} (hq : skipTrivia d src p = .ok q') : ¬ Starts src q' := by
    cases skip.symm.trans hq
    rintro ⟨x, hx, hb, hsemi⟩
    cases hc.symm.trans hx
    rcases hmark with rfl | rfl
    · exact hb rfl
    · exact hsemi rfl
  refine .mk (skip'.trans skip.symm) ?_ ?_ ?_ ?_
  · intro q' hq
    cases skip.symm.trans hq
    exact hc'.trans hc.symm
  · intro q' _ hq _ _
    cases skip.symm.trans hq
    exact rest
  · intro q' hq starts
    exact absurd starts (hstarts hq)
  · intro q' _ _ hq starts _
    exact absurd starts (hstarts hq)

theorem Alongside.of_head {p q stop : Nat} {c : Option Char} (skip : skipTrivia d src p = .ok q)
    (skip' : skipTrivia d src' p = .ok q) (starts : Starts src q) (hchar : src'[q]? = src[q]?)
    (head : scan d src q = .ok (stop, c)) (head' : scan d src' q = .ok (stop, c))
    (rest : Alongside d src src' (resume stop c)) : Alongside d src src' p := by
  refine .mk (skip'.trans skip.symm) ?_ ?_ ?_ ?_
  · intro q' hq
    cases skip.symm.trans hq
    exact hchar
  · intro q' x hq hx hmark
    cases skip.symm.trans hq
    obtain ⟨y, hy, hb, hsemi⟩ := starts
    cases hx.symm.trans hy
    rcases hmark with rfl | rfl
    · exact absurd rfl hb
    · exact absurd rfl hsemi
  · intro q' hq _
    cases skip.symm.trans hq
    exact head'.trans head.symm
  · intro q' stop' c' hq _ hscan
    cases skip.symm.trans hq
    cases head.symm.trans hscan
    exact rest

/-- Texts that are the same up to a head, and go on alongside after it, are passed over alike. -/
theorem alongside_before {m stop p : Nat} {c : Option Char} (hagree : Agree src src' 0 0 m)
    (hrest : skipTrivia d src' m = .ok m) (hchar : src'[m]? = src[m]?) (head : scan d src m = .ok (stop, c))
    (head' : scan d src' m = .ok (stop, c)) (hafter : Alongside d src src' (resume stop c))
    (hm : m ∈ startsFrom d src p) : Alongside d src src' p := by
  have hsize := (mem_startsFrom m hm).2.1.lt_size
  -- the head itself
  have hself {p : Nat} (skip : skipTrivia d src p = .ok m) (starts : Starts src m) : Alongside d src src' p :=
    .of_head skip (skipTrivia_before hagree (Nat.le_refl m) hsize hrest skip) starts hchar head head' hafter
  fun_induction startsFrom d src p with
  | case1 => cases hm
  | case2 p start skip hb hlt hmark ih =>
    have hlt' : start < m := (mem_startsFrom m hm).1
    have hc := Array.getElem?_eq_getElem hlt
    have hc' : src'[start]? = some src[start] := by
      have := hagree.char hlt' (by omega)
      simpa only [Nat.zero_add] using this
    have hstart : skipTrivia d src' start = .ok start := by
      rcases hmark with hx | hx <;> rw [hx] at hc' <;> exact skipTrivia_of_plain hc' (by decide) (by decide)
    exact .of_mark skip (skipTrivia_before hagree (Nat.le_of_lt hlt') hsize hstart skip) hc hc' hmark (ih hm)
  | case3 p start skip hb hlt hmark e hscan =>
    obtain rfl := List.mem_singleton.1 hm
    cases hscan.symm.trans head
  | case4 p start skip hb hlt hmark stop' c' hscan hlt' ih =>
    have starts := starts_of_char hlt hmark
    rcases List.mem_cons.1 hm with rfl | hm
    · exact hself skip starts
    · have hstop := stop_lt_of_mem starts hscan hm
      have hle := (starts.scan_bounds hscan).1
      obtain ⟨-, hscan', hstart⟩ := head_prefix hagree starts hscan hstop (skipTrivia_idem skip)
      have hchar' := hagree start (by omega)
      rw [Nat.zero_add] at hchar'
      exact .of_head skip (skipTrivia_before hagree (by omega) hsize hstart skip) starts hchar'.symm hscan hscan'
        (ih hm)
  | case5 p start skip hb hlt hmark stop' c' hscan hlt' =>
    exact absurd ((starts_of_char hlt hmark).lt_resume hscan) hlt'
  | case6 => cases hm

/-! ### Strings and comments of a head -/

/-- **The scan of a head comes to a place** with so many parentheses and brackets open. -/
inductive Meets (d : Dialect) (src : Array Char) (start : Nat) : Nat → Nat → Prop
  | start : Meets d src start 0 start
  | passed {depth pos next : Nat} (before : Meets d src start depth pos)
      (jump : opaqueEnd? d src depth pos = .ok (some next)) : Meets d src start depth next
  | opens {depth pos : Nat} {c : Char} (before : Meets d src start depth pos)
      (plain : opaqueEnd? d src depth pos = .ok none) (char : src[pos]? = some c)
      (opens : opensGroup c = true) : Meets d src start (depth + 1) (pos + 1)
  | closes {depth pos : Nat} {c : Char} (before : Meets d src start depth pos)
      (plain : opaqueEnd? d src depth pos = .ok none) (char : src[pos]? = some c)
      (opens : opensGroup c = false) (closes : closesGroup c = true) : Meets d src start (depth - 1) (pos + 1)
  | goesOn {depth pos : Nat} {c : Char} (before : Meets d src start depth pos)
      (plain : opaqueEnd? d src depth pos = .ok none) (char : src[pos]? = some c)
      (opens : opensGroup c = false) (closes : closesGroup c = false)
      (inner : ¬ (depth = 0 ∧ endsHead c = true)) : Meets d src start depth (pos + 1)

theorem Meets.le {start depth pos : Nat} (h : Meets d src start depth pos) : start ≤ pos := by
  induction h with
  | start => exact Nat.le_refl _
  | passed before jump ih => exact Nat.le_trans ih (Nat.le_of_lt (opaqueEnd?_bounds jump).1)
  | opens before plain char opens ih => exact Nat.le_succ_of_le ih
  | closes before plain char opens closes ih => exact Nat.le_succ_of_le ih
  | goesOn before plain char opens closes inner ih => exact Nat.le_succ_of_le ih

/-- What the scan comes to decides where the head ends. -/
theorem Meets.scan_eq {start depth pos : Nat} (h : Meets d src start depth pos) :
    scan d src start = scanFrom d src depth pos := by
  induction h with
  | start => rfl
  | passed before jump ih =>
    have hb := opaqueEnd?_bounds jump
    rw [ih, scanFrom_of_char (Array.getElem?_eq_getElem (by omega)), jump]
    rfl
  | opens before plain char opens ih =>
    rw [ih, scanFrom_of_char char, plain]
    simp only [Except.bind, if_pos opens]
  | closes before plain char opens closes ih =>
    rw [ih, scanFrom_of_char char, plain]
    simp only [Except.bind, opens, closes, Bool.false_eq_true, if_false, if_true]
  | goesOn before plain char opens closes inner ih =>
    rw [ih, scanFrom_of_char char, plain]
    simp only [Except.bind, opens, closes, Bool.false_eq_true, if_false, if_neg inner]

/-- What the scan comes to is told by the text up to there. -/
theorem Meets.agree {n start depth pos : Nat} (h : Meets d src start depth pos) (hagree : Agree src src' 0 0 n)
    (hpos : pos < n) : Meets d src' start depth pos := by
  -- a character outside of strings, comments and interpolations
  have hplain {depth pos : Nat} {c : Char} (hpos : pos + 1 < n) (plain : opaqueEnd? d src depth pos = .ok none)
      (char : src[pos]? = some c) : opaqueEnd? d src' depth pos = .ok none ∧ src'[pos]? = some c := by
    have hnone := @opaqueEnd?_agree_none d _ _ _ _ _ hagree depth pos (by omega) fun _ => hpos
    have hchar := hagree pos (by omega)
    rw [Nat.zero_add] at hnone hchar
    exact ⟨hnone plain, hchar.symm.trans char⟩
  induction h with
  | start => exact .start
  | @passed depth pos next before jump ih =>
    have hb := opaqueEnd?_bounds jump
    have hnext := @opaqueEnd?_agree d _ _ _ _ _ hagree depth pos next hpos
    rw [Nat.zero_add, Nat.zero_add] at hnext
    exact .passed (ih (by omega)) (hnext jump)
  | opens before plain char opens ih =>
    obtain ⟨plain', char'⟩ := hplain hpos plain char
    exact .opens (ih (by omega)) plain' char' opens
  | closes before plain char opens closes ih =>
    obtain ⟨plain', char'⟩ := hplain hpos plain char
    exact .closes (ih (by omega)) plain' char' opens closes
  | goesOn before plain char opens closes inner ih =>
    obtain ⟨plain', char'⟩ := hplain hpos plain char
    exact .goesOn (ih (by omega)) plain' char' opens closes inner

/-- **The body of the string or comment between two places**: what stands between its marks. -/
inductive Body (d : Dialect) (src : Array Char) (depth start stop : Nat) : Nat → Nat → Prop
  | string {c : Char} (char : src[start]? = some c) (quote : isQuote c = true)
      (close : stringEnd src c start = .ok stop) : Body d src depth start stop (start + 1) (stop - 1)
  | block (slash : src[start]? = some '/') (star : src[start + 1]? = some '*')
      (close : commentEnd src start = .ok stop) : Body d src depth start stop (start + 2) (stop - 2)
  | line (scss : d = .scss) (outside : depth = 0) (slash : src[start]? = some '/')
      (slash' : src[start + 1]? = some '/') (close : find src '\n' src.size start = stop) :
      Body d src depth start stop (start + 2) stop

theorem quotedEnd?_of_slash {pos : Nat} (h : src[pos]? = some '/') : quotedEnd? src pos = .ok none := by
  have ho : opensInterpolation src pos = false := by
    rw [opensInterpolation, h]
    rfl
  rw [quotedEnd?, h]
  simp only [ho, Bool.false_eq_true, if_false]
  rfl

/-- Strings and comments are passed over. -/
theorem Body.passed {depth start stop lo hi : Nat} (h : Body d src depth start stop lo hi) :
    opaqueEnd? d src depth start = .ok (some stop) := by
  cases h with
  | string char quote close =>
    rw [opaqueEnd?, quotedEnd?, char]
    simp only [if_pos quote, close, Except.map]
  | block slash star close =>
    rw [opaqueEnd?, quotedEnd?_of_slash slash]
    simp only [commentEnd?, if_pos slash, if_pos star, close, Except.map]
  | line scss outside slash slash' close =>
    subst scss outside
    rw [opaqueEnd?, quotedEnd?_of_slash slash]
    simp only [commentEnd?, if_pos slash, slash', close]
    rfl

theorem Body.bounds {depth start stop lo hi : Nat} (h : Body d src depth start stop lo hi) :
    start < lo ∧ hi ≤ stop ∧ stop ≤ src.size ∧ (src[start]? = some '/' → start + 1 < lo) := by
  have hb := opaqueEnd?_bounds h.passed
  cases h with
  | string char quote close =>
    refine ⟨by omega, by omega, hb.2, fun hslash => ?_⟩
    cases char.symm.trans hslash
    exact absurd quote (by decide)
  | block slash star close => exact ⟨by omega, by omega, hb.2, fun _ => by omega⟩
  | line scss outside slash slash' close => exact ⟨by omega, Nat.le_refl _, hb.2, fun _ => by omega⟩

/-- **Two texts differ in the body of one string or comment only**, which the scan passes over in the
head of a statement with a block. -/
inductive OtherBody (d : Dialect) (src src' : Array Char) (start : Nat) : Prop
  | mk {stop depth i j lo hi : Nat} (mem : start ∈ startsFrom d src 0)
      (head : scan d src start = .ok (stop, some '\x7b')) (meets : Meets d src start depth i)
      (body : Body d src depth i j lo hi) (body' : Body d src' depth i j lo hi) (size : src'.size = src.size)
      (same : ∀ k < src.size, k < lo ∨ hi ≤ k → src'[k]? = src[k]?) : OtherBody d src src' start

/-- **Statements and blocks start and end at the same places**, whatever the body is. -/
theorem OtherBody.alongside {start : Nat} (h : OtherBody d src src' start) : Alongside d src src' 0 ∧
    ∀ m ∈ startsFrom d src 0, start < m → bareHead d src' m = bareHead d src m := by
  obtain @⟨stop, depth, i, j, lo, hi, mem, head, meets, body, body', size, same⟩ := h
  obtain ⟨hlo, hhi, hj, hslash⟩ := body.bounds
  have hj' : j ≤ src'.size := by rw [size]; exact hj
  have hle := meets.le
  have hstart := (mem_startsFrom start mem).2.1.lt_size
  have hagree : Agree src src' 0 0 lo := by
    intro k hk
    by_cases hlt : k < src.size
    · rw [Nat.zero_add, same k hlt (.inl hk)]
    · rw [Nat.zero_add, Array.getElem?_eq_none (by omega), Array.getElem?_eq_none (by omega)]
  have hrest : ∀ k, j ≤ k → src'[k]? = src[k]? := by
    intro k hk
    by_cases hlt : k < src.size
    · exact same k hlt (.inr (Nat.le_trans hhi hk))
    · rw [Array.getElem?_eq_none (by omega), Array.getElem?_eq_none (by omega)]
  -- the scan goes on after the body
  have hscan : scan d src start = scanFrom d src depth j := (meets.passed body.passed).scan_eq
  have hscan' : scan d src' start = scanFrom d src' depth j :=
    ((meets.agree hagree hlo).passed body'.passed).scan_eq
  have head' : scan d src' start = .ok (stop, some '\x7b') := by
    rw [hscan', scanFrom_rest hj hj' hrest (Nat.le_refl j), ← hscan, head]
  have hstop : j ≤ stop := (scanFrom_bounds hj (hscan.symm.trans head)).1
  constructor
  · have htrivia := @skipTrivia_agree_rest d _ _ _ _ _ hagree start (by omega)
    rw [Nat.zero_add] at htrivia
    refine alongside_before (hagree.mono (by omega)) (htrivia (fun hc => ?_) (mem_startsFrom start mem).2.2)
      (same start (by omega) (.inl (by omega))) head head' ?_ mem
    · rcases Nat.eq_or_lt_of_le hle with rfl | hlt
      · exact hslash hc
      · omega
    · exact alongside_rest hj hj' hrest (Nat.le_trans hstop (le_resume _ _))
  · intro m hm hlt
    by_cases hbefore : m < resume stop (some '\x7b')
    · exact absurd hm (not_mem_startsFrom mem head hlt hbefore)
    · have := le_resume stop (some '\x7b')
      exact bareHead_rest hj hj' hrest (by omega)

/-- A body of the same kinds of characters leaves the heads as they are read. -/
theorem OtherBody.bareHead {start : Nat} (h : OtherBody d src src' start) (halike : Alike src src') :
    ∀ m ∈ startsFrom d src 0, m ≤ start → bareHead d src' m = bareHead d src m := by
  have hscan := h.alongside.1.startsFrom.2
  obtain @⟨stop, depth, i, j, lo, hi, mem, head, meets, body, -, -, same⟩ := h
  have hsize := (mem_startsFrom start mem).2.1.lt_size
  have hsame (k : Nat) (hk : k ≤ start) : src'[k]? = src[k]? :=
    same k (Nat.lt_of_le_of_lt hk hsize)
      (.inl (Nat.lt_of_le_of_lt (Nat.le_trans hk meets.le) body.bounds.1))
  intro m hm hle
  refine bareHead_alike halike (hscan m hm) (by rw [hsame m hle]) fun stop' c hfound hbrace k hk => ?_
  rcases Nat.eq_or_lt_of_le hle with rfl | hlt
  · -- the head in question has a block
    cases head.symm.trans hfound
    exact absurd rfl hbrace
  · -- a statement before it ends before it
    have hresume : resume stop' c ≤ start :=
      Nat.le_of_not_lt fun hbefore => not_mem_startsFrom hm hfound hlt hbefore mem
    have := le_resume stop' c
    rw [hsame k (by omega)]

/-- **What stands in the strings and comments of a head matters only to the reading of heads.** The
statements of both texts start at the same places, and their heads end there. If the heads up to the
changed one are read alike, the trees are the same but for their facts, or the faults are the same; and
the trees are the same but for their facts only then. The heads are read alike if the characters are of
the same kinds. -/
theorem parse_otherBody {start : Nat} (h : OtherBody d src src' start) :
    (startsFrom d src' 0 = startsFrom d src 0 ∧ ∀ m ∈ startsFrom d src 0, scan d src' m = scan d src m) ∧
    ((∀ m ∈ startsFrom d src 0, m ≤ start → bareHead d src' m = bareHead d src m) →
      (parse d src').map Node.bare = (parse d src).map Node.bare) ∧
    (∀ tree tree', parse d src = .ok tree → parse d src' = .ok tree' → tree'.bare = tree.bare →
      ∀ m ∈ startsFrom d src 0, bareHead d src' m = bareHead d src m) ∧
    (Alike src src' → (parse d src').map Node.bare = (parse d src).map Node.bare) := by
  obtain ⟨halong, hafter⟩ := h.alongside
  have hsize : src'.size = src.size := by
    obtain ⟨-, -, -, -, -, size, -⟩ := h
    exact size
  have hparse (hheads : ∀ m ∈ startsFrom d src 0, m ≤ start → bareHead d src' m = bareHead d src m) :
      (parse d src').map Node.bare = (parse d src).map Node.bare := by
    refine parse_alongside halong hsize fun m hm => ?_
    rcases Nat.lt_or_ge start m with hlt | hle
    · exact hafter m hm hlt
    · exact hheads m hm hle
  refine ⟨halong.startsFrom, hparse, ?_, fun halike => hparse (h.bareHead halike)⟩
  intro tree tree' htree htree' hbare
  exact heads_of_parse htree htree' hbare

theorem parse_otherBody_comment :
    OtherBody .css "a/*b*/,.c\x7b\x7d".toList.toArray "a/*d*/,.c\x7b\x7d".toList.toArray 0 ∧
      Alike "a/*b*/,.c\x7b\x7d".toList.toArray "a/*d*/,.c\x7b\x7d".toList.toArray ∧
      (parse .css "a/*d*/,.c\x7b\x7d".toList.toArray).map Node.bare =
        (parse .css "a/*b*/,.c\x7b\x7d".toList.toArray).map Node.bare := by
  have meets : Meets .css "a/*b*/,.c\x7b\x7d".toList.toArray 0 0 1 :=
    .goesOn (c := 'a') .start (by decide +kernel) (by decide) rfl rfl (by decide)
  have body : Body .css "a/*b*/,.c\x7b\x7d".toList.toArray 0 1 6 3 4 :=
    .block (by decide) (by decide) (by decide +kernel)
  have body' : Body .css "a/*d*/,.c\x7b\x7d".toList.toArray 0 1 6 3 4 :=
    .block (by decide) (by decide) (by decide +kernel)
  have h : OtherBody .css "a/*b*/,.c\x7b\x7d".toList.toArray "a/*d*/,.c\x7b\x7d".toList.toArray 0 :=
    @OtherBody.mk _ _ _ _ 9 _ _ _ _ _ (by decide +kernel) (by decide +kernel) meets body body' (by decide)
      (by decide)
  have halike : Alike "a/*b*/,.c\x7b\x7d".toList.toArray "a/*d*/,.c\x7b\x7d".toList.toArray := by
    decide +kernel
  exact ⟨h, halike, (parse_otherBody h).2.2.2 halike⟩

/-- **A body can make a text unreadable**: a quote in a comment opens a string for those who split the
head, and so does a quote behind a bracket in a string. -/
theorem otherBody_unreadable :
    (OtherBody .css "a /* x */ \x7b \x7d".toList.toArray "a /* ' */ \x7b \x7d".toList.toArray 0 ∧
      (∃ tree, parse .css "a /* x */ \x7b \x7d".toList.toArray = .ok tree) ∧
      parse .css "a /* ' */ \x7b \x7d".toList.toArray = .error ⟨5, .unterminatedString⟩) ∧
    OtherBody .css "a[b=\"x'\"] \x7b \x7d".toList.toArray "a[b=\"]'\"] \x7b \x7d".toList.toArray 0 ∧
      (∃ tree, parse .css "a[b=\"x'\"] \x7b \x7d".toList.toArray = .ok tree) ∧
      parse .css "a[b=\"]'\"] \x7b \x7d".toList.toArray = .error ⟨6, .unterminatedString⟩ := by
  have hok {t : Array Char} (h : (parse .css t).toOption.isSome = true) : ∃ tree, parse .css t = .ok tree := by
    obtain ⟨tree, htree⟩ := Option.isSome_iff_exists.1 h
    exact ⟨tree, toOption_eq_some.1 htree⟩
  refine ⟨⟨?_, hok (by decide +kernel), map_error (f := fun _ => ()) (by decide +kernel)⟩,
    ?_, hok (by decide +kernel), map_error (f := fun _ => ()) (by decide +kernel)⟩
  · have meets : Meets .css "a /* x */ \x7b \x7d".toList.toArray 0 0 1 :=
      .goesOn (c := 'a') .start (by decide +kernel) (by decide) rfl rfl (by decide)
    have meets : Meets .css "a /* x */ \x7b \x7d".toList.toArray 0 0 2 :=
      .goesOn (c := ' ') meets (by decide +kernel) (by decide) rfl rfl (by decide)
    have body : Body .css "a /* x */ \x7b \x7d".toList.toArray 0 2 9 4 7 :=
      .block (by decide) (by decide) (by decide +kernel)
    have body' : Body .css "a /* ' */ \x7b \x7d".toList.toArray 0 2 9 4 7 :=
      .block (by decide) (by decide) (by decide +kernel)
    exact @OtherBody.mk _ _ _ _ 10 _ _ _ _ _ (by decide +kernel) (by decide +kernel) meets body body' (by decide)
      (by decide)
  · have meets : Meets .css "a[b=\"x'\"] \x7b \x7d".toList.toArray 0 0 1 :=
      .goesOn (c := 'a') .start (by decide +kernel) (by decide) rfl rfl (by decide)
    have meets : Meets .css "a[b=\"x'\"] \x7b \x7d".toList.toArray 0 1 2 :=
      .opens (c := '[') meets (by decide +kernel) (by decide) rfl
    have meets : Meets .css "a[b=\"x'\"] \x7b \x7d".toList.toArray 0 1 3 :=
      .goesOn (c := 'b') meets (by decide +kernel) (by decide) rfl rfl (by decide)
    have meets : Meets .css "a[b=\"x'\"] \x7b \x7d".toList.toArray 0 1 4 :=
      .goesOn (c := '=') meets (by decide +kernel) (by decide) rfl rfl (by decide)
    have body : Body .css "a[b=\"x'\"] \x7b \x7d".toList.toArray 1 4 8 5 7 :=
      .string (c := '"') (by decide) rfl (by decide +kernel)
    have body' : Body .css "a[b=\"]'\"] \x7b \x7d".toList.toArray 1 4 8 5 7 :=
      .string (c := '"') (by decide) rfl (by decide +kernel)
    exact @OtherBody.mk _ _ _ _ 10 _ _ _ _ _ (by decide +kernel) (by decide +kernel) meets body body' (by decide)
      (by decide)

end HouseStyle.Stylesheet
