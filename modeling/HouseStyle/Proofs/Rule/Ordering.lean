import HouseStyle.Proofs.Rule.Slots
import HouseStyle.Proofs.Text.Selection
import Mathlib.Algebra.GroupWithZero.Nat

/-!
# The order of a block

* `byRank_sorted`, `byRank_stable`, `byRank_eq`: statements put in order, one group after the other.
* `apply_of_fix`: the edit that puts the children of a block in order refills its slots.
* `inRankOrder_of_refill`: a block that this leaves as it was is in order.
-/

namespace HouseStyle.PropertyOrder

open Stylesheet
open Node (walkList)

variable {d : Dialect} {t : Source}

/-- Statements in the order of their groups. -/
def byRank (ms : List Node) : List Node :=
  ms.mergeSort fun a b => decide (rankOf a ≤ rankOf b)

theorem ordered_eq (block : Node) : ordered block = byRank (block.children.filter isMovable) := rfl

/-- Statements of earlier groups come before those of later ones. -/
def InRankOrder (ms : List Node) : Prop :=
  ms.Pairwise fun a b => rankOf a ≤ rankOf b

theorem rank_trans (a b c : Node) (hab : decide (rankOf a ≤ rankOf b) = true)
    (hbc : decide (rankOf b ≤ rankOf c) = true) : decide (rankOf a ≤ rankOf c) = true := by
  rw [decide_eq_true_eq] at hab hbc ⊢
  exact Nat.le_trans hab hbc

theorem rank_total (a b : Node) :
    (decide (rankOf a ≤ rankOf b) || decide (rankOf b ≤ rankOf a)) = true := by
  rw [Bool.or_eq_true, decide_eq_true_eq, decide_eq_true_eq]
  exact Nat.le_total _ _

theorem byRank_perm (ms : List Node) : (byRank ms).Perm ms :=
  List.mergeSort_perm _ _

theorem length_byRank (ms : List Node) : (byRank ms).length = ms.length :=
  (byRank_perm ms).length_eq

theorem mem_byRank {ms : List Node} {m : Node} : m ∈ byRank ms ↔ m ∈ ms :=
  (byRank_perm ms).mem_iff

theorem byRank_sorted (ms : List Node) : InRankOrder (byRank ms) := by
  have := List.pairwise_mergeSort rank_trans rank_total ms
  exact this.imp fun h => by simpa using h

/-- The first statement in order is of the least group there is. -/
theorem byRank_first (m : Node) (ms : List Node) :
    ∃ q qs, byRank (m :: ms) = q :: qs ∧ q ∈ m :: ms ∧ ∀ x ∈ m :: ms, rankOf q ≤ rankOf x := by
  have hsorted := byRank_sorted (m :: ms)
  have hlen := length_byRank (m :: ms)
  cases hqs : byRank (m :: ms) with
  | nil =>
    rw [hqs] at hlen
    cases hlen
  | cons q qs =>
    rw [hqs] at hsorted
    refine ⟨q, qs, rfl, ?_, fun x hx => ?_⟩
    · rw [← mem_byRank, hqs]
      exact List.mem_cons_self
    · rw [← mem_byRank, hqs] at hx
      rcases List.mem_cons.1 hx with rfl | hx
      · exact Nat.le_refl _
      · exact List.rel_of_pairwise_cons hsorted hx

/-- The last statement in order is of the greatest group there is. -/
theorem byRank_last {m : Node} {ms : List Node} (hm : m ∈ ms) :
    ∃ qs q, byRank ms = qs ++ [q] ∧ q ∈ ms ∧ ∀ x ∈ ms, rankOf x ≤ rankOf q := by
  have hsorted := byRank_sorted ms
  rcases List.eq_nil_or_concat (byRank ms) with hnil | ⟨qs, q, hqs⟩
  · rw [← mem_byRank, hnil] at hm
    cases hm
  · rw [List.concat_eq_append] at hqs
    rw [hqs] at hsorted
    refine ⟨qs, q, hqs, ?_, fun x hx => ?_⟩
    · rw [← mem_byRank, hqs]
      exact List.mem_append_right _ (List.mem_singleton_self q)
    · rw [← mem_byRank, hqs] at hx
      rcases List.mem_append.1 hx with hx | hx
      · exact (List.pairwise_append.1 hsorted).2.2 x hx q (List.mem_singleton_self q)
      · have hxq : x = q := List.mem_singleton.1 hx
        exact Nat.le_of_eq (congrArg rankOf hxq)

/-- **Statements of one group stay in their order.** -/
theorem byRank_stable (ms : List Node) (k : Nat) :
    (byRank ms).filter (fun m => rankOf m = k) = ms.filter fun m => rankOf m = k := by
  set group := ms.filter fun m => rankOf m = k with hgroup
  have hrank : ∀ m ∈ group, rankOf m = k := by
    intro m hm
    rw [hgroup, List.mem_filter] at hm
    exact of_decide_eq_true hm.2
  have hpair : group.Pairwise fun a b => decide (rankOf a ≤ rankOf b) = true := by
    refine List.pairwise_of_forall_mem_list fun a ha b hb => ?_
    have hab : rankOf a = rankOf b := (hrank a ha).trans (hrank b hb).symm
    exact decide_eq_true (Nat.le_of_eq hab)
  have hsub : group.Sublist (byRank ms) :=
    List.sublist_mergeSort rank_trans rank_total hpair List.filter_sublist
  have hfilter : group.filter (fun m => rankOf m = k) = group :=
    List.filter_eq_self.2 fun m hm => decide_eq_true (hrank m hm)
  have hlen : group.length = ((byRank ms).filter fun m => rankOf m = k).length :=
    ((byRank_perm ms).filter _).length_eq.symm
  have := hsub.filter fun m => rankOf m = k
  rw [hfilter] at this
  exact (this.eq_of_length hlen).symm

theorem rankOf_le (n : Node) : rankOf n ≤ 2 := by
  unfold rankOf
  cases bucket? n with
  | none => exact Nat.zero_le 2
  | some b => cases b <;> decide

/-- Among statements in order those of a group come first of all that are not before it. -/
theorem filter_rank {ms : List Node} (h : InRankOrder ms) (k : Nat) :
    ms.filter (fun m => k ≤ rankOf m) =
      ms.filter (fun m => rankOf m = k) ++ ms.filter fun m => k + 1 ≤ rankOf m := by
  induction ms with
  | nil => rfl
  | cons m ms ih =>
    obtain ⟨hle, hms⟩ := List.pairwise_cons.1 h
    rcases Nat.lt_trichotomy (rankOf m) k with hlt | heq | hgt
    · rw [List.filter_cons_of_neg (by simp; omega), List.filter_cons_of_neg (by simp; omega),
        List.filter_cons_of_neg (by simp; omega)]
      exact ih hms
    · rw [List.filter_cons_of_pos (by simp; omega), List.filter_cons_of_pos (by simp; omega),
        List.filter_cons_of_neg (by simp; omega), List.cons_append, ih hms]
    · -- no statement of the group is left
      have hnone : ms.filter (fun m => rankOf m = k) = [] := by
        refine List.filter_eq_nil_iff.2 fun x hx => ?_
        have := hle x hx
        rw [decide_eq_true_eq]
        omega
      have := ih hms
      rw [hnone, List.nil_append] at this
      rw [List.filter_cons_of_pos (by simp; omega), List.filter_cons_of_neg (by simp; omega),
        List.filter_cons_of_pos (by simp; omega), hnone, List.nil_append, this]

/-- Statements of the three groups, one group after the other. -/
def inGroups (ms : List Node) : List Node :=
  ms.filter (fun m => rankOf m = 0) ++
    (ms.filter (fun m => rankOf m = 1) ++ ms.filter fun m => rankOf m = 2)

/-- **Statements in order are those of the three groups, one group after the other.** -/
theorem byRank_eq (ms : List Node) : byRank ms = inGroups ms := by
  have hsorted := byRank_sorted ms
  have hall : (byRank ms).filter (fun m => 0 ≤ rankOf m) = byRank ms :=
    List.filter_eq_self.2 fun m _ => decide_eq_true (Nat.zero_le _)
  have hlast : (byRank ms).filter (fun m => 1 + 1 ≤ rankOf m) = (byRank ms).filter fun m => rankOf m = 2 := by
    refine List.filter_congr fun m _ => ?_
    have := rankOf_le m
    rw [decide_eq_decide]
    omega
  rw [← hall, filter_rank hsorted 0, filter_rank hsorted 1, hlast, byRank_stable, byRank_stable,
    byRank_stable]
  rfl

/-- A statement of the first group there is comes first. -/
theorem byRank_cons {m : Node} {ms : List Node} (h : ∀ x ∈ ms, rankOf m ≤ rankOf x) :
    byRank (m :: ms) = m :: byRank ms := by
  obtain ⟨before, after, hcons, hrest, hbefore⟩ := List.mergeSort_cons rank_trans rank_total m ms
  cases before with
  | nil =>
    rw [byRank, hcons, byRank, hrest]
    rfl
  | cons x before =>
    have hx : x ∈ ms := by
      have hmem : x ∈ ms.mergeSort fun a b => decide (rankOf a ≤ rankOf b) := by
        rw [hrest]
        exact List.mem_cons_self
      exact List.mem_mergeSort.1 hmem
    have := hbefore x List.mem_cons_self
    rw [decide_eq_true (h x hx)] at this
    cases this

/-! ### Where the slots stand -/

/-- Statements stand one after the other, from `old` on. -/
def Stands (t : Source) : Nat → List Node → Prop
  | old, [] => old ≤ t.size
  | old, m :: ms => old ≤ m.span.start ∧ m.span.start < m.span.stop ∧ m.span.stop ≤ t.size ∧
      Stands t m.span.stop ms

theorem Stands.mono {old old' : Nat} {ms : List Node} (h : Stands t old ms) (hle : old' ≤ old) :
    Stands t old' ms := by
  cases ms with
  | nil => exact Nat.le_trans hle h
  | cons m ms => exact ⟨Nat.le_trans hle h.1, h.2⟩

theorem Stands.filter {ms : List Node} (p : Node → Bool) :
    ∀ {old : Nat}, Stands t old ms → Stands t old (ms.filter p) := by
  induction ms with
  | nil => exact id
  | cons m ms ih =>
    intro old h
    by_cases hp : p m = true
    · rw [List.filter_cons_of_pos hp]
      exact ⟨h.1, h.2.1, h.2.2.1, ih h.2.2.2⟩
    · rw [List.filter_cons_of_neg hp]
      have := h.1
      have := h.2.1
      exact (ih h.2.2.2).mono (by omega)

/-- The last of some statements ends behind the start of the first. -/
theorem Stands.last {ms : List Node} : ∀ {old : Nat} {m : Node}, Stands t old (m :: ms) →
    m.span.start < (ms.getLastD m).span.stop ∧ (ms.getLastD m).span.stop ≤ t.size := by
  induction ms with
  | nil => exact fun h => ⟨h.2.1, h.2.2.1⟩
  | cons x ms ih =>
    intro old m h
    have hlt := h.2.1
    have hle := h.2.2.2.1
    obtain ⟨h1, h2⟩ := ih h.2.2.2
    rw [List.getLastD_cons]
    exact ⟨by omega, h2⟩

theorem stands_of_reads {depth r : Nat} {ns : List Node} : ∀ {p : Nat}, Reads d t.chars depth p ns r →
    p ≤ t.size → Stands t p ns := by
  induction ns with
  | nil => exact fun _ hp => hp
  | cons m ns ih =>
    intro p h hp
    obtain ⟨hitem, hle⟩ := h.items hp m List.mem_cons_self
    have hb := hitem.bounds
    refine ⟨hle, hb.1, hb.2.1, ?_⟩
    obtain ⟨before, -, -, -, ⟨-, -, hrest⟩ | ⟨-, rfl, -⟩⟩ := h.uncons hp
    · exact ih hrest hb.2.1
    · exact hb.2.1

theorem stop_le_of_reads {depth r : Nat} {ns : List Node} : ∀ {p : Nat}, Reads d t.chars depth p ns r →
    p ≤ t.size → ∀ m ∈ ns, m.span.stop ≤ r := by
  induction ns with
  | nil => exact fun _ _ _ hm => nomatch hm
  | cons x ns ih =>
    intro p h hp m hm
    have hx := ((h.items hp x List.mem_cons_self).1).bounds.2.1
    obtain ⟨before, -, -, -, ⟨-, -, hrest⟩ | ⟨-, rfl, -, hskip, -⟩⟩ := h.uncons hp
    · rcases List.mem_cons.1 hm with rfl | hm
      · exact (hrest.bounds hx).1
      · exact ih hrest hx m hm
    · rw [List.mem_singleton.1 hm]
      exact (skipTrivia_bounds hskip).1

/-! ### The text of the edit -/

theorem interleave_cons (a b g : List Char) (rest gs : List (List Char)) :
    interleave (a :: b :: rest) (g :: gs) = a ++ g ++ interleave (b :: rest) gs := rfl

theorem refill_eq_interleave {ms : List Node} : ∀ {m q : Node} {qs : List Node}, qs.length = ms.length →
    statementText t q ++ refill t m.span.stop ms qs =
      interleave ((q :: qs).map (statementText t)) (gaps t (m :: ms)) ++
        t.chars.toList.drop (ms.getLastD m).span.stop := by
  induction ms with
  | nil =>
    intro m q qs hlen
    obtain rfl := List.length_eq_zero_iff.1 hlen
    rw [refill_nil, List.getLastD_nil]
    rfl
  | cons m' ms ih =>
    intro m q qs hlen
    cases qs with
    | nil => cases hlen
    | cons q' qs =>
      rw [refill, ih (Nat.succ.inj hlen), List.getLastD_cons, gaps, List.map_cons, List.map_cons,
        List.map_cons, interleave_cons, List.append_assoc, List.append_assoc]

theorem take_append_slice {cs : Array Char} {p q : Nat} (h : p ≤ q) :
    cs.toList.take p ++ (cs.extract p q).toList = cs.toList.take q := by
  rw [Array.toList_extract, List.extract_eq_take_drop]
  rw [show q = p + (q - p) by omega, List.take_add, Nat.add_sub_cancel_left]

/-- What the edit of the rule is like. -/
theorem fix_shape {c : Context} {e : Edit} (h : fix c = some e) : ∃ m ms, movable c.scope.parent = m :: ms ∧
    e.span = .between m.span.start (ms.getLastD m).span.stop ∧
    e.replacement.toList = interleave ((byRank (m :: ms)).map (statementText c.text)) (gaps c.text (m :: ms)) := by
  simp only [fix] at h
  split at h
  · rename_i m m' ms hms
    split at h
    · cases h
    · cases h
      refine ⟨m, m' :: ms, hms, by rw [List.getLastD_cons, List.getLastD_cons], ?_⟩
      rw [String.toList_ofList, hms, ← hms]
      rfl
  · cases h

/-- A statement stands in the first slot of a block that has one. -/
theorem ordered_cons {block m : Node} {ms : List Node} (h : movable block = m :: ms) :
    ∃ q qs, ordered block = q :: qs ∧ byRank (m :: ms) = q :: qs ∧ qs.length = ms.length := by
  obtain ⟨q, qs, hqs, -, -⟩ := byRank_first m ms
  have hordered : ordered block = byRank (m :: ms) := by
    rw [← h]
    rfl
  have hlen := length_byRank (m :: ms)
  rw [hqs] at hlen
  exact ⟨q, qs, hordered.trans hqs, hqs, Nat.succ.inj hlen⟩

/-- **The edit that puts the children of a block in order refills its slots.** -/
theorem apply_of_fix {c : Context} {e : Edit} {old : Nat} (hfix : fix c = some e)
    (hstands : Stands c.text old (movable c.scope.parent)) :
    Edit.applyAll c.text.chars.toList [e] = .ok (c.text.chars.toList.take old ++
      refill c.text old (movable c.scope.parent) (ordered c.scope.parent)) := by
  set t := c.text
  have hs : t.size = t.chars.size := rfl
  obtain ⟨m, ms, hms, hspan, hreplacement⟩ := fix_shape hfix
  rw [hms] at hstands
  obtain ⟨hstop, hsize⟩ := hstands.last
  obtain ⟨q, qs, hordered, hqs, hlen⟩ := ordered_cons hms
  have hmax : max m.span.start (ms.getLastD m).span.stop = (ms.getLastD m).span.stop :=
    Nat.max_eq_right (Nat.le_of_lt hstop)
  have hin : e.span.stop ≤ t.chars.toList.length := by
    rw [hspan, Span.between_stop, hmax, Array.length_toList]
    omega
  rw [Edit.applyAll_singleton hin, Edit.splice, hspan, Span.between_start, Span.between_stop, hmax,
    hreplacement, hms, hordered, hqs, refill, refill_eq_interleave hlen, ← List.append_assoc,
    Source.sliceChars, ← List.append_assoc, take_append_slice hstands.1, List.append_assoc]

/-- An edit is offered unless it would leave the text as it is. -/
theorem exists_fix {c : Context} {old : Nat} {m m' : Node} {ms : List Node}
    (hmovable : movable c.scope.parent = m :: m' :: ms) (hstands : Stands c.text old (m :: m' :: ms))
    (hne : refill c.text old (m :: m' :: ms) (byRank (m :: m' :: ms)) ≠ c.text.chars.toList.drop old) :
    ∃ e, fix c = some e := by
  set t := c.text
  -- the last slot, with which the edit ends
  set last := (m' :: ms).getLastD m' with hlast
  have hlastD : (m' :: ms).getLastD m = last := by
    rw [hlast, List.getLastD_cons, List.getLastD_cons]
  have hstop := hstands.last.1
  rw [hlastD] at hstop
  obtain ⟨q, qs, hordered, hqs, hlen⟩ := ordered_cons hmovable
  have htext := refill_eq_interleave (t := t) (m := m) (q := q) hlen
  rw [hlastD] at htext
  rw [hqs, refill, htext] at hne
  simp only [fix, hmovable, hordered]
  rw [if_neg]
  · exact ⟨_, rfl⟩
  · intro hsame
    refine hne ?_
    rw [hsame, ← hlast, Source.sliceChars_append_drop (Nat.le_of_lt hstop),
      Source.sliceChars_append_drop hstands.1]

/-! ### A block that stays as it was -/

theorem length_refill {ms : List Node} : ∀ {old : Nat} {queue : List Node}, Stands t old ms →
    queue.length = ms.length → (refill t old ms queue).length + (ms.map fun m => m.span.length).sum =
      t.size - old + (queue.map fun q => (statementText t q).length).sum := by
  have hs : t.size = t.chars.size := rfl
  induction ms with
  | nil =>
    intro old queue _ hlen
    rw [List.length_eq_zero_iff.1 hlen, refill_nil, List.length_drop, Array.length_toList]
    rfl
  | cons m ms ih =>
    intro old queue h hlen
    cases queue with
    | nil => cases hlen
    | cons q queue =>
      have := ih h.2.2.2 (Nat.succ.inj hlen)
      obtain ⟨h1, h2, h3, -⟩ := h
      rw [refill, List.length_append, List.length_append, Source.length_sliceChars (by omega), List.map_cons,
        List.map_cons, List.sum_cons, List.sum_cons, Span.length]
      omega

theorem length_statementText {m : Node} (h : m.span.stop ≤ t.size) :
    m.span.length ≤ (statementText t m).length ∧
      ((statementText t m).length ≤ m.span.length →
        statementText t m = t.sliceChars m.span.start m.span.stop) := by
  rcases statementText_cases t m with heq | heq
  · rw [heq, Source.length_sliceChars h]
    exact ⟨Nat.le_refl _, fun _ => rfl⟩
  · rw [heq, List.length_append, Source.length_sliceChars h, Span.length, List.length_singleton]
    exact ⟨Nat.le_succ _, fun hle => absurd hle (by omega)⟩

/-- Where the terms of a sum are not greater than those of another that is not greater,
they are equal. -/
theorem le_of_sum_le {ms : List Node} {f g : Node → Nat} (hle : ∀ m ∈ ms, f m ≤ g m) :
    (ms.map f).sum ≤ (ms.map g).sum ∧
      ((ms.map g).sum ≤ (ms.map f).sum → ∀ m ∈ ms, g m ≤ f m) := by
  induction ms with
  | nil => exact ⟨Nat.le_refl _, fun _ _ hm => nomatch hm⟩
  | cons x ms ih =>
    obtain ⟨hrest, hterms⟩ := ih fun m hm => hle m (List.mem_cons_of_mem _ hm)
    have hx := hle x List.mem_cons_self
    simp only [List.map_cons, List.sum_cons]
    refine ⟨by omega, fun hsum m hm => ?_⟩
    rcases List.mem_cons.1 hm with rfl | hm
    · omega
    · exact hterms (by omega) m hm

theorem Stands.bounds {ms : List Node} : ∀ {old : Nat}, Stands t old ms → ∀ m ∈ ms,
    old ≤ m.span.start ∧ m.span.start < m.span.stop ∧ m.span.stop ≤ t.size := by
  induction ms with
  | nil => exact fun _ _ hm => nomatch hm
  | cons x ms ih =>
    intro old h m hm
    rcases List.mem_cons.1 hm with rfl | hm
    · exact ⟨h.1, h.2.1, h.2.2.1⟩
    · have h1 := h.1
      have h2 := h.2.1
      have := ih h.2.2.2 m hm
      omega

/-- If the text stays as it was, no statement was given a semicolon. -/
theorem statementText_of_refill {old : Nat} {ms : List Node} (h : Stands t old ms)
    (hsame : refill t old ms (byRank ms) = t.chars.toList.drop old) :
    ∀ m ∈ ms, statementText t m = t.sliceChars m.span.start m.span.stop := by
  have hlen := length_refill h (length_byRank ms)
  have hs : t.size = t.chars.size := rfl
  rw [hsame, List.length_drop, Array.length_toList, ← hs,
    ((byRank_perm ms).map fun q => (statementText t q).length).sum_nat] at hlen
  intro m hm
  refine (length_statementText (h.bounds m hm).2.2).2 ?_
  exact (le_of_sum_le fun m hm => (length_statementText (h.bounds m hm).2.2).1).2 (by omega) m hm

theorem refill_append {ms : List Node} : ∀ (old : Nat) {queue : List Node} (m q : Node),
    queue.length = ms.length → ∃ before, refill t old (ms ++ [m]) (queue ++ [q]) =
      before ++ (statementText t q ++ t.chars.toList.drop m.span.stop) := by
  induction ms with
  | nil =>
    intro old queue m q hlen
    obtain rfl := List.length_eq_zero_iff.1 hlen
    exact ⟨_, rfl⟩
  | cons x ms ih =>
    intro old queue m q hlen
    cases queue with
    | nil => cases hlen
    | cons y queue =>
      obtain ⟨before, hbefore⟩ := ih x.span.stop m q (Nat.succ.inj hlen)
      refine ⟨t.sliceChars old x.span.start ++ (statementText t y ++ before), ?_⟩
      rw [List.cons_append, List.cons_append, refill, hbefore, List.append_assoc, List.append_assoc]

/-- If the text stays as it was, the last statement ends as the last one in order does. -/
theorem getLast?_of_refill {old : Nat} {ms qs : List Node} {m q : Node} {c c' : Char}
    (h : Stands t old (ms ++ [m])) (hlen : qs.length = ms.length)
    (hsame : refill t old (ms ++ [m]) (qs ++ [q]) = t.chars.toList.drop old)
    (hq : (statementText t q).getLast? = some c)
    (hm : (t.sliceChars m.span.start m.span.stop).getLast? = some c') : c = c' := by
  obtain ⟨before, hbefore⟩ := refill_append (t := t) old m q hlen
  obtain ⟨hle, hlt, -⟩ := h.bounds m (List.mem_append_right _ (List.mem_singleton_self m))
  have htext : t.sliceChars old m.span.start ++ t.sliceChars m.span.start m.span.stop =
      before ++ statementText t q := by
    rw [hsame, ← Source.sliceChars_append_drop hle, ← Source.sliceChars_append_drop (Nat.le_of_lt hlt),
      ← List.append_assoc, ← List.append_assoc] at hbefore
    exact List.append_cancel_right hbefore
  have hlast := congrArg List.getLast? htext
  rw [List.getLast?_append, List.getLast?_append, hq, hm, Option.some_or, Option.some_or] at hlast
  exact (Option.some.inj hlast).symm

/-! ### What a statement shows of its group -/

theorem bucket_of_headNode {start headStop stop : Nat} {block : Option Node} {src : Array Char} {m : Node}
    (h : headNode src start headStop stop block = .ok m) :
    (∃ name prelude mixin, src[start]? = some '@' ∧
      m.label = .style (.atRule name prelude mixin block.isSome)) ∨
      src[start]? ≠ some '@' ∧ bucket? m = some (if block.isSome then .nested else .declarations) := by
  unfold headNode at h
  split at h
  · rename_i hat
    obtain ⟨name, prelude, mixin, rfl⟩ := atRule_shape h
    exact .inl ⟨name, prelude, mixin, hat, rfl⟩
  · rename_i hat
    split at h
    · obtain ⟨list, -, rfl⟩ := rule_shape h
      exact .inr ⟨hat, rfl⟩
    · obtain ⟨property, value, important, name, propertyStop, valueStart, rfl⟩ := declaration_shape h
      exact .inr ⟨hat, rfl⟩

/-- Statements that begin alike are of one group, if they are no blocks. -/
theorem rank_of_char {depth : Nat} {m : Node} (h : Item d t.chars depth m) (hm : isMovable m = true) :
    rankOf m = 2 ∨ rankOf m = if t.chars[m.span.start]? = some '@' then 1 else 0 := by
  have hhead : ∃ headStop stop block, headNode t.chars m.span.start headStop stop block = .ok m := by
    cases h with
    | closed _ _ _ node => exact ⟨_, _, _, node⟩
    | unclosed _ _ _ _ node => exact ⟨_, _, _, node⟩
    | nested _ _ _ _ _ _ node => exact ⟨_, _, _, node⟩
  obtain ⟨headStop, stop, block, node⟩ := hhead
  rcases bucket_of_headNode node with ⟨name, prelude, mixin, hat, hlabel⟩ | ⟨hat, hbucket⟩
  · rw [if_pos hat]
    unfold isMovable at hm
    unfold rankOf
    simp only [bucket?, hlabel] at hm ⊢
    by_cases hname : name = "include"
    · rw [if_pos hname]
      exact .inr rfl
    · rw [if_neg hname] at hm ⊢
      by_cases hb : block.isSome = true
      · rw [if_pos hb]
        exact .inl rfl
      · rw [if_neg hb] at hm
        cases hm
  · rw [if_neg hat, rankOf, hbucket]
    cases block with
    | none => exact .inr rfl
    | some b => exact .inl rfl

/-- A nested block ends with its brace. -/
theorem getLast?_of_rank {depth : Nat} {m : Node} (h : Item d t.chars depth m) (hrank : rankOf m = 2) :
    (t.sliceChars m.span.start m.span.stop).getLast? = some '}' := by
  have hb := h.bounds
  have hblock : isBlockless m = false := by
    unfold rankOf bucket? at hrank
    unfold isBlockless
    split at hrank
    · cases hrank
    · rename_i hlabel; rw [hlabel]
    · rename_i name prelude mixin hasBlock hlabel
      rw [hlabel]
      split at hrank
      · cases hrank
      · split at hrank
        · rename_i hb; rw [hb]; rfl
        · cases hrank
    · cases hrank
  rw [Source.getLast?_sliceChars hb.1 hb.2.1]
  cases h with
  | closed _ _ _ node => rw [isBlockless_of_headNode node] at hblock; cases hblock
  | unclosed _ _ _ _ node => rw [isBlockless_of_headNode node] at hblock; cases hblock
  | @nested _ brace last close _ _ _ starts head inner trivia char node =>
    obtain ⟨hle, -, hbrace⟩ := starts.scan_bounds head
    have hlast := (inner.bounds (Array.getElem?_eq_some_iff.1 hbrace).1).1
    have hclose := (skipTrivia_bounds trivia).1
    rw [headNode_stop (le_trimEnd hle) (by omega) node]
    exact char

/-- An unclosed statement that was not given a semicolon shows one at its end. -/
theorem getLast?_of_unclosed {depth : Nat} {m : Node} (h : Item d t.chars depth m)
    (hun : Unclosed d t.chars m) (htext : statementText t m = t.sliceChars m.span.start m.span.stop) :
    (t.sliceChars m.span.start m.span.stop).getLast? = some ';' := by
  by_contra hne
  have hcond : (isBlockless m && (t.sliceChars m.span.start m.span.stop).getLast? != some ';') = true := by
    rw [isBlockless_of_unclosed h hun, Bool.true_and, bne_iff_ne]
    exact hne
  unfold statementText at htext
  simp only [hcond, if_true] at htext
  have := congrArg List.length htext
  rw [List.length_append, List.length_singleton] at this
  omega

theorem bucket_of_label {m q : Node} (h : m.label = q.label) : bucket? m = bucket? q := by
  unfold bucket?
  rw [h]

/-- Heads that read alike are of one group. -/
theorem bucket_of_heads {a b n stop stop' e e' : Nat} {c c' : Option Char} {src src' : Array Char}
    {block block' : Option Node} {m q : Node} (h : Agree src src' a b n) (starts : Starts src a)
    (head : Stylesheet.scan d src a = .ok (stop, c)) (hstop : stop < a + n)
    (node : headNode src a (trimEnd src a stop) e block = .ok q)
    (head' : Stylesheet.scan d src' b = .ok (stop', c'))
    (node' : headNode src' b (trimEnd src' b stop') e' block' = .ok m)
    (hblock : block'.isSome = block.isSome) :
    bucket? m = bucket? q := by
  obtain ⟨hscan, -, parts, hshape, hnode⟩ :=
    head_move h (Nat.le_refl a) hstop starts head block' hblock node
  rw [Nat.sub_self, Nat.add_zero] at hscan hnode
  cases head'.symm.trans hscan
  have hat : src'[b]? = src[a]? := (h 0 (by have := (starts.scan_bounds head).1; omega)).symm
  rcases bucket_of_headNode node with ⟨name, prelude, mixin, hc, -⟩ | ⟨hc, hbucket⟩
  · -- an at-rule has no selectors
    unfold headNode at node
    rw [if_pos hc] at node
    obtain ⟨_, _, _, hq⟩ := atRule_shape node
    have hparts : parts = [] := by
      have := congrArg Node.children (hq.symm.trans hshape)
      exact List.append_cancel_right (this.symm.trans (List.nil_append _).symm)
    subst hparts
    have := hnode e' headsSplit_nil
    rw [node'] at this
    cases this
    rfl
  · rcases bucket_of_headNode node' with ⟨_, _, _, hc', -⟩ | ⟨-, hbucket'⟩
    · exact absurd (hat.symm.trans hc') hc
    · rw [hbucket', hbucket, hblock]

/-- A statement that begins with the text of a closed one is of its group. -/
theorem rank_of_repeat {depth depth' : Nat} {m q : Node} (hm : Item d t.chars depth m)
    (hq : Item d t.chars depth' q) (hc : ¬ Unclosed d t.chars q)
    (h : Agree t.chars t.chars q.span.start m.span.start (q.span.stop - q.span.start)) :
    rankOf m = rankOf q := by
  have hb := hq.bounds
  have hstarts := hq.rest.2
  obtain ⟨-, stop, c, head, hchar, hstop⟩ := hq.of_closed hc
  have hlt : stop < q.span.start + (q.span.stop - q.span.start) := by omega
  -- the head of the one ends as that of the other
  have hscan : Stylesheet.scan d t.chars m.span.start = .ok (m.span.start + (stop - q.span.start), c) := by
    have hle := (hstarts.scan_bounds head).1
    refine scan_agree h (by omega) (Nat.le_of_lt hstarts.lt_size) (Nat.le_of_lt hm.rest.2.lt_size) ?_
    rw [Nat.add_sub_cancel' hle]
    exact head
  have hbucket : bucket? m = bucket? q := by
    cases hq with
    | @closed _ stop₁ _ _ _ head₁ node₁ =>
      cases head.symm.trans head₁
      cases hm with
      | closed _ _ head₂ node₂ => exact bucket_of_heads h hstarts head hlt node₁ head₂ node₂ rfl
      | unclosed _ _ head₂ char =>
        cases head₂.symm.trans hscan
        rcases char with hx | hx <;> cases hx
      | nested _ _ head₂ => cases head₂.symm.trans hscan
    | unclosed _ _ head₁ char => exact absurd ⟨_, _, head₁, char⟩ hc
    | nested _ _ head₁ _ _ _ node₁ =>
      cases head.symm.trans head₁
      cases hm with
      | closed _ _ head₂ => cases head₂.symm.trans hscan
      | unclosed _ _ head₂ char =>
        cases head₂.symm.trans hscan
        rcases char with hx | hx <;> cases hx
      | nested _ _ head₂ _ _ _ node₂ => exact bucket_of_heads h hstarts head hlt node₁ head₂ node₂ rfl
  rw [rankOf, rankOf, hbucket]

/-- In a block that is left as it was no statement is unclosed if one is a nested block:
the last one in order ends with a brace. -/
theorem not_unclosed_of_nested {depth old : Nat} {ms : List Node} (h : Stands t old ms)
    (hitems : ∀ m ∈ ms, Item d t.chars depth m ∧ isMovable m = true)
    (hlast : ∀ m ∈ ms, Unclosed d t.chars m → ms.getLast? = some m)
    (hsame : refill t old ms (byRank ms) = t.chars.toList.drop old)
    (hnested : ∃ x ∈ ms, rankOf x = 2) :
    ∀ m ∈ ms, ¬ Unclosed d t.chars m := by
  intro m hm hun
  have htexts := statementText_of_refill h hsame
  obtain ⟨x, hx, hrank⟩ := hnested
  obtain ⟨front, hfront⟩ := List.getLast?_eq_some_iff.1 (hlast m hm hun)
  obtain ⟨qs, q, hqs, hq, hgreatest⟩ := byRank_last hx
  have hgreatest : 2 ≤ rankOf q := by
    rw [← hrank]
    exact hgreatest x hx
  have hqrank : rankOf q = 2 := by
    rcases rank_of_char (hitems q hq).1 (hitems q hq).2 with h | h
    · exact h
    · split at h <;> omega
  -- so the text would end with a semicolon and with a brace
  have hsemi := getLast?_of_unclosed (hitems m hm).1 hun (htexts m hm)
  have hbrace := getLast?_of_rank (hitems q hq).1 hqrank
  rw [← htexts q hq] at hbrace
  have hlen := length_byRank ms
  rw [hqs, hfront, List.length_append, List.length_append] at hlen
  rw [hqs, hfront] at hsame
  rw [hfront] at h
  cases getLast?_of_refill h (Nat.add_right_cancel hlen) hsame hbrace hsemi

/-- **A block that is left as it was is in order.** By induction on its slots: the
statement that is put in the first slot is of the group of the one that stood there. -/
theorem inRankOrder_of_refill {depth : Nat} {ms : List Node} : ∀ {old : Nat}, Stands t old ms →
    (∀ m ∈ ms, Item d t.chars depth m ∧ isMovable m = true) →
    (∀ m ∈ ms, Unclosed d t.chars m → ms.getLast? = some m) →
    refill t old ms (byRank ms) = t.chars.toList.drop old → InRankOrder ms := by
  induction ms with
  | nil => exact fun _ _ _ _ => List.Pairwise.nil
  | cons m ms ih =>
    intro old hstands hitems hlast hsame
    have htexts := statementText_of_refill hstands hsame
    obtain ⟨q, qs, hqs, hq, hleast⟩ := byRank_first m ms
    obtain ⟨hm, hmm⟩ := hitems m List.mem_cons_self
    obtain ⟨hqi, hqm⟩ := hitems q hq
    have hmb := hstands.bounds m List.mem_cons_self
    have hqb := hstands.bounds q hq
    have hdrop : t.chars.toList.drop m.span.start =
        t.sliceChars q.span.start q.span.stop ++ refill t m.span.stop ms qs := by
      rw [hqs, refill, htexts q hq, ← Source.sliceChars_append_drop hmb.1] at hsame
      exact (List.append_cancel_left hsame).symm
    have hagree := agree_of_drop hqb.2.2 hdrop
    have hrank : rankOf m = rankOf q := by
      by_cases hnested : ∃ x ∈ m :: ms, rankOf x = 2
      · exact rank_of_repeat hm hqi (not_unclosed_of_nested hstands hitems hlast hsame hnested q hq) hagree
      · -- without nested blocks the first character tells the groups apart
        have hmr := (rank_of_char hm hmm).resolve_left fun h => hnested ⟨m, List.mem_cons_self, h⟩
        have hqr := (rank_of_char hqi hqm).resolve_left fun h => hnested ⟨q, hq, h⟩
        have hfirst := hagree 0 (by omega)
        rw [Nat.add_zero, Nat.add_zero] at hfirst
        rw [hmr, hqr, hfirst]
    have hcons : byRank (m :: ms) = m :: byRank ms := by
      refine byRank_cons fun x hx => ?_
      rw [hrank]
      exact hleast x (List.mem_cons_of_mem _ hx)
    -- the first slot keeps its statement, and the rest stays as it was too
    rw [hcons] at hqs
    cases hqs
    refine List.pairwise_cons.2 ⟨fun x hx => hleast x (List.mem_cons_of_mem _ hx), ?_⟩
    refine ih hstands.2.2.2 (fun x hx => hitems x (List.mem_cons_of_mem _ hx)) (fun x hx hun => ?_) ?_
    · have := hlast x (List.mem_cons_of_mem _ hx) hun
      cases ms with
      | nil => cases hx
      | cons y ms => rwa [List.getLast?_cons_cons] at this
    · rw [← Source.sliceChars_append_drop (Nat.le_of_lt hmb.2.1)] at hdrop
      exact (List.append_cancel_left hdrop).symm

end HouseStyle.PropertyOrder
