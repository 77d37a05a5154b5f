import HouseStyle.Text.Edit
import Mathlib.Data.Prod.Lex
import Mathlib.Data.String.Basic

/-!
# The choice of edits

Edits are put in order and kept one by one where they do not overlap what is kept. What is chosen so can be
performed, whatever order it is given in.

* `select_apart`: no two edits of a choice overlap.
* `applyAll_of_apart`: edits that do not overlap and that end in the text can all be performed.
* `applyAll_singleton`: what an edit by itself does.
* `precedesOrEqual_iff`: edits are compared by their place: start, end and rule.
* `sorted_pairwise`, `sorted_filter`: putting edits in order is a stable sort by place.
* `sorted_eq_of_filter`: how edits are given matters only among those of one place.
* `Before`: what two edits in order that do not overlap are like, and
  `pairwise_before_of_firstConflict?`: if no neighbours overlap then no two edits do.
* `select_append_skipped`: every edit given is kept or skipped, as often as it is given.
* `exists_overlaps_of_mem_skipped`: what is skipped overlaps something kept that is not after it.
* `select_eq_of_filter_rule`: how edits are given matters only among those of one rule.
* `select_greedy`: all that a choice of edits promises.
-/

namespace HouseStyle

theorem Span.overlaps_comm (a b : Span) : a.overlaps b = b.overlaps a := by
  unfold Span.overlaps
  by_cases h : a.isEmpty || b.isEmpty
  · rw [if_pos h, if_pos (by rw [Bool.or_comm]; exact h), BEq.comm, Bool.and_comm]
  · rw [if_neg h, if_neg (by rw [Bool.or_comm]; exact h), Bool.and_comm]

namespace Edit

/-- Two edits that do not overlap. -/
def Apart (a b : Edit) : Prop :=
  a.span.overlaps b.span = false

theorem Apart.symm {a b : Edit} (h : Apart a b) : Apart b a := by
  unfold Apart at h ⊢
  rw [Span.overlaps_comm]; exact h

theorem keep_apart {kept : List Edit} (hk : kept.Pairwise Apart) (e : Edit) :
    (keep kept e).Pairwise Apart := by
  unfold keep
  by_cases h : (kept.any fun k => e.span.overlaps k.span) = true
  · rw [if_pos h]; exact hk
  · rw [if_neg h, List.pairwise_append]
    refine ⟨hk, List.pairwise_singleton _ _, ?_⟩
    intro a ha b hb
    rw [List.mem_singleton] at hb
    subst hb
    have hab : b.span.overlaps a.span = false := by
      rw [Bool.eq_false_iff]
      intro ho
      exact h (List.any_eq_true.2 ⟨a, ha, ho⟩)
    exact Apart.symm hab

theorem foldl_keep_apart (edits : List Edit) :
    ∀ kept : List Edit, kept.Pairwise Apart → (edits.foldl keep kept).Pairwise Apart := by
  induction edits with
  | nil => intro kept hk; exact hk
  | cons e rest ih => intro kept hk; exact ih _ (keep_apart hk e)

/-- **No two edits of a choice overlap.** -/
theorem select_apart (edits : List Edit) : (select edits).Pairwise Apart :=
  foldl_keep_apart _ [] List.Pairwise.nil

theorem select_nil : select [] = [] := by
  unfold select sorted
  rw [List.mergeSort_nil]; rfl

theorem mem_keep {kept : List Edit} {e x : Edit} (h : x ∈ keep kept e) : x ∈ kept ∨ x = e := by
  unfold keep at h
  split at h
  · exact Or.inl h
  · simpa using h

theorem mem_foldl_keep {x : Edit} (edits : List Edit) :
    ∀ kept : List Edit, x ∈ edits.foldl keep kept → x ∈ kept ∨ x ∈ edits := by
  induction edits with
  | nil => intro kept h; exact Or.inl h
  | cons e rest ih =>
    intro kept h
    rcases ih (keep kept e) h with h | h
    · rcases mem_keep h with h | h
      · exact Or.inl h
      · exact Or.inr (by rw [h]; exact List.mem_cons_self)
    · exact Or.inr (List.mem_cons_of_mem _ h)

/-- A choice of edits is made of the edits given. -/
theorem mem_of_mem_select {edits : List Edit} {x : Edit} (h : x ∈ select edits) : x ∈ edits := by
  rcases mem_foldl_keep _ [] h with h | h
  · cases h
  · exact (List.mergeSort_perm edits precedesOrEqual).mem_iff.1 h

theorem firstConflict?_of_apart {edits : List Edit} (h : edits.Pairwise Apart) :
    firstConflict? edits = none := by
  induction edits with
  | nil => rfl
  | cons a rest ih =>
    cases rest with
    | nil => rfl
    | cons b rest =>
      have hab : a.span.overlaps b.span = false := List.rel_of_pairwise_cons h List.mem_cons_self
      rw [firstConflict?, if_neg (by rw [hab]; exact Bool.false_ne_true)]
      exact ih (List.Pairwise.of_cons h)

theorem applyBackwards_of_inside {text : List Char} {edits : List Edit}
    (h : ∀ e ∈ edits, e.span.stop ≤ text.length) :
    ∃ done, applyBackwards text edits = .ok done := by
  induction edits with
  | nil => exact ⟨text, rfl⟩
  | cons e rest ih =>
    obtain ⟨done, hd⟩ := ih fun x hx => h x (List.mem_cons_of_mem _ hx)
    refine ⟨splice done e, ?_⟩
    rw [applyBackwards, hd]
    exact if_pos (h e List.mem_cons_self)

/-- **Edits that do not overlap and that end in the text can all be performed.** -/
theorem applyAll_of_apart {text : List Char} {edits : List Edit} (ha : edits.Pairwise Apart)
    (hi : ∀ e ∈ edits, e.span.stop ≤ text.length) : ∃ done, applyAll text edits = .ok done := by
  have hp : (sorted edits).Perm edits := List.mergeSort_perm edits precedesOrEqual
  have hs : (sorted edits).Pairwise Apart := hp.symm.pairwise ha fun h => Apart.symm h
  obtain ⟨done, hd⟩ := @applyBackwards_of_inside text (sorted edits)
    fun e he => hi e (hp.mem_iff.1 he)
  refine ⟨done, ?_⟩
  simp only [applyAll, firstConflict?_of_apart hs, hd]

/-- An edit by itself replaces the text of its span. -/
theorem applyAll_singleton {text : List Char} {e : Edit} (h : e.span.stop ≤ text.length) :
    applyAll text [e] = .ok (splice text e) := by
  simp only [applyAll, sorted, List.mergeSort_singleton, firstConflict?, applyBackwards, if_pos h]

/-! ### The order -/

/-- What edits are compared by. -/
def place (e : Edit) : ℕ ×ₗ ℕ ×ₗ String :=
  toLex (e.span.start, toLex (e.span.stop, e.rule))

theorem precedesOrEqual_iff {a b : Edit} : precedesOrEqual a b = true ↔ a.place ≤ b.place := by
  unfold precedesOrEqual place
  simp only [Bool.or_eq_true, Bool.and_eq_true, decide_eq_true_eq, beq_iff_eq, Prod.Lex.toLex_le_toLex]

theorem precedesOrEqual_trans (a b c : Edit) (hab : precedesOrEqual a b = true)
    (hbc : precedesOrEqual b c = true) : precedesOrEqual a c = true := by
  rw [precedesOrEqual_iff] at hab hbc ⊢
  exact le_trans hab hbc

theorem precedesOrEqual_total (a b : Edit) : (precedesOrEqual a b || precedesOrEqual b a) = true := by
  rw [Bool.or_eq_true, precedesOrEqual_iff, precedesOrEqual_iff]
  exact le_total _ _

theorem sorted_perm (edits : List Edit) : (sorted edits).Perm edits :=
  List.mergeSort_perm _ _

theorem sorted_pairwise (edits : List Edit) : (sorted edits).Pairwise fun a b => a.place ≤ b.place := by
  have := List.pairwise_mergeSort precedesOrEqual_trans precedesOrEqual_total edits
  exact this.imp precedesOrEqual_iff.1

/-- **Edits of one place stay in the order given.** -/
theorem sorted_filter (edits : List Edit) (p : ℕ ×ₗ ℕ ×ₗ String) :
    (sorted edits).filter (·.place = p) = edits.filter (·.place = p) := by
  set group := edits.filter (·.place = p) with hgroup
  have hplace : ∀ e ∈ group, e.place = p := by
    intro e he
    rw [hgroup, List.mem_filter] at he
    exact of_decide_eq_true he.2
  have hpair : group.Pairwise fun a b => precedesOrEqual a b = true := by
    refine List.pairwise_of_forall_mem_list fun a ha b hb => precedesOrEqual_iff.2 ?_
    rw [hplace a ha, hplace b hb]
  have hsub : group.Sublist (sorted edits) :=
    List.sublist_mergeSort precedesOrEqual_trans precedesOrEqual_total hpair List.filter_sublist
  have hfilter : group.filter (·.place = p) = group :=
    List.filter_eq_self.2 fun e he => decide_eq_true (hplace e he)
  have hlen : group.length = ((sorted edits).filter (·.place = p)).length :=
    ((sorted_perm edits).filter _).length_eq.symm
  have := hsub.filter (·.place = p)
  rw [hfilter] at this
  exact (this.eq_of_length hlen).symm

theorem mem_of_filter_place {xs ys : List Edit}
    (h : ∀ p, xs.filter (·.place = p) = ys.filter (·.place = p)) {e : Edit} (he : e ∈ xs) : e ∈ ys := by
  have hin : e ∈ xs.filter (·.place = e.place) := List.mem_filter.2 ⟨he, decide_eq_true rfl⟩
  rw [h] at hin
  exact (List.mem_filter.1 hin).1

theorem place_le_of_mem {a b : Edit} {rest : List Edit}
    (h : (a :: rest).Pairwise fun a b => a.place ≤ b.place) (hb : b ∈ a :: rest) : a.place ≤ b.place := by
  rcases List.mem_cons.1 hb with rfl | hb
  · exact le_rfl
  · exact List.rel_of_pairwise_cons h hb

/-- Lists in order that agree on the edits of each place are equal. -/
theorem eq_of_filter_place {xs : List Edit} : ∀ {ys : List Edit},
    xs.Pairwise (fun a b => a.place ≤ b.place) → ys.Pairwise (fun a b => a.place ≤ b.place) →
    (∀ p, xs.filter (·.place = p) = ys.filter (·.place = p)) → xs = ys := by
  induction xs with
  | nil =>
    intro ys _ _ h
    cases ys with
    | nil => rfl
    | cons y ys => cases mem_of_filter_place (fun p => (h p).symm) List.mem_cons_self
  | cons x xs ih =>
    intro ys hx hy h
    cases ys with
    | nil => cases mem_of_filter_place h List.mem_cons_self
    | cons y ys =>
      -- the first edits have one place, so they are the first of that place
      have hxy : x.place = y.place :=
        le_antisymm (place_le_of_mem hx (mem_of_filter_place (fun p => (h p).symm) List.mem_cons_self))
          (place_le_of_mem hy (mem_of_filter_place h List.mem_cons_self))
      have hhead := h y.place
      rw [List.filter_cons_of_pos (by simpa using hxy), List.filter_cons_of_pos (by simp)] at hhead
      obtain rfl := (List.cons.inj hhead).1
      congr 1
      refine ih hx.of_cons hy.of_cons fun p => ?_
      have htail := h p
      by_cases hp : x.place = p
      · rw [List.filter_cons_of_pos (by simpa using hp), List.filter_cons_of_pos (by simpa using hp)] at htail
        exact (List.cons.inj htail).2
      · rwa [List.filter_cons_of_neg (by simpa using hp), List.filter_cons_of_neg (by simpa using hp)] at htail

/-- **How edits are given matters only among those of one place.** -/
theorem sorted_eq_of_filter {edits edits' : List Edit}
    (h : ∀ p, edits'.filter (·.place = p) = edits.filter (·.place = p)) : sorted edits' = sorted edits := by
  refine eq_of_filter_place (sorted_pairwise _) (sorted_pairwise _) fun p => ?_
  rw [sorted_filter, sorted_filter, h]

/-! ### Edits that do not overlap -/

/-- An edit ends where another begins or earlier, and does not begin there. -/
def Before (a b : Edit) : Prop :=
  a.span.stop ≤ b.span.start ∧ a.span.start < b.span.start

theorem Before.trans {a b c : Edit} (hab : Before a b) (hbc : Before b c) : Before a c := by
  have := b.span.start_le_stop
  obtain ⟨h1, h2⟩ := hab
  obtain ⟨h3, h4⟩ := hbc
  exact ⟨by omega, by omega⟩

/-- In order, not to overlap is to come before. -/
theorem apart_iff_before {a b : Edit} (h : a.place ≤ b.place) : Apart a b ↔ Before a b := by
  have ha := a.span.start_le_stop
  have hb := b.span.start_le_stop
  have hle : a.span.start < b.span.start ∨ a.span.start = b.span.start ∧ a.span.stop ≤ b.span.stop := by
    rw [place, place, Prod.Lex.toLex_le_toLex, Prod.Lex.toLex_le_toLex] at h
    simp only at h
    omega
  unfold Apart Before Span.overlaps Span.isEmpty
  split <;> rename_i hempty <;>
    simp only [Bool.or_eq_true, beq_iff_eq, Bool.or_eq_false_iff, beq_eq_false_iff_ne,
      Bool.and_eq_false_iff, decide_eq_false_iff_not, ne_eq] at hempty ⊢ <;> omega

theorem Before.place_le {a b : Edit} (h : Before a b) : a.place ≤ b.place :=
  Prod.Lex.toLex_le_toLex.2 (.inl h.2)

theorem Before.apart {a b : Edit} (h : Before a b) : Apart a b :=
  (apart_iff_before h.place_le).2 h

/-- **If no neighbours overlap then no two edits do.** -/
theorem pairwise_before_of_firstConflict? {edits : List Edit}
    (hs : edits.Pairwise fun a b => a.place ≤ b.place) (h : firstConflict? edits = none) :
    edits.Pairwise Before := by
  induction edits with
  | nil => exact .nil
  | cons a rest ih =>
    cases rest with
    | nil => exact List.pairwise_singleton _ _
    | cons b rest =>
      rw [firstConflict?] at h
      split at h
      · cases h
      rename_i hab
      have hrest := ih hs.of_cons h
      have hfirst : Before a b :=
        (apart_iff_before (List.rel_of_pairwise_cons hs List.mem_cons_self)).1 (by simpa [Apart] using hab)
      refine List.pairwise_cons.2 ⟨fun c hc => ?_, hrest⟩
      rcases List.mem_cons.1 hc with rfl | hc
      · exact hfirst
      · exact hfirst.trans (List.rel_of_pairwise_cons hrest hc)

theorem pairwise_apart_iff {edits : List Edit} (hs : edits.Pairwise fun a b => a.place ≤ b.place) :
    edits.Pairwise Apart ↔ edits.Pairwise Before := by
  constructor
  · exact fun h => pairwise_before_of_firstConflict? hs (firstConflict?_of_apart h)
  · exact fun h => (hs.and h).imp fun hab => (apart_iff_before hab.1).2 hab.2

theorem sorted_before {edits : List Edit} (h : edits.Pairwise Apart) : (sorted edits).Pairwise Before :=
  (pairwise_apart_iff (sorted_pairwise edits)).1
    ((sorted_perm edits).symm.pairwise h fun hab => Apart.symm hab)

variable {edits edits' kept : List Edit}

/-! ### What is kept and what is skipped -/

theorem mem_foldl_keep_of_mem {k : Edit} (edits : List Edit) :
    ∀ {kept : List Edit}, k ∈ kept → k ∈ edits.foldl keep kept := by
  induction edits with
  | nil => exact fun h => h
  | cons e rest ih =>
    intro kept h
    refine ih ?_
    unfold keep
    split
    · exact h
    · exact List.mem_append_left _ h

/-- A choice leaves edits out and keeps the others in order. -/
theorem foldl_keep_sublist (edits : List Edit) :
    ∀ kept : List Edit, (edits.foldl keep kept).Sublist (kept ++ edits) := by
  induction edits with
  | nil => exact fun kept => (List.append_nil kept).symm ▸ List.Sublist.refl _
  | cons e rest ih =>
    intro kept
    rw [List.foldl_cons, keep]
    split
    · exact (ih kept).trans ((List.sublist_cons_self e rest).append_left kept)
    · simpa only [List.append_assoc, List.singleton_append] using ih (kept ++ [e])

theorem foldl_keep_append_skippedFrom (edits : List Edit) :
    ∀ kept : List Edit, (edits.foldl keep kept ++ skippedFrom kept edits).Perm (kept ++ edits) := by
  induction edits with
  | nil => exact fun kept => .refl _
  | cons e rest ih =>
    intro kept
    rw [List.foldl_cons, keep, skippedFrom]
    split
    · exact List.perm_middle.trans (((ih kept).cons e).trans List.perm_middle.symm)
    · simpa only [List.append_assoc, List.singleton_append] using ih (kept ++ [e])

/-- What is skipped overlaps something kept that is not after it. The induction holds of edits
in order, with those kept so far before those to come. -/
theorem exists_overlaps_of_mem_skippedFrom {e : Edit} (edits : List Edit) :
    ∀ kept : List Edit, (kept ++ edits).Pairwise (fun a b => a.place ≤ b.place) →
      e ∈ skippedFrom kept edits →
        ∃ k ∈ edits.foldl keep kept, e.span.overlaps k.span = true ∧ k.place ≤ e.place := by
  induction edits with
  | nil => exact fun _ _ h => nomatch h
  | cons a rest ih =>
    intro kept hs he
    rw [List.foldl_cons, keep]
    rw [skippedFrom] at he
    split at he
    · rename_i hany
      rw [if_pos hany]
      rcases List.mem_cons.1 he with rfl | he
      · obtain ⟨k, hk, hover⟩ := List.any_eq_true.1 hany
        have hle : k.place ≤ e.place := (List.pairwise_append.1 hs).2.2 k hk e List.mem_cons_self
        exact ⟨k, mem_foldl_keep_of_mem rest hk, hover, hle⟩
      · exact ih kept (hs.sublist ((List.sublist_cons_self a rest).append_left kept)) he
    · rename_i hany
      rw [if_neg hany]
      exact ih (kept ++ [a]) (by simpa only [List.append_assoc, List.singleton_append] using hs) he

theorem select_sublist (edits : List Edit) : (select edits).Sublist (sorted edits) :=
  foldl_keep_sublist (sorted edits) []

theorem select_pairwise (edits : List Edit) : (select edits).Pairwise fun a b => a.place ≤ b.place :=
  (sorted_pairwise edits).sublist (select_sublist edits)

/-- **Every edit given is kept or skipped**, as often as it is given. -/
theorem select_append_skipped (edits : List Edit) : (select edits ++ skipped edits).Perm edits :=
  (foldl_keep_append_skippedFrom (sorted edits) []).trans (sorted_perm edits)

/-- **What is skipped overlaps something kept that is not after it.** -/
theorem exists_overlaps_of_mem_skipped {e : Edit} (h : e ∈ skipped edits) :
    ∃ k ∈ select edits, e.span.overlaps k.span = true ∧ k.place ≤ e.place :=
  exists_overlaps_of_mem_skippedFrom (sorted edits) [] (sorted_pairwise edits) h

/-- Where nothing is kept, nothing was given. -/
theorem select_eq_nil_iff : select edits = [] ↔ edits = [] := by
  constructor
  · intro h
    have hskipped : skipped edits = [] := by
      refine List.eq_nil_iff_forall_not_mem.2 fun e he => ?_
      obtain ⟨k, hk, -⟩ := exists_overlaps_of_mem_skipped he
      rw [h] at hk
      cases hk
    have hperm := select_append_skipped edits
    rw [h, hskipped] at hperm
    exact hperm.symm.eq_nil
  · rintro rfl
    exact select_nil

/-- A choice can be performed on every text that is long enough. -/
theorem applyAll_select {text : List Char} (h : ∀ e ∈ select edits, e.span.stop ≤ text.length) :
    ∃ done, applyAll text (select edits) = .ok done :=
  applyAll_of_apart (select_apart edits) h

/-! ### In which order edits are given -/

/-- Edits of one place are edits of one rule. -/
theorem filter_place_of_filter_rule (h : ∀ r, edits'.filter (·.rule = r) = edits.filter (·.rule = r))
    (p : ℕ ×ₗ ℕ ×ₗ String) : edits'.filter (·.place = p) = edits.filter (·.place = p) := by
  have hrule : ∀ e : Edit, e.place = p → e.rule = (ofLex (ofLex p).2).2 :=
    fun e he => congrArg (fun p => (ofLex (ofLex p).2).2) he
  have hfilter : ∀ xs : List Edit,
      xs.filter (·.place = p) = (xs.filter (·.rule = (ofLex (ofLex p).2).2)).filter (·.place = p) := by
    intro xs
    rw [List.filter_filter]
    refine List.filter_congr fun e _ => ?_
    by_cases he : e.place = p
    · simp only [he, hrule e he, decide_true, Bool.and_self]
    · simp only [he, decide_false, Bool.false_and]
  rw [hfilter edits', hfilter edits, h]

/-- **How edits are given matters only among those of one rule.** -/
theorem select_eq_of_filter_rule (h : ∀ r, edits'.filter (·.rule = r) = edits.filter (·.rule = r)) :
    select edits' = select edits := by
  rw [select, select, sorted_eq_of_filter (filter_place_of_filter_rule h)]

/-- **The choice of edits is the greedy one.** It is in order, it is made of the edits given, no
two of its members overlap, what it leaves out overlaps a member that is not after it,
it can be performed on every text that is long enough, and giving the edits in another
order that keeps the order of those of each rule makes no difference. -/
theorem select_greedy (edits : List Edit) :
    (select edits).Pairwise (fun a b => a.place ≤ b.place) ∧
      (select edits ++ skipped edits).Perm edits ∧
      (select edits).Pairwise Apart ∧
      (∀ e ∈ skipped edits, ∃ k ∈ select edits, e.span.overlaps k.span = true ∧ k.place ≤ e.place) ∧
      (∀ text : List Char, (∀ e ∈ select edits, e.span.stop ≤ text.length) →
        ∃ done, applyAll text (select edits) = .ok done) ∧
      ∀ edits' : List Edit, edits'.Perm edits →
        (∀ r, edits'.filter (·.rule = r) = edits.filter (·.rule = r)) → select edits' = select edits :=
  ⟨select_pairwise edits, select_append_skipped edits, select_apart edits,
    fun _ => exists_overlaps_of_mem_skipped, fun _ => applyAll_select,
    fun _ _ => select_eq_of_filter_rule⟩

end Edit

end HouseStyle
