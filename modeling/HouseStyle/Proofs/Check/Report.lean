import HouseStyle.Check.Report
import Mathlib.Data.Prod.Lex
import Mathlib.Data.String.Basic

/-!
# What a report is made of

* `precedesOrEqual_iff`: violations are compared by start, rule, end and message.
* `report_ordered`: a report is in strict order, since no two of its violations have one key.
* `part_report`: what a report says under a name depends on the violations under it alone.
* `eq_of_parts`: reports that say the same under each name are the same.
-/

namespace HouseStyle

variable {settings : Settings}

/-! ### The order -/

namespace Violation

/-- What violations are compared by. -/
def place (v : Violation) : ℕ ×ₗ String ×ₗ ℕ ×ₗ String :=
  toLex (v.span.start, toLex (v.rule, toLex (v.span.stop, v.message)))

theorem precedesOrEqual_iff {a b : Violation} : precedesOrEqual a b = true ↔ a.place ≤ b.place := by
  unfold precedesOrEqual place
  simp only [Bool.or_eq_true, Bool.and_eq_true, decide_eq_true_eq, beq_iff_eq, Prod.Lex.toLex_le_toLex]

theorem precedesOrEqual_trans (a b c : Violation) (hab : precedesOrEqual a b = true)
    (hbc : precedesOrEqual b c = true) : precedesOrEqual a c = true := by
  rw [precedesOrEqual_iff] at hab hbc ⊢
  exact le_trans hab hbc

theorem precedesOrEqual_total (a b : Violation) : (precedesOrEqual a b || precedesOrEqual b a) = true := by
  rw [Bool.or_eq_true, precedesOrEqual_iff, precedesOrEqual_iff]
  exact le_total _ _

/-- Violations of one place have one key. -/
theorem key_eq_of_place {a b : Violation} (h : a.place = b.place) : a.key = b.key := by
  have hplace := toLex.injective h
  simp only [Prod.mk.injEq, EmbeddingLike.apply_eq_iff_eq] at hplace
  obtain ⟨hstart, hrule, hstop, -⟩ := hplace
  have hspan : a.span = b.span := by
    cases ha : a.span
    cases hb : b.span
    simp_all
  rw [key, key, hrule, hspan]

end Violation

/-! ### Violations with different keys -/

/-- The violations under a name. -/
def part (name : String) (vs : List Violation) : List Violation :=
  vs.filter fun v => v.rule == name

theorem mem_part {name : String} {vs : List Violation} {v : Violation} : v ∈ part name vs ↔ v ∈ vs ∧ v.rule = name := by
  rw [part, List.mem_filter, beq_iff_eq]

theorem not_mem_of_firstOfEach {seen : List (String × Span)} {vs : List Violation} {v : Violation}
    (h : v ∈ firstOfEach seen vs) : v.key ∉ seen := by
  induction vs generalizing seen with
  | nil => cases h
  | cons w rest ih =>
    simp only [firstOfEach] at h
    split at h
    · exact ih h
    · rename_i hw
      rcases List.mem_cons.1 h with rfl | h
      · simpa using hw
      · exact fun hv => ih h (List.mem_cons_of_mem _ hv)

/-- Each key counts once. -/
theorem firstOfEach_nodup (seen : List (String × Span)) (vs : List Violation) :
    ((firstOfEach seen vs).map Violation.key).Nodup := by
  induction vs generalizing seen with
  | nil => exact .nil
  | cons v rest ih =>
    simp only [firstOfEach]
    split
    · exact ih seen
    · refine List.nodup_cons.2 ⟨?_, ih _⟩
      intro hmem
      obtain ⟨w, hw, hkey⟩ := List.mem_map.1 hmem
      have := not_mem_of_firstOfEach hw
      rw [hkey] at this
      exact this List.mem_cons_self

/-- Which violations under a name count depends on those before them under this name. -/
theorem part_firstOfEach (name : String) (vs : List Violation) (seen seen' : List (String × Span))
    (hseen : ∀ span, (name, span) ∈ seen ↔ (name, span) ∈ seen') :
    part name (firstOfEach seen vs) = firstOfEach seen' (part name vs) := by
  induction vs generalizing seen seen' with
  | nil => rfl
  | cons v rest ih =>
    by_cases hname : v.rule = name
    · have hkey : v.key = (name, v.span) := by rw [Violation.key, hname]
      have hcontains : seen.contains v.key = seen'.contains v.key := by
        rw [Bool.eq_iff_iff, List.contains_iff_mem, List.contains_iff_mem, hkey, hseen]
      have hpart : part name (v :: rest) = v :: part name rest := by simp [part, hname]
      rw [hpart]
      simp only [firstOfEach, hcontains]
      split
      · exact ih seen seen' hseen
      · have hrest := ih (v.key :: seen) (v.key :: seen') fun span => by
          rw [List.mem_cons, List.mem_cons, hseen]
        rw [← hrest]
        simp [part, hname]
    · have hpart : part name (v :: rest) = part name rest := by simp [part, hname]
      rw [hpart]
      simp only [firstOfEach]
      split
      · exact ih seen seen' hseen
      · have hrest := ih (v.key :: seen) seen' fun span => by
          have hne : (name, span) ≠ v.key := fun h => hname (congrArg Prod.fst h).symm
          simp [hne, hseen]
        rw [← hrest]
        simp [part, hname]

/-! ### What the settings make of a violation -/

theorem settle_key {v w : Violation} (h : settle settings v = some w) : w.key = v.key ∧ w.rule = v.rule := by
  unfold settle at h
  split at h
  · cases h
    exact ⟨rfl, rfl⟩
  · split at h
    · cases h
      exact ⟨rfl, rfl⟩
    · cases h

/-- The violations of a report before they are put in order. -/
def reported (settings : Settings) (vs : List Violation) : List Violation :=
  (firstOfEach [] vs).filterMap (settle settings)

theorem reported_nodup (settings : Settings) (vs : List Violation) :
    ((reported settings vs).map Violation.key).Nodup := by
  have hsub : ((reported settings vs).map Violation.key).Sublist ((firstOfEach [] vs).map Violation.key) := by
    unfold reported
    generalize firstOfEach [] vs = ws
    induction ws with
    | nil => exact .slnil
    | cons v ws ih =>
      rw [List.filterMap_cons]
      split
      · exact ih.cons _
      · rename_i w hw
        rw [List.map_cons, List.map_cons, (settle_key hw).1]
        exact ih.cons_cons _
  exact (firstOfEach_nodup [] vs).sublist hsub

theorem part_reported (settings : Settings) (name : String) (vs : List Violation) :
    part name (reported settings vs) = reported settings (part name vs) := by
  rw [reported, reported, ← part_firstOfEach name vs [] [] fun _ => Iff.rfl]
  generalize firstOfEach [] vs = ws
  induction ws with
  | nil => rfl
  | cons v ws ih =>
    by_cases hname : v.rule = name
    · have hpart : part name (v :: ws) = v :: part name ws := by simp [part, hname]
      rw [hpart, List.filterMap_cons, List.filterMap_cons, ← ih]
      split
      · rfl
      · rename_i w hw
        simp [part, (settle_key hw).2, hname]
    · have hpart : part name (v :: ws) = part name ws := by simp [part, hname]
      rw [hpart, List.filterMap_cons, ← ih]
      split
      · rfl
      · rename_i w hw
        simp [part, (settle_key hw).2, hname]

/-! ### Reports -/

theorem aggregate_eq (settings : Settings) (vs : List Violation) :
    (aggregate settings vs).violations = (reported settings vs).mergeSort Violation.precedesOrEqual := rfl

/-- **A report is in strict order.** -/
theorem report_ordered (settings : Settings) (vs : List Violation) :
    (aggregate settings vs).violations.Pairwise fun a b => a.place < b.place := by
  rw [aggregate_eq]
  have hle := List.pairwise_mergeSort Violation.precedesOrEqual_trans Violation.precedesOrEqual_total
    (reported settings vs)
  have hkeys : (reported settings vs).Pairwise fun a b => a.key ≠ b.key :=
    List.pairwise_map.1 (reported_nodup settings vs)
  have hne := (List.mergeSort_perm (reported settings vs) Violation.precedesOrEqual).symm.pairwise hkeys
    fun h => h.symm
  refine (hle.and hne).imp fun h => ?_
  exact lt_of_le_of_ne (Violation.precedesOrEqual_iff.1 h.1) fun hplace => h.2 (Violation.key_eq_of_place hplace)

/-- Two lists in strict order that have the same members are equal. -/
theorem eq_of_ordered {xs ys : List Violation} (hx : xs.Pairwise fun a b => a.place < b.place)
    (hy : ys.Pairwise fun a b => a.place < b.place) (h : ∀ v, v ∈ xs ↔ v ∈ ys) : xs = ys := by
  have hnodup {zs : List Violation} (hz : zs.Pairwise fun a b => a.place < b.place) : zs.Nodup := by
    refine hz.imp ?_
    intro a b hlt heq
    rw [heq] at hlt
    exact lt_irrefl _ hlt
  have hperm : xs.Perm ys := (List.perm_ext_iff_of_nodup (hnodup hx) (hnodup hy)).2 h
  exact hperm.eq_of_pairwise (fun a b _ _ hab hba => absurd hab (lt_asymm hba)) hx hy

/-- **What a report says under a name** depends on the violations under this name alone. -/
theorem part_report (settings : Settings) (name : String) (vs : List Violation) :
    part name (aggregate settings vs).violations = (aggregate settings (part name vs)).violations := by
  refine eq_of_ordered ((report_ordered settings vs).filter _) (report_ordered settings _) fun v => ?_
  rw [aggregate_eq, aggregate_eq, mem_part, List.mem_mergeSort, List.mem_mergeSort, ← part_reported, mem_part]

/-- **Reports are told by what they say under each name.** -/
theorem eq_of_parts {xs ys : List Violation} (hx : xs.Pairwise fun a b => a.place < b.place)
    (hy : ys.Pairwise fun a b => a.place < b.place) (h : ∀ name, part name xs = part name ys) : xs = ys := by
  refine eq_of_ordered hx hy fun v => ?_
  have := h v.rule
  have hmem : v ∈ part v.rule xs ↔ v ∈ part v.rule ys := by rw [this]
  simpa [mem_part] using hmem

/-- The violations of a report that rules found. -/
def Report.ofRules (r : Report) : List Violation :=
  r.violations.filter fun v => !isInternalId v.rule

theorem part_ofRules {name : String} (h : isInternalId name = false) (r : Report) :
    part name r.ofRules = part name r.violations := by
  rw [Report.ofRules, part, part, List.filter_filter]
  refine List.filter_congr fun v _ => ?_
  by_cases hname : v.rule = name
  · simp [hname, h]
  · simp [hname]

theorem part_ofRules_internal {name : String} (h : isInternalId name = true) (r : Report) :
    part name r.ofRules = [] := by
  rw [Report.ofRules, part, List.filter_filter, List.filter_eq_nil_iff]
  intro v _
  by_cases hname : v.rule = name
  · simp [hname, h]
  · simp [hname]

end HouseStyle
