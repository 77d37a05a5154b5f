import HouseStyle.Proofs.Check.Report
import Mathlib.Data.List.Nodup

/-!
# What a report keeps of the violations of a text

A report is told by what it holds at each key, that is for each rule at each span.

* `atKey_aggregate`: at a key it holds what the settings make of the first violation there.
* `eq_of_atKey`: reports that hold the same at every key are the same.
* `aggregate_ascending`: violations that start one after the other stay as they stand.
* `aggregate_keeps_firsts`: **a report holds the first violation of each key whose rule takes part,
  with the severity of the settings, in strict order; and violations may be aggregated bit by
  bit.**
-/

namespace HouseStyle

variable {settings : Settings}

/-! ### What the settings make of a violation -/

/-- A violation as the settings want it: those of the checker itself stay as they are, those of a
rule that is on, and among the rules the run is narrowed to, have the severity of the settings. -/
inductive Settled (settings : Settings) (v : Violation) : Violation → Prop
  | own (h : isInternalId v.rule = true) : Settled settings v v
  | rule {id : RuleId} (hown : isInternalId v.rule = false) (hname : RuleId.ofName? v.rule = some id)
      (hon : (settings.rule id).enabled = true) (hsel : ∀ ids ∈ settings.selected, id ∈ ids) :
      Settled settings v { v with severity := (settings.rule id).severity }

theorem runs_iff {id : RuleId} :
    settings.runs id = true ↔ (settings.rule id).enabled = true ∧ ∀ ids ∈ settings.selected, id ∈ ids := by
  unfold Settings.runs
  cases settings.selected <;> simp

theorem settle_eq_some_iff {v w : Violation} : settle settings v = some w ↔ Settled settings v w := by
  constructor
  · intro h
    unfold settle at h
    split at h
    · rename_i hown
      cases h
      exact .own hown
    · rename_i hown
      split at h
      · rename_i hon
        unfold Settings.isEnabled at hon
        split at hon
        · rename_i id hname
          have hrule : Settled settings v { v with severity := (settings.rule id).severity } :=
            .rule (Bool.eq_false_of_not_eq_true hown) hname (runs_iff.1 hon).1 (runs_iff.1 hon).2
          simpa [Settings.severity?, hname, ← Option.some.inj h] using hrule
        · cases hon
      · cases h
  · intro h
    cases h with
    | own hown => simp [settle, hown]
    | rule hown hname hon hsel =>
      have hruns := runs_iff.2 ⟨hon, hsel⟩
      simp [settle, hown, Settings.isEnabled, hname, hruns, Settings.severity?]

/-- The settings do not decide what is fixable. -/
theorem Settled.fixable {v w : Violation} (h : Settled settings v w) : w.fixable = v.fixable := by
  cases h <;> rfl

/-- Whether a violation takes part depends on its rule alone. -/
theorem settle_eq_none_of_rule {v w : Violation} (hrule : w.rule = v.rule) (h : settle settings v = none) :
    settle settings w = none := by
  unfold settle at h ⊢
  rw [hrule]
  split at h
  · cases h
  · split at h
    · cases h
    · rename_i hown hoff
      rw [if_neg hown, if_neg hoff]

/-- What the settings made of a violation is as they want it. -/
theorem settle_settle {v w : Violation} (h : settle settings v = some w) : settle settings w = some w := by
  rw [settle_eq_some_iff] at h
  rw [settle_eq_some_iff]
  cases h with
  | own hown => exact .own hown
  | rule hown hname hon hsel => exact .rule (v := { v with severity := _ }) hown hname hon hsel

/-! ### The violation at a key -/

/-- The first violation of a key. -/
def atKey (key : String × Span) (vs : List Violation) : Option Violation :=
  vs.find? fun v => v.key == key

theorem key_of_atKey {key : String × Span} {vs : List Violation} {v : Violation} (h : atKey key vs = some v) :
    v.key = key := by
  simpa using List.find?_some h

theorem atKey_append (key : String × Span) (xs ys : List Violation) :
    atKey key (xs ++ ys) = (atKey key xs).or (atKey key ys) := List.find?_append

/-- Where keys do not repeat, each violation is the one at its key. -/
theorem atKey_eq_some_iff {vs : List Violation} (h : (vs.map Violation.key).Nodup) {key : String × Span}
    {v : Violation} : atKey key vs = some v ↔ v ∈ vs ∧ v.key = key := by
  refine ⟨fun hv => ⟨List.mem_of_find?_eq_some hv, key_of_atKey hv⟩, ?_⟩
  rintro ⟨hmem, rfl⟩
  obtain ⟨w, hw⟩ : ∃ w, atKey v.key vs = some w := by
    rw [← Option.isSome_iff_exists, atKey, List.find?_isSome]
    exact ⟨v, hmem, beq_self_eq_true _⟩
  rw [hw, List.inj_on_of_nodup_map h (List.mem_of_find?_eq_some hw) hmem (key_of_atKey hw)]

/-- The first violations of each key are those found at a key not seen before. -/
theorem mem_firstOfEach {seen : List (String × Span)} {vs : List Violation} {v : Violation} :
    v ∈ firstOfEach seen vs ↔ v.key ∉ seen ∧ atKey v.key vs = some v := by
  induction vs generalizing seen with
  | nil => simp [firstOfEach, atKey]
  | cons w rest ih =>
    simp only [firstOfEach, atKey, List.find?_cons]
    by_cases hkey : w.key = v.key
    · -- the first violation of this key is `w`, unless the key was seen before
      simp only [hkey, beq_self_eq_true, Option.some.injEq]
      split
      · rename_i hseen
        rw [ih]
        simp_all
      · rename_i hseen
        rw [List.mem_cons, ih]
        simp only [List.mem_cons_self, not_true_eq_false, false_and, or_false]
        simp_all [eq_comm]
    · have hne : (w.key == v.key) = false := beq_false_of_ne hkey
      simp only [hne]
      split
      · exact ih
      · rw [List.mem_cons, ih]
        have hvw : v ≠ w := fun h => hkey (congrArg Violation.key h.symm)
        simp [hvw, Ne.symm hkey, atKey]

theorem mem_reported {vs : List Violation} {w : Violation} :
    w ∈ reported settings vs ↔ (atKey w.key vs).bind (settle settings) = some w := by
  rw [reported, List.mem_filterMap, Option.bind_eq_some_iff]
  constructor
  · rintro ⟨v, hv, hw⟩
    rw [(settle_key hw).1]
    exact ⟨v, (mem_firstOfEach.1 hv).2, hw⟩
  · rintro ⟨v, hv, hw⟩
    refine ⟨v, mem_firstOfEach.2 ⟨List.not_mem_nil, ?_⟩, hw⟩
    rw [key_of_atKey hv, hv]

theorem aggregate_nodup (settings : Settings) (vs : List Violation) :
    ((aggregate settings vs).violations.map Violation.key).Nodup := by
  rw [aggregate_eq]
  exact ((List.mergeSort_perm _ _).map _).nodup_iff.2 (reported_nodup settings vs)

/-- **At a key a report holds what the settings make of the first violation there.** -/
theorem atKey_aggregate (settings : Settings) (vs : List Violation) (key : String × Span) :
    atKey key (aggregate settings vs).violations = (atKey key vs).bind (settle settings) := by
  ext w
  rw [atKey_eq_some_iff (aggregate_nodup settings vs), aggregate_eq, List.mem_mergeSort, mem_reported]
  constructor
  · rintro ⟨hw, rfl⟩
    exact hw
  · intro hw
    obtain ⟨v, hv, hset⟩ := Option.bind_eq_some_iff.1 hw
    have hkey : w.key = key := (settle_key hset).1.trans (key_of_atKey hv)
    rw [hkey]
    exact ⟨hw, rfl⟩

/-- **Reports that hold the same at every key are the same.** -/
theorem eq_of_atKey {xs ys : List Violation}
    (h : ∀ key, (atKey key xs).bind (settle settings) = (atKey key ys).bind (settle settings)) :
    aggregate settings xs = aggregate settings ys := by
  have hmem (v : Violation) :
      v ∈ (aggregate settings xs).violations ↔ v ∈ (aggregate settings ys).violations := by
    rw [aggregate_eq, aggregate_eq, List.mem_mergeSort, List.mem_mergeSort, mem_reported, mem_reported, h]
  have heq := eq_of_ordered (report_ordered settings xs) (report_ordered settings ys) hmem
  cases hx : aggregate settings xs
  cases hy : aggregate settings ys
  simpa [hx, hy] using heq

/-- **Violations that start one after the other stay as they stand.** No two of them have one key,
and they are in order. -/
theorem aggregate_ascending {vs : List Violation} (h : vs.Pairwise fun a b => a.span.start < b.span.start) :
    (aggregate settings vs).violations = vs.filterMap (settle settings) := by
  have hkeys : (vs.map Violation.key).Nodup := by
    refine List.pairwise_map.2 (h.imp fun {a b} hlt hkey => ?_)
    have hspan : a.span = b.span := congrArg Prod.snd hkey
    rw [hspan] at hlt
    exact Nat.lt_irrefl _ hlt
  have hordered : (vs.filterMap (settle settings)).Pairwise fun a b => a.place < b.place := by
    refine h.filterMap (settle settings) fun a a' hlt b hb b' hb' => ?_
    have hspan : b.span = a.span := congrArg Prod.snd (settle_key hb).1
    have hspan' : b'.span = a'.span := congrArg Prod.snd (settle_key hb').1
    unfold Violation.place
    rw [Prod.Lex.toLex_lt_toLex, hspan, hspan']
    exact .inl hlt
  refine eq_of_ordered (report_ordered settings vs) hordered fun w => ?_
  rw [aggregate_eq, List.mem_mergeSort, mem_reported, List.mem_filterMap, Option.bind_eq_some_iff]
  constructor
  · rintro ⟨v, hv, hw⟩
    exact ⟨v, ((atKey_eq_some_iff hkeys).1 hv).1, hw⟩
  · rintro ⟨v, hv, hw⟩
    exact ⟨v, (atKey_eq_some_iff hkeys).2 ⟨hv, (settle_key hw).1.symm⟩, hw⟩

/-! ### Aggregation -/

/-- Violations may be aggregated before more are added. -/
theorem aggregate_append (settings : Settings) (xs ys : List Violation) :
    aggregate settings ((aggregate settings xs).violations ++ ys) = aggregate settings (xs ++ ys) := by
  refine eq_of_atKey fun key => ?_
  rw [atKey_append, atKey_append, atKey_aggregate]
  cases hx : atKey key xs with
  | none => rfl
  | some v =>
    simp only [Option.some_or, Option.bind_some]
    cases hv : settle settings v with
    | some w => rw [Option.some_or, Option.bind_some, settle_settle hv]
    | none =>
      -- the rule takes no part, so nothing that is added at this key does
      rw [Option.none_or]
      cases hy : atKey key ys with
      | none => rfl
      | some u =>
        have hrule : u.rule = v.rule :=
          congrArg Prod.fst ((key_of_atKey hy).trans (key_of_atKey hx).symm)
        rw [Option.bind_some, settle_eq_none_of_rule hrule hv]

/-- The start, rule and end of a violation, by which reports are read. -/
def Violation.spot (v : Violation) : ℕ ×ₗ String ×ₗ ℕ :=
  toLex (v.span.start, toLex (v.rule, v.span.stop))

theorem spot_lt_of_place {a b : Violation} (hkey : a.key ≠ b.key) (h : a.place < b.place) : a.spot < b.spot := by
  unfold Violation.place at h
  unfold Violation.spot
  simp only [Prod.Lex.toLex_lt_toLex] at h ⊢
  rcases h with h | ⟨hstart, h | ⟨hrule, h | ⟨hstop, -⟩⟩⟩
  · exact .inl h
  · exact .inr ⟨hstart, .inl h⟩
  · exact .inr ⟨hstart, .inr ⟨hrule, h⟩⟩
  · have hspan : a.span = b.span := by
      cases ha : a.span
      cases hb : b.span
      simp_all
    exact absurd (Prod.ext hrule hspan) hkey

/-- **What a report keeps.** It holds, for each rule at each span, what the settings make of the
first violation there, and nothing else; it is strictly increasing by start, rule and end; and
aggregating part of the violations first changes nothing, nor does aggregating twice. -/
theorem aggregate_keeps_firsts (settings : Settings) (xs : List Violation) :
    (∀ w, w ∈ (aggregate settings xs).violations ↔
        ∃ v, xs.find? (fun u => u.rule = w.rule ∧ u.span = w.span) = some v ∧ Settled settings v w) ∧
      (aggregate settings xs).violations.Pairwise (fun a b => a.spot < b.spot) ∧
      (∀ ys, aggregate settings ((aggregate settings xs).violations ++ ys) = aggregate settings (xs ++ ys)) ∧
      aggregate settings (aggregate settings xs).violations = aggregate settings xs := by
  refine ⟨fun w => ?_, ?_, aggregate_append settings xs, ?_⟩
  · have hfind : xs.find? (fun u => u.rule = w.rule ∧ u.span = w.span) = atKey w.key xs := by
      refine congrArg (fun p => xs.find? p) (funext fun u => ?_)
      rw [Bool.eq_iff_iff, decide_eq_true_iff, beq_iff_eq, Violation.key, Violation.key, Prod.mk.injEq]
    rw [aggregate_eq, List.mem_mergeSort, mem_reported, Option.bind_eq_some_iff, hfind]
    simp only [settle_eq_some_iff]
  · have hkeys := List.pairwise_map.1 (aggregate_nodup settings xs)
    exact ((report_ordered settings xs).and hkeys).imp fun h => spot_lt_of_place h.2 h.1
  · simpa using aggregate_append settings xs []

end HouseStyle
