import HouseStyle.Proofs.Settings.Shown

/-!
# Settings are read entry by entry

Nothing in a table of settings hides, changes or repeats what is said about something else in it.
A table is cut into parts: what stands under no key of settings, each key alone, each entry of the
table of rules alone. Every part is a table of settings of its own.

* `problems_parts`: what is wrong with a table is what is wrong with its parts, in order.
* `rule_own`: the settings of a rule come from its own entry.
* `ofEntries_entrywise`: **a table is accepted exactly when its parts are, otherwise all that is
  wrong with them is reported at once, and each rule has the settings of its own part.**
-/

namespace HouseStyle

namespace Settings

/-! ### The parts of a table -/

/-- What stands under keys that settings do not have. -/
def unknownEntries (entries : List (String × Data)) : List (String × Data) :=
  entries.filter fun e => !topLevelKeys.contains e.1

/-- The entry of a key alone, if there is one. -/
def only (key : String) (entries : List (String × Data)) : List (String × Data) :=
  (Data.lookup key entries).toList.map fun value => (key, value)

/-- The keys of the settings that are not about single rules, in the order of their problems. -/
def plainKeys : List String :=
  ["include", "exclude", "output_format", "jobs", "max_fix_iterations"]

/-- The settings with an entry of the table of rules alone. -/
def ruleAlone (entry : String × Data) : List (String × Data) :=
  [("rules", .table [entry])]

/-- The settings with each entry of the table of rules alone, or with what stands in the place of
that table. -/
def ruleParts (entries : List (String × Data)) : List (List (String × Data)) :=
  match Data.lookup "rules" entries with
  | none => []
  | some (.table rules) => rules.map ruleAlone
  | some value => [[("rules", value)]]

/-- The parts of a table of settings in the order of their problems. -/
def parts (entries : List (String × Data)) : List (List (String × Data)) :=
  unknownEntries entries :: plainKeys.map (fun key => only key entries) ++ ruleParts entries

/-- The entry of a rule, if it has one. -/
def writtenRule? (entries : List (String × Data)) (id : RuleId) : Option Data :=
  match Data.lookup "rules" entries with
  | some (.table rules) => Data.lookup id.name rules
  | _ => none

/-- The settings with the entry of a rule alone, if it has one. -/
def ownPart (entries : List (String × Data)) (id : RuleId) : List (String × Data) :=
  match writtenRule? entries id with
  | none => []
  | some value => ruleAlone (id.name, value)

/-! ### What is wrong with a part -/

theorem keyProblems_eq_nil {entries : List (String × Data)} (h : ∀ k ∈ entries.map Prod.fst, k ∈ topLevelKeys) :
    keyProblems entries = [] := by
  rw [keyProblems, unknownKeys_eq_nil h]

theorem keyProblems_unknownEntries (entries : List (String × Data)) :
    keyProblems (unknownEntries entries) = keyProblems entries := by
  have hkeys : (unknownEntries entries).map Prod.fst =
      (entries.map Prod.fst).filter (fun k => !topLevelKeys.contains k) := by
    rw [List.filter_map]
    rfl
  simp only [keyProblems, unknownKeys, hkeys, List.filter_filter, Bool.and_self]

theorem lookup_eq_none {key : String} {entries : List (String × Data)} (h : ∀ e ∈ entries, e.1 ≠ key) :
    Data.lookup key entries = none := by
  induction entries with
  | nil => rfl
  | cons entry entries ih =>
    rw [Data.lookup, if_neg (h entry List.mem_cons_self)]
    exact ih fun e he => h e (List.mem_cons_of_mem _ he)

/-- No key of settings is left among the unknown ones. -/
theorem lookup_unknownEntries {key : String} (hkey : key ∈ topLevelKeys) (entries : List (String × Data)) :
    Data.lookup key (unknownEntries entries) = none := by
  refine lookup_eq_none fun e he heq => ?_
  have hunknown := (List.mem_filter.1 he).2
  rw [heq] at hunknown
  simp [hkey] at hunknown

theorem lookup_only (key key' : String) (entries : List (String × Data)) :
    Data.lookup key' (only key entries) = if key = key' then Data.lookup key entries else none := by
  unfold only
  cases Data.lookup key entries with
  | none => split <;> rfl
  | some value => rfl

theorem keyProblems_only {key : String} (hkey : key ∈ topLevelKeys) (entries : List (String × Data)) :
    keyProblems (only key entries) = [] := by
  refine keyProblems_eq_nil fun k hk => ?_
  obtain ⟨e, he, rfl⟩ := List.mem_map.1 hk
  obtain ⟨value, -, rfl⟩ := List.mem_map.1 he
  exact hkey

theorem keyProblems_rules (value : Data) : keyProblems [("rules", value)] = [] :=
  keyProblems_eq_nil fun k hk => by
    rw [List.mem_singleton.1 hk]
    exact (by decide : "rules" ∈ topLevelKeys)

/-- What is wrong with a table, key by key. -/
theorem problems_eq (entries : List (String × Data)) :
    problems entries = keyProblems entries ++
      (readPatterns "include" defaultIncludes (Data.lookup "include" entries)).problems ++
      (readPatterns "exclude" defaultExcludes (Data.lookup "exclude" entries)).problems ++
      (readFormat (Data.lookup "output_format" entries)).problems ++
      (readJobs (Data.lookup "jobs" entries)).problems ++
      (readMaxFixIterations (Data.lookup "max_fix_iterations" entries)).problems ++
      (readRules ((Data.lookup "rules" entries).getD (.table []))).problems := rfl

theorem problems_unknownEntries (entries : List (String × Data)) :
    problems (unknownEntries entries) = keyProblems entries := by
  have hnone : ∀ key ∈ topLevelKeys, Data.lookup key (unknownEntries entries) = none :=
    fun key hkey => lookup_unknownEntries hkey entries
  simp only [topLevelKeys, List.forall_mem_cons] at hnone
  obtain ⟨hincludes, hexcludes, hformat, hjobs, hrounds, hrules, -⟩ := hnone
  rw [problems_eq, keyProblems_unknownEntries, hincludes, hexcludes, hformat, hjobs, hrounds, hrules]
  simp only [readPatterns, readFormat, readJobs, readMaxFixIterations, readRules, Reading.fine, Option.getD_none,
    List.flatMap_nil, List.append_nil]

/-- A key alone says what it says among others. -/
theorem flatMap_plainKeys (entries : List (String × Data)) :
    plainKeys.flatMap (fun key => problems (only key entries)) =
      (readPatterns "include" defaultIncludes (Data.lookup "include" entries)).problems ++
      (readPatterns "exclude" defaultExcludes (Data.lookup "exclude" entries)).problems ++
      (readFormat (Data.lookup "output_format" entries)).problems ++
      (readJobs (Data.lookup "jobs" entries)).problems ++
      (readMaxFixIterations (Data.lookup "max_fix_iterations" entries)).problems := by
  have hknown : ∀ key ∈ plainKeys, keyProblems (only key entries) = [] :=
    fun key hkey => keyProblems_only (by revert key; decide) entries
  simp only [plainKeys, List.forall_mem_cons] at hknown
  obtain ⟨hincludes, hexcludes, hformat, hjobs, hrounds, -⟩ := hknown
  simp [plainKeys, problems_eq, hincludes, hexcludes, hformat, hjobs, hrounds, lookup_only, readPatterns,
    readFormat, readJobs, readMaxFixIterations, readRules, Reading.fine]

/-- The settings of rules alone have only what is wrong with those. -/
theorem problems_rules (value : Data) : problems [("rules", value)] = (readRules value).problems := by
  rw [problems_eq, keyProblems_rules]
  simp [Data.lookup, readPatterns, readFormat, readJobs, readMaxFixIterations, Reading.fine]

theorem problems_ruleAlone (entry : String × Data) : problems (ruleAlone entry) = ruleProblems entry := by
  rw [ruleAlone, problems_rules, readRules]
  exact List.append_nil _

theorem flatMap_ruleParts (entries : List (String × Data)) :
    (ruleParts entries).flatMap problems =
      (readRules ((Data.lookup "rules" entries).getD (.table []))).problems := by
  unfold ruleParts
  split
  · rename_i hnone
    rw [hnone]
    rfl
  · rename_i rules hrules
    rw [hrules, List.flatMap_map]
    simp only [problems_ruleAlone]
    rfl
  · rename_i value _ hvalue
    rw [hvalue, List.flatMap_singleton, problems_rules]
    rfl

/-- **What is wrong with a table is what is wrong with its parts, in order.** -/
theorem problems_parts (entries : List (String × Data)) : problems entries = (parts entries).flatMap problems := by
  rw [parts, List.flatMap_append, List.flatMap_cons, List.flatMap_map, problems_unknownEntries,
    flatMap_plainKeys, flatMap_ruleParts, problems_eq]
  simp only [List.append_assoc]

/-! ### The settings of a rule -/

/-- Nothing is wrong with the part of a rule if nothing is wrong with the table. -/
theorem problems_ownPart {entries : List (String × Data)} (h : problems entries = []) (id : RuleId) :
    problems (ownPart entries id) = [] := by
  unfold ownPart
  split
  · decide +kernel
  · rename_i value hvalue
    unfold writtenRule? at hvalue
    split at hvalue
    · rename_i rules hrules
      rw [problems_parts, List.flatMap_eq_nil_iff] at h
      refine h _ (List.mem_append_right _ ?_)
      rw [ruleParts, hrules]
      exact List.mem_map_of_mem (mem_of_lookup hvalue)
    · cases hvalue

/-- What a table says about a rule. -/
theorem rule_eq (path : Option String) (entries : List (String × Data)) (id : RuleId) :
    (read path entries).value.rule id =
      ((writtenRule? entries id).map fun value => (readRule id value).value).getD (.default id) := by
  change (readRules ((Data.lookup "rules" entries).getD (.table []))).value id = _
  unfold writtenRule?
  split
  · rename_i rules hrules
    rw [hrules, Option.getD_some, readRules]
    cases hentry : Data.lookup id.name rules <;> simp only [hentry] <;> rfl
  · rename_i hother
    cases hrules : Data.lookup "rules" entries with
    | none => rfl
    | some value =>
      rw [Option.getD_some]
      unfold readRules
      split
      · exact absurd hrules (hother _)
      · rfl

theorem writtenRule?_ruleAlone (id : RuleId) (value : Data) :
    writtenRule? (ruleAlone (id.name, value)) id = some value := by
  have hlookup : Data.lookup id.name [(id.name, value)] = some value := if_pos rfl
  rw [← hlookup]
  rfl

/-- **The settings of a rule come from its own entry.** -/
theorem rule_own (path : Option String) (entries : List (String × Data)) (id : RuleId) :
    (read path entries).value.rule id = (read path (ownPart entries id)).value.rule id := by
  rw [rule_eq, rule_eq, ownPart]
  cases hentry : writtenRule? entries id with
  | none => rfl
  | some value => rw [writtenRule?_ruleAlone]

/-! ### Acceptance -/

theorem ofEntries_of_fine {path : Option String} {entries : List (String × Data)} (h : problems entries = []) :
    ofEntries path entries = .ok (read path entries).value := by
  have hproblems : (read path entries).problems = [] := h
  rw [ofEntries, hproblems]
  rfl

theorem ofEntries_of_problems {path : Option String} {entries : List (String × Data)}
    (h : problems entries ≠ []) :
    ofEntries path entries = .error (.settings (problemsMessage (problems entries)) path) :=
  if_neg fun hempty => h (List.isEmpty_iff.1 hempty)

/-- What it means that a table is read entry by entry. -/
structure ReadEntrywise (path : Option String) (entries : List (String × Data)) : Prop where
  /-- What is wrong with the table is what is wrong with each of its parts, in order. -/
  lines : problems entries = (parts entries).flatMap problems
  /-- All of it is reported. -/
  refused : problems entries ≠ [] →
    ofEntries path entries = .error (.settings (problemsMessage (problems entries)) path)
  /-- Where there is none the table is accepted, and the settings of each rule are those of its own
  entry, which is accepted alone. -/
  accepted : problems entries = [] → ∃ s, ofEntries path entries = .ok s ∧
    ∀ id, ∃ own, ofEntries path (ownPart entries id) = .ok own ∧ s.rule id = own.rule id
  /-- A rule without an entry has the default settings. -/
  default : ∀ s, ofEntries path entries = .ok s → ∀ id, writtenRule? entries id = none → s.rule id = .default id

/-- **Settings are read entry by entry**: every table of settings is. -/
theorem ofEntries_entrywise (path : Option String) (entries : List (String × Data)) :
    ReadEntrywise path entries where
  lines := problems_parts entries
  refused := ofEntries_of_problems
  accepted hfine := by
    refine ⟨_, ofEntries_of_fine hfine, fun id => ⟨_, ofEntries_of_fine (problems_ownPart hfine id), ?_⟩⟩
    exact rule_own path entries id
  default s hs id hnone := by
    have hfine : problems entries = [] := by
      by_contra hproblems
      rw [ofEntries_of_problems hproblems] at hs
      cases hs
    rw [ofEntries_of_fine hfine] at hs
    cases hs
    rw [rule_eq, hnone]
    rfl

end Settings

end HouseStyle
