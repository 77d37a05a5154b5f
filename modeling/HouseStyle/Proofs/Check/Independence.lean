import HouseStyle.Proofs.Check.Report
import HouseStyle.Proofs.Check.Traversal
import HouseStyle.Rule.Catalogue

/-!
# Rules do not influence each other

The turns of the rules of an identifier, and with them their findings and what the report says
under it, are the same whatever other rules run along, whether these crash or not.

* `filter_turns`: the turns of an identifier are those that its rules have by themselves.
* `matchTree_filter`: so are the findings.
* `matchTree_congr`: the findings depend on the settings of the rules alone.
* `part_of_rules`: what a report says under an identifier depends on its rules alone.
-/

namespace HouseStyle

variable {t : Source} {settings : Settings} {rulesFor : String → List Rule}

/-! ### Turns -/

/-- The rules of an identifier. -/
def rulesOf (id : String) (rules : List Rule) : List Rule :=
  rules.filter fun r => r.id == id

theorem rulesOf_rulesAt (language : Language) (rules : List Rule) (kind id : String) :
    rulesOf id (rulesAt language rules kind) = rulesAt language (rulesOf id rules) kind :=
  filter_rulesAt language rules kind id

theorem rulesOf_idem (id : String) (rules : List Rule) : rulesOf id (rulesOf id rules) = rulesOf id rules := by
  simp [rulesOf]

/-- The memory of an identifier depends on its rules alone. -/
theorem memoryAfter_rulesOf (scope : Scope) (n : Node) (rs : List Rule) (id : String) (m : Memory) :
    memoryAfter t settings scope n (rulesOf id rs) id m = memoryAfter t settings scope n rs id m := by
  have := rulesOf_idem id rs
  unfold rulesOf at this
  rw [memoryAfter, memoryAfter, rulesOf, this]

theorem memoryBelow_rulesOf (language : Language) (rules : List Rule) (scope : Scope) (siblings : List Node)
    (id : String) :
    memoryBelow t settings (rulesAt language (rulesOf id rules)) scope siblings id =
      memoryBelow t settings (rulesAt language rules) scope siblings id := by
  unfold memoryBelow
  congr 1
  funext m n
  rw [← rulesOf_rulesAt, memoryAfter_rulesOf]

/-- The turns of an identifier at a node are those that its rules have by themselves. -/
theorem filter_turnsFrom {scope : Scope} {n : Node} {memory memory' : String → Memory} {id : String}
    (hm : memory' id = memory id) (rs before : List Rule) :
    (turnsFrom t settings scope n memory before rs).filter (fun u => u.rule.id == id) =
      turnsFrom t settings scope n memory' (rulesOf id before) (rulesOf id rs) := by
  induction rs generalizing before with
  | nil => rfl
  | cons r rest ih =>
    have hrest := ih (before ++ [r])
    by_cases hid : r.id = id
    · subst hid
      have hrs : rulesOf r.id (r :: rest) = r :: rulesOf r.id rest := by simp [rulesOf]
      have hbefore : rulesOf r.id (before ++ [r]) = rulesOf r.id before ++ [r] := by simp [rulesOf]
      rw [hrs, turnsFrom, turnsFrom, List.filter_cons_of_pos (by simp), hrest, hbefore, memoryAfter_rulesOf, hm]
    · have hrs : rulesOf id (r :: rest) = rulesOf id rest := by simp [rulesOf, hid]
      have hbefore : rulesOf id (before ++ [r]) = rulesOf id before := by simp [rulesOf, hid]
      rw [hrs, turnsFrom, List.filter_cons_of_neg (by simpa using hid), hrest, hbefore]

/-- **The turns of an identifier** are those that its rules have by themselves. -/
theorem filter_turns (language : Language) (rules : List Rule) (id : String) (tree : Node) :
    (turns t settings (rulesAt language rules) tree).filter (fun u => u.rule.id == id) =
      turns t settings (rulesAt language (rulesOf id rules)) tree := by
  unfold turns
  rw [List.filter_flatMap]
  congr 1
  funext s
  unfold turnsAt
  rw [← rulesOf_rulesAt]
  exact filter_turnsFrom (memoryBelow_rulesOf language rules _ s.earlier id) _ []

/-! ### Findings -/

theorem rule_of_found {u : Turn} : ∀ f ∈ u.found, f.rule = u.rule :=
  fun f hf => (runRule_origin f hf).1

theorem filter_found (us : List Turn) (id : String) :
    (us.flatMap Turn.found).filter (fun f => f.rule.id == id) =
      (us.filter fun u => u.rule.id == id).flatMap Turn.found := by
  induction us with
  | nil => rfl
  | cons u us ih =>
    rw [List.flatMap_cons, List.filter_append, ih]
    by_cases hid : u.rule.id = id
    · have hall : u.found.filter (fun f => f.rule.id == id) = u.found := by
        refine List.filter_eq_self.2 fun f hf => ?_
        rw [rule_of_found f hf]
        simpa using hid
      rw [hall, List.filter_cons_of_pos (by simpa using hid), List.flatMap_cons]
    · have hnone : u.found.filter (fun f => f.rule.id == id) = [] := by
        refine List.filter_eq_nil_iff.2 fun f hf => ?_
        rw [rule_of_found f hf]
        simpa using hid
      rw [hnone, List.filter_cons_of_neg (by simpa using hid), List.nil_append]

/-- **The findings of an identifier** are those that its rules have by themselves. -/
theorem matchTree_filter {p : Parsed} {rules : List Rule} {found : List Finding}
    (h : matchTree p rules settings = .ok found) (id : String) :
    matchTree p (rulesOf id rules) settings = .ok (found.filter fun f => f.rule.id == id) := by
  cases htree : p.tree? with
  | none =>
    simp only [matchTree, htree] at h ⊢
    cases h
    rfl
  | some tree =>
    rw [matchTree_eq _ _ htree] at h ⊢
    obtain ⟨hknown, rfl⟩ := collect_eq_ok_iff.1 h
    rw [filter_found, filter_turns]
    refine collect_eq_ok_iff.2 ⟨fun u hu => hknown u ?_, rfl⟩
    rw [← filter_turns] at hu
    exact (List.mem_filter.1 hu).1

/-! ### Settings -/

theorem turnsFrom_congr {settings' : Settings} (h : settings.rule = settings'.rule) {scope : Scope} {n : Node}
    {memory memory' : String → Memory} (hm : memory = memory') (before rs : List Rule) :
    turnsFrom t settings scope n memory before rs = turnsFrom t settings' scope n memory' before rs := by
  subst hm
  induction rs generalizing before with
  | nil => rfl
  | cons r rest ih => simp only [turnsFrom, memoryAfter, contextFor, h, ih]

/-- What rules find depends on the settings of the rules alone. -/
theorem matchTree_congr {p : Parsed} {rules : List Rule} {settings' : Settings}
    (h : settings.rule = settings'.rule) : matchTree p rules settings = matchTree p rules settings' := by
  cases htree : p.tree? with
  | none => simp only [matchTree, htree]
  | some tree =>
    have hmemory (scope : Scope) (siblings : List Node) :
        memoryBelow p.text settings (rulesAt p.language rules) scope siblings =
          memoryBelow p.text settings' (rulesAt p.language rules) scope siblings := by
      funext id
      simp only [memoryBelow, memoryAfter, contextFor, h]
    have hturns : turns p.text settings (rulesAt p.language rules) tree =
        turns p.text settings' (rulesAt p.language rules) tree := by
      unfold turns
      congr 1
      funext s
      exact turnsFrom_congr h (hmemory _ _) [] _
    rw [matchTree_eq _ _ htree, matchTree_eq _ _ htree, hturns]

/-! ### Reports -/

/-- A rule reports under its own identifier only. -/
def Rule.ReportsOwn (r : Rule) : Prop :=
  ∀ n c m vs, c.info = r.info → (r.check n c m).1 = .ok vs → ∀ v ∈ vs, v.rule = r.id

/-- What is true of the violations that a rule reports is true of its findings, unless they are
about its crash. -/
theorem violation_of_runRule {r : Rule} {n : Node} {c : Context} {P : Violation → Prop}
    (hr : ∀ m vs, r.applies n = .ok true → (r.check n c m).1 = .ok vs → ∀ v ∈ vs, P v) {m : Memory} :
    ∀ f ∈ (runRule r n c m).1, P f.violation ∨ f.violation.rule = ruleCrashId := by
  intro f hf
  unfold runRule at hf
  split at hf
  · rw [List.mem_singleton.1 hf]
    exact .inr rfl
  · cases hf
  · rename_i happlies
    split at hf
    · rw [List.mem_singleton.1 hf]
      exact .inr rfl
    · rename_i hcheck
      obtain ⟨v, hv, rfl⟩ := List.mem_map.1 hf
      unfold findingOf
      split
      · exact .inr rfl
      · exact .inl (hr m _ happlies (congrArg Prod.fst hcheck) v hv)

theorem violation_of_matchTree {p : Parsed} {rules : List Rule} (P : Rule → Violation → Prop)
    (hP : ∀ r ∈ rules, ∀ n c m vs, c.info = r.info → r.applies n = .ok true →
      (r.check n c m).1 = .ok vs → ∀ v ∈ vs, P r v)
    {found : List Finding} (h : matchTree p rules settings = .ok found) :
    ∀ f ∈ found, P f.rule f.violation ∨ f.violation.rule = ruleCrashId := by
  refine matchTree_forall (fun r hr _ scope n m f hf => ?_) h
  rw [(runRule_origin f hf).1]
  exact violation_of_runRule (fun m vs => hP r hr n _ m vs rfl) f hf

/-- What is reported under an identifier comes from the findings of its rules. -/
theorem part_found {id : String} (hid : isInternalId id = false) {found : List Finding}
    (hown : ∀ f ∈ found, f.violation.rule = f.rule.id ∨ f.violation.rule = ruleCrashId) :
    part id (found.map Finding.violation) =
      part id ((found.filter fun f => f.rule.id == id).map Finding.violation) := by
  have hcrash : ruleCrashId ≠ id := by
    rintro rfl
    exact absurd hid (by decide)
  rw [part, part, List.filter_map, List.filter_map, List.filter_filter]
  congr 1
  refine List.filter_congr fun f hf => ?_
  rcases hown f hf with hrule | hrule
  · simp [hrule]
  · simp [hrule, hcrash]

/-- **What a report says under an identifier depends on the rules of the identifier alone**,
whatever the others do. -/
theorem part_of_rules {p : Parsed} {rules : List Rule} (hrules : ∀ r ∈ rules, r.ReportsOwn)
    {found : List Finding} (h : matchTree p rules settings = .ok found) {id : String}
    (hid : isInternalId id = false) :
    ∃ own, matchTree p (rulesOf id rules) settings = .ok own ∧
      part id (aggregate settings (found.map Finding.violation)).violations =
        (aggregate settings (part id (own.map Finding.violation))).violations := by
  refine ⟨_, matchTree_filter h id, ?_⟩
  have hown := violation_of_matchTree (fun r v => v.rule = r.id)
    (fun r hr n c m vs hc _ hvs => hrules r hr n c m vs hc hvs) h
  rw [part_report, part_found hid hown]

end HouseStyle
