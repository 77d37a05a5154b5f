import HouseStyle.Proofs.Check.Independence
import HouseStyle.Proofs.Fix.Contract
import HouseStyle.Proofs.Rule.Reports

/-!
# Separate rules

Rules are separate when their identifiers differ, each reports under its own, and each has
settings. The report about a text is then put together from what the rules say one by one: it
does not matter in which order they are given, which other rules run along or crash, and to
which of them the run is narrowed.

* `part_ofRules_eq`: two reports agree under an identifier that they treat alike.
* `eq_of_ofRules_parts`: reports that agree under each identifier agree.
* `ofRules_restrict`: a narrowed run reports part of what the whole run reports.
* `reports_separate`: separate rules do not influence each other.
-/

namespace HouseStyle

variable {t : Source} {p : Parsed} {rules rules' : List Rule} {settings settings' : Settings} {c c' : Checked}

/-- Rules that differ in their identifiers, report under their own, and have settings. -/
structure Separate (rules : List Rule) : Prop where
  ids : (rules.map Rule.id).Nodup
  own : ∀ r ∈ rules, r.ReportsOwn
  known : ∀ r ∈ rules, (RuleId.ofName? r.id).isSome

/-- A rule that crashes at each node that concerns it. -/
def Rule.OnlyCrashes (r : Rule) : Prop :=
  ∀ n c m, r.applies n = .ok true → ∃ crash, (r.check n c m).1 = .error crash

/-- What rules report about a text under some settings. -/
def Reports (p : Parsed) (rules : List Rule) (settings : Settings) (vs : List Violation) : Prop :=
  ∃ c, checkParsed p rules settings = .ok c ∧ c.report.ofRules = vs

/-! ### Checks compared -/

/-- What the settings make of a violation depends on the rule that it is under. -/
theorem settle_congr {v : Violation} (hrule : settings.rule = settings'.rule)
    (henabled : settings.isEnabled v.rule = settings'.isEnabled v.rule) : settle settings v = settle settings' v := by
  have hseverity : settings.severity? v.rule = settings'.severity? v.rule := by
    rw [Settings.severity?, Settings.severity?, hrule]
  rw [settle, settle, henabled, hseverity]

theorem aggregate_congr {vs : List Violation} (h : ∀ v ∈ vs, settle settings v = settle settings' v) :
    aggregate settings vs = aggregate settings' vs := by
  have hsub : ∀ (seen : List (String × Span)) (ws : List Violation), ∀ v ∈ firstOfEach seen ws, v ∈ ws := by
    intro seen ws
    induction ws generalizing seen with
    | nil => exact fun v hv => hv
    | cons w ws ih =>
      intro v hv
      simp only [firstOfEach] at hv
      split at hv
      · exact List.mem_cons_of_mem _ (ih _ v hv)
      · rcases List.mem_cons.1 hv with rfl | hv
        · exact List.mem_cons_self
        · exact List.mem_cons_of_mem _ (ih _ v hv)
  have hsettle : (firstOfEach [] vs).filterMap (settle settings) = (firstOfEach [] vs).filterMap (settle settings') :=
    List.filterMap_congr fun v hv => h v (hsub [] vs v hv)
  rw [aggregate, aggregate, hsettle]

/-- A check of a parsed text reports what the rules find in it. -/
theorem report_of_checkParsed (hfault : p.fault? = none) (h : checkParsed p rules settings = .ok c) :
    ∃ found, matchTree p rules settings = .ok found ∧
      c.report = aggregate settings (found.map Finding.violation) := by
  simp only [checkParsed, hfault] at h
  split at h
  · cases h
  · rename_i found hfound
    cases h
    exact ⟨found, hfound, rfl⟩

/-- The rules report nothing about a text that was not parsed. -/
theorem ofRules_of_fault {u : Unparsed} (hfault : p.fault? = some u) (h : checkParsed p rules settings = .ok c) :
    c.report.ofRules = [] := by
  simp only [checkParsed, hfault] at h
  cases h
  rfl

/-- **Two reports agree under an identifier** for which the same rules run and which both
settings treat alike. -/
theorem part_ofRules_eq {id : String} (hown : ∀ r ∈ rules, r.ReportsOwn) (hown' : ∀ r ∈ rules', r.ReportsOwn)
    (hids : rulesOf id rules = rulesOf id rules') (hrule : settings.rule = settings'.rule)
    (henabled : settings.isEnabled id = settings'.isEnabled id)
    (h : checkParsed p rules settings = .ok c) (h' : checkParsed p rules' settings' = .ok c') :
    part id c.report.ofRules = part id c'.report.ofRules := by
  cases hid : isInternalId id with
  | true => rw [part_ofRules_internal hid, part_ofRules_internal hid]
  | false =>
    cases hfault : p.fault? with
    | some u => rw [ofRules_of_fault hfault h, ofRules_of_fault hfault h']
    | none =>
      obtain ⟨found, hfound, hreport⟩ := report_of_checkParsed hfault h
      obtain ⟨found', hfound', hreport'⟩ := report_of_checkParsed hfault h'
      obtain ⟨alone, halone, hpart⟩ := part_of_rules hown hfound hid
      obtain ⟨alone', halone', hpart'⟩ := part_of_rules hown' hfound' hid
      have hsame : alone = alone' := by
        rw [hids, matchTree_congr hrule, halone'] at halone
        cases halone
        rfl
      rw [part_ofRules hid, part_ofRules hid, hreport, hreport', hpart, hpart', hsame]
      refine congrArg Report.violations (aggregate_congr fun v hv => settle_congr hrule ?_)
      rw [(mem_part.1 hv).2, henabled]

theorem ofRules_ordered (h : checkParsed p rules settings = .ok c) :
    c.report.ofRules.Pairwise fun a b => a.place < b.place := by
  cases hfault : p.fault? with
  | some u =>
    rw [ofRules_of_fault hfault h]
    exact .nil
  | none =>
    obtain ⟨found, -, hreport⟩ := report_of_checkParsed hfault h
    rw [Report.ofRules, hreport]
    exact (report_ordered settings _).filter _

/-- Under an identifier that takes no part nothing is reported. -/
theorem part_ofRules_disabled {id : String} (hid : settings.isEnabled id = false)
    (h : checkParsed p rules settings = .ok c) : part id c.report.ofRules = [] := by
  cases hinternal : isInternalId id with
  | true => exact part_ofRules_internal hinternal _
  | false =>
    cases hfault : p.fault? with
    | some u =>
      rw [ofRules_of_fault hfault h]
      rfl
    | none =>
      obtain ⟨found, -, hreport⟩ := report_of_checkParsed hfault h
      rw [part_ofRules hinternal, hreport, aggregate_eq, List.eq_nil_iff_forall_not_mem]
      intro v hv
      obtain ⟨hv, hrule⟩ := mem_part.1 hv
      obtain ⟨w, -, hw⟩ := List.mem_filterMap.1 (List.mem_mergeSort.1 hv)
      have hwrule : w.rule = id := by rw [← hrule, (settle_key hw).2]
      simp [settle, hwrule, hid, hinternal] at hw

/-- Under an identifier whose rules only crash nothing is reported. -/
theorem part_ofRules_crashing {id : String} (hrules : ∀ r ∈ rules, r.ReportsOwn)
    (hcrash : ∀ r ∈ rulesOf id rules, r.OnlyCrashes) (h : checkParsed p rules settings = .ok c) :
    part id c.report.ofRules = [] := by
  cases hinternal : isInternalId id with
  | true => exact part_ofRules_internal hinternal _
  | false =>
    cases hfault : p.fault? with
    | some u =>
      rw [ofRules_of_fault hfault h]
      rfl
    | none =>
      obtain ⟨found, hfound, hreport⟩ := report_of_checkParsed hfault h
      obtain ⟨alone, halone, hpart⟩ := part_of_rules hrules hfound hinternal
      have hall := violation_of_matchTree (fun _ _ => False)
        (fun r hr n c m vs _ happlies hvs => by
          obtain ⟨crash, hcheck⟩ := hcrash r hr n c m happlies
          rw [hcheck] at hvs
          cases hvs) halone
      have hnone : part id (alone.map Finding.violation) = [] := by
        rw [List.eq_nil_iff_forall_not_mem]
        intro v hv
        obtain ⟨hv, hrule⟩ := mem_part.1 hv
        obtain ⟨f, hf, rfl⟩ := List.mem_map.1 hv
        rcases hall f hf with hfalse | hcrashed
        · exact hfalse
        · rw [← hrule, hcrashed] at hinternal
          exact absurd hinternal (by decide)
      rw [part_ofRules hinternal, hreport, hpart, hnone, aggregate_eq]
      simp [reported, firstOfEach]

/-! ### Separate rules -/

/-- Rules of one identifier among separate ones are told by membership. -/
theorem rulesOf_congr {id : String} (hids : (rules.map Rule.id).Nodup) (hids' : (rules'.map Rule.id).Nodup)
    (h : ∀ r : Rule, r.id = id → (r ∈ rules ↔ r ∈ rules')) : rulesOf id rules = rulesOf id rules' := by
  by_cases hsome : ∃ r ∈ rules, r.id = id
  · obtain ⟨r, hr, rfl⟩ := hsome
    rw [rulesOf, rulesOf, filter_id_eq hids hr, filter_id_eq hids' ((h r rfl).1 hr)]
  · have hnil {rs : List Rule} (hrs : ∀ r ∈ rs, r.id ≠ id) : rulesOf id rs = [] := by
      rw [rulesOf, List.filter_eq_nil_iff]
      intro r hr
      simpa using hrs r hr
    have hnone : ∀ r ∈ rules, r.id ≠ id := fun r hr hid => hsome ⟨r, hr, hid⟩
    rw [hnil hnone, hnil fun r hr hid => hnone r ((h r hid).2 hr) hid]

theorem Separate.perm (h : Separate rules) (hperm : rules'.Perm rules) : Separate rules' :=
  ⟨(hperm.map Rule.id).nodup_iff.2 h.ids, fun r hr => h.own r (hperm.subset hr),
    fun r hr => h.known r (hperm.subset hr)⟩

theorem Separate.of_append {others : List Rule} (h : Separate (rules ++ others)) : Separate rules := by
  refine ⟨?_, fun r hr => h.own r (List.mem_append_left _ hr), fun r hr => h.known r (List.mem_append_left _ hr)⟩
  have hids := h.ids
  rw [List.map_append] at hids
  exact (List.nodup_append.1 hids).1

/-- Rules with settings have a report. -/
theorem Separate.reports (h : Separate rules) (p : Parsed) (settings : Settings) :
    ∃ c, checkParsed p rules settings = .ok c ∧ Reports p rules settings c.report.ofRules := by
  obtain ⟨c, hc⟩ := checkParsed_ok h.known settings p
  exact ⟨c, hc, c, hc, rfl⟩

/-- **Reports that agree under each identifier agree.** -/
theorem eq_of_ofRules_parts (h : checkParsed p rules settings = .ok c)
    (h' : checkParsed p rules' settings' = .ok c') (hparts : ∀ id, part id c'.report.ofRules = part id c.report.ofRules) :
    c'.report.ofRules = c.report.ofRules :=
  eq_of_parts (ofRules_ordered h') (ofRules_ordered h) hparts

/-- The order of the rules does not matter. -/
theorem Separate.reports_perm (h : Separate rules) (hperm : rules'.Perm rules) (hc : checkParsed p rules settings = .ok c) :
    Reports p rules' settings c.report.ofRules := by
  have h' := h.perm hperm
  obtain ⟨c', hc', -⟩ := h'.reports p settings
  refine ⟨c', hc', eq_of_ofRules_parts hc hc' fun id => ?_⟩
  exact part_ofRules_eq h'.own h.own (rulesOf_congr h'.ids h.ids fun r _ => hperm.mem_iff) rfl rfl hc' hc

/-- Other rules do not change what is reported under an identifier that is not theirs. -/
theorem Separate.part_append {others : List Rule} (h : Separate (rules ++ others)) {id : String}
    (hid : ∀ r ∈ others, r.id ≠ id) (hc : checkParsed p rules settings = .ok c)
    (hc' : checkParsed p (rules ++ others) settings = .ok c') :
    part id c'.report.ofRules = part id c.report.ofRules := by
  refine part_ofRules_eq h.own h.of_append.own (rulesOf_congr h.ids h.of_append.ids ?_) rfl rfl hc' hc
  intro r hr
  refine ⟨fun hmem => ?_, List.mem_append_left _⟩
  rcases List.mem_append.1 hmem with hmem | hmem
  · exact hmem
  · exact absurd hr (hid r hmem)

theorem Separate.ne_of_append {others : List Rule} (h : Separate (rules ++ others)) {r r' : Rule} (hr : r ∈ rules)
    (hr' : r' ∈ others) : r.id ≠ r'.id := by
  have hids := h.ids
  rw [List.map_append] at hids
  exact (List.nodup_append.1 hids).2.2 _ (List.mem_map_of_mem hr) _ (List.mem_map_of_mem hr')

/-- Other rules that only crash do not change what is reported. -/
theorem Separate.append_crashing {others : List Rule} (h : Separate (rules ++ others))
    (hcrash : ∀ r ∈ others, r.OnlyCrashes) (hc : checkParsed p rules settings = .ok c)
    (hc' : checkParsed p (rules ++ others) settings = .ok c') : c'.report.ofRules = c.report.ofRules := by
  refine eq_of_ofRules_parts hc hc' fun id => ?_
  by_cases hid : ∀ r ∈ others, r.id ≠ id
  · exact h.part_append hid hc hc'
  · simp only [not_forall, not_not] at hid
    obtain ⟨r, hr, rfl⟩ := hid
    have hnone : rulesOf r.id rules = [] := by
      rw [rulesOf, List.filter_eq_nil_iff]
      intro x hx
      simpa using h.ne_of_append hx hr
    have hothers : ∀ x ∈ rulesOf r.id (rules ++ others), x.OnlyCrashes := by
      intro x hx
      rw [rulesOf, List.filter_append, ← rulesOf, hnone, List.nil_append] at hx
      exact hcrash x (List.mem_filter.1 hx).1
    rw [part_ofRules_crashing h.own hothers hc',
      part_ofRules_crashing h.of_append.own (by rw [hnone]; exact List.forall_mem_nil _) hc]

/-! ### Narrowed runs -/

theorem eq_of_restrict {names : List String} (h : settings.restrict names = .ok settings') :
    settings' = { settings with selected := some (names.filterMap RuleId.ofName?) } := by
  simp only [Settings.restrict] at h
  split at h
  · cases h
    rfl
  · cases h

/-- A narrowed run takes part of the rules that took part before. -/
theorem isEnabled_restrict {names : List String} (hall : settings.selected = none)
    (h : settings.restrict names = .ok settings') (name : String) :
    settings'.isEnabled name = (settings.isEnabled name && names.contains name) := by
  rw [eq_of_restrict h]
  unfold Settings.isEnabled
  split
  · rename_i id hid
    have hmem : (names.filterMap RuleId.ofName?).contains id = names.contains name := by
      rw [Bool.eq_iff_iff, List.contains_iff_mem, List.contains_iff_mem, List.mem_filterMap]
      constructor
      · rintro ⟨n, hn, hnid⟩
        rw [← RuleId.ofName?_eq_some_iff.1 hid, RuleId.ofName?_eq_some_iff.1 hnid]
        exact hn
      · exact fun hn => ⟨name, hn, hid⟩
    simp only [Settings.runs, hall, Option.map_some, Option.map_none, Option.getD_some, Option.getD_none,
      hmem, Bool.and_true]
  · rfl

/-- The rules that take part in a run are separate. -/
theorem separate_enabledRules (settings : Settings) : Separate (enabledRules settings) := by
  have hmem : ∀ r ∈ enabledRules settings, ∃ id : RuleId, id.rule = r := by
    intro r hr
    obtain ⟨id, -, hid⟩ := List.mem_map.1 hr
    exact ⟨id, hid⟩
  refine ⟨?_, fun r hr => ?_, fun r hr => ?_⟩
  · have hsub : (((RuleId.all.filter settings.runs).map RuleId.rule).map Rule.id).Sublist (allRules.map Rule.id) :=
      (List.filter_sublist.map _).map _
    exact List.Nodup.sublist hsub (by decide)
  · obtain ⟨id, rfl⟩ := hmem r hr
    exact reportsOwn_rule id
  · obtain ⟨id, rfl⟩ := hmem r hr
    rw [RuleId.rule_id, RuleId.ofName?_eq_some_iff.2 rfl]
    rfl

/-- Which rules of an identifier take part is told by whether it is enabled. -/
theorem rulesOf_enabledRules {id : String} (h : settings.isEnabled id = settings'.isEnabled id) :
    rulesOf id (enabledRules settings) = rulesOf id (enabledRules settings') := by
  refine rulesOf_congr (separate_enabledRules _).ids (separate_enabledRules _).ids fun r hr => ?_
  have hruns (s : Settings) : r ∈ enabledRules s ↔ s.isEnabled id = true ∧ ∃ i : RuleId, i.rule = r := by
    simp only [enabledRules, List.mem_map, List.mem_filter, RuleId.mem_all, true_and]
    constructor
    · rintro ⟨i, hi, rfl⟩
      have hname : RuleId.ofName? id = some i := RuleId.ofName?_eq_some_iff.2 (by rw [← hr, RuleId.rule_id])
      refine ⟨?_, i, rfl⟩
      simpa only [Settings.isEnabled, hname] using hi
    · rintro ⟨hs, i, rfl⟩
      have hname : RuleId.ofName? id = some i := RuleId.ofName?_eq_some_iff.2 (by rw [← hr, RuleId.rule_id])
      refine ⟨i, ?_, rfl⟩
      simpa only [Settings.isEnabled, hname] using hs
  rw [hruns, hruns, h]

/-- **A narrowed run** reports what the whole run reports under the names it is narrowed to. -/
theorem ofRules_restrict {names : List String} (hall : settings.selected = none)
    (hrestrict : settings.restrict names = .ok settings') (hown : ∀ r ∈ rules, r.ReportsOwn)
    (hown' : ∀ r ∈ rules', r.ReportsOwn)
    (hids : ∀ id, settings.isEnabled id = settings'.isEnabled id → rulesOf id rules' = rulesOf id rules)
    (hc : checkParsed p rules settings = .ok c) (hc' : checkParsed p rules' settings' = .ok c') :
    c'.report.ofRules = c.report.ofRules.filter fun v => names.contains v.rule := by
  refine eq_of_parts (ofRules_ordered hc') ((ofRules_ordered hc).filter _) fun id => ?_
  have henabled := isEnabled_restrict hall hrestrict id
  have hpart : part id (c.report.ofRules.filter fun v => names.contains v.rule) =
      if names.contains id then part id c.report.ofRules else [] := by
    rw [part, List.filter_filter]
    split
    · rename_i hid
      refine List.filter_congr fun v _ => ?_
      by_cases hv : v.rule = id
      · simpa [hv] using hid
      · simp [hv]
    · rename_i hid
      rw [List.filter_eq_nil_iff]
      intro v _ hv
      rw [Bool.and_eq_true, beq_iff_eq] at hv
      exact hid (hv.1 ▸ hv.2)
  rw [hpart]
  split
  · rename_i hid
    rw [hid, Bool.and_true] at henabled
    exact part_ofRules_eq hown' hown (hids id henabled.symm) (by rw [eq_of_restrict hrestrict]) henabled hc' hc
  · rename_i hid
    rw [Bool.not_eq_true] at hid
    rw [hid, Bool.and_false] at henabled
    exact part_ofRules_disabled henabled hc'

/-- **Separate rules do not influence each other.** They check each parsed text, and each finds
what it finds alone. What they report is the same in each order; other rules leave what is
reported under their names as it is, and change nothing when they only crash; and a run that is
narrowed to some names, with the same rules or with those that still take part, reports what is
reported under these names. -/
theorem reports_separate (p : Parsed) (settings : Settings) (h : Separate rules) :
    ∃ found vs, matchTree p rules settings = .ok found ∧ Reports p rules settings vs ∧
      (∀ r ∈ rules, matchTree p [r] settings = .ok (found.filter fun f => f.rule.id == r.id)) ∧
      (∀ rules', rules'.Perm rules → Reports p rules' settings vs) ∧
      (∀ others, Separate (rules ++ others) → ∃ vs', Reports p (rules ++ others) settings vs' ∧
        (∀ r ∈ rules, part r.id vs' = part r.id vs) ∧ ((∀ r ∈ others, r.OnlyCrashes) → vs' = vs)) ∧
      ∀ names settings', settings.selected = none → settings.restrict names = .ok settings' →
        Reports p rules settings' (vs.filter fun v => names.contains v.rule) ∧
        ∃ all, Reports p (enabledRules settings) settings all ∧
          Reports p (enabledRules settings') settings' (all.filter fun v => names.contains v.rule) := by
  have hfound : ∃ found, matchTree p rules settings = .ok found := by
    cases htree : p.tree? with
    | none => exact ⟨[], by simp only [matchTree, htree]⟩
    | some tree =>
      unfold matchTree
      rw [htree]
      exact walkFrames_ok (fun kind r hr => h.known r (List.mem_filter.1 hr).1) _
  obtain ⟨found, hfound⟩ := hfound
  obtain ⟨c, hc, hreports⟩ := h.reports p settings
  refine ⟨found, c.report.ofRules, hfound, hreports, fun r hr => ?_, fun rules' hperm => h.reports_perm hperm hc,
    fun others hothers => ?_, fun names settings' hall hrestrict => ⟨?_, ?_⟩⟩
  · have halone := matchTree_filter hfound r.id
    rwa [rulesOf, filter_id_eq h.ids hr] at halone
  · obtain ⟨c', hc', hreports'⟩ := hothers.reports p settings
    refine ⟨_, hreports', fun r hr => ?_, fun hcrash => hothers.append_crashing hcrash hc hc'⟩
    exact hothers.part_append (fun x hx hid => hothers.ne_of_append hr hx hid.symm) hc hc'
  · obtain ⟨c', hc', -⟩ := h.reports p settings'
    exact ⟨c', hc', ofRules_restrict hall hrestrict h.own h.own (fun _ _ => rfl) hc hc'⟩
  · have hs := separate_enabledRules settings
    have hs' := separate_enabledRules settings'
    obtain ⟨c₀, hc₀, hreports₀⟩ := hs.reports p settings
    obtain ⟨c', hc', -⟩ := hs'.reports p settings'
    refine ⟨_, hreports₀, c', hc', ?_⟩
    exact ofRules_restrict hall hrestrict hs.own hs'.own (fun id hid => (rulesOf_enabledRules hid).symm) hc₀ hc'

/-- A rule that crashes at each at-rule. -/
def crashing : Rule :=
  { borderNone with
    info := { borderNone.info with kinds := ["at-rule"] }
    applies := fun _ => .ok true
    check := fun _ _ m => (.error { kind := "ValueError", message := "boom" }, m) }

/-- A rule that crashes in `#a{@extend b;}` leaves the report as it is. -/
theorem reports_separate_crashing : ∃ p found vs,
    parse .css (.ofString "#a\x7b@extend b;\x7d") = .ok p ∧
      (vs.map Violation.rule).Perm [noIdSelector.id, noExtend.id] ∧
      matchTree p [noIdSelector, noExtend] .default = .ok found ∧
      matchTree p [noExtend] .default = .ok (found.filter fun f => f.rule.id == noExtend.id) ∧
      Reports p [noExtend, noIdSelector] .default vs ∧
      Reports p ([noIdSelector, noExtend] ++ [crashing]) .default vs ∧
      Reports p [noIdSelector, noExtend] { Settings.default with selected := some [.noExtend] }
        (vs.filter fun v => [noExtend.id].contains v.rule) := by
  set p := parseStylesheet .css .css (.ofString "#a\x7b@extend b;\x7d") with hp
  have hseparate : Separate [noIdSelector, noExtend] := by
    refine ⟨by decide, fun r hr => ?_, by decide⟩
    rcases List.mem_cons.1 hr with rfl | hr
    · exact reportsOwn_rule .noIdSelector
    · rw [List.mem_singleton.1 hr]
      exact reportsOwn_rule .noExtend
  have hcrash : crashing.OnlyCrashes := fun n c m _ => ⟨_, rfl⟩
  have hothers : Separate ([noIdSelector, noExtend] ++ [crashing]) := by
    refine ⟨by decide, fun r hr => ?_, by decide⟩
    rcases List.mem_append.1 hr with hr | hr
    · exact hseparate.own r hr
    · rw [List.mem_singleton.1 hr]
      intro n c m vs _ hvs
      cases hvs
  obtain ⟨found, vs, hfound, ⟨c, hc, hvs⟩, halone, hperm, happend, hrestrict⟩ :=
    reports_separate p .default hseparate
  obtain ⟨vs', hreports', -, hsame⟩ := happend [crashing] hothers
  have hsame := hsame fun r hr => by rw [List.mem_singleton.1 hr]; exact hcrash
  have hb : (matchTree p [noIdSelector, noExtend] .default).toOption.any (fun found =>
      ((reported .default (found.map Finding.violation)).filter fun v => !isInternalId v.rule).map
        Violation.rule == [noIdSelector.id, noExtend.id]) = true := by
    rw [hp]
    decide +kernel
  have hfault : p.fault?.isNone = true := by
    rw [hp]
    decide +kernel
  refine ⟨p, found, vs, rfl, ?_, hfound, halone noExtend (by simp), hperm _ (List.Perm.swap _ _ _), ?_, ?_⟩
  · obtain ⟨found', hfound', hreport⟩ := report_of_checkParsed (Option.isNone_iff_eq_none.1 hfault) hc
    rw [hfound'] at hb
    rw [← hvs, Report.ofRules, hreport, aggregate_eq, ← beq_iff_eq.1 hb]
    exact ((List.mergeSort_perm _ _).filter _).map _
  · rw [← hsame]
    exact hreports'
  · exact (hrestrict [noExtend.id] { Settings.default with selected := some [.noExtend] } rfl rfl).1

/-- A rule of a name that has no settings. -/
def unheardOf : Rule :=
  { noIdSelector with info := { noIdSelector.info with id := "css.unheard-of" } }

/-- A rule without settings ends the walk, and with it the findings of the others. -/
theorem matchTree_unheardOf : ∃ p failure found,
    parse .css (.ofString "#a\x7b\x7d") = .ok p ∧ ([unheardOf, noIdSelector].map Rule.id).Nodup ∧
      unheardOf.ReportsOwn ∧ noIdSelector.ReportsOwn ∧
      matchTree p [unheardOf, noIdSelector] .default = .error failure ∧
      matchTree p [noIdSelector] .default = .ok found ∧ found ≠ [] := by
  set p := parseStylesheet .css .css (.ofString "#a\x7b\x7d") with hp
  have hfails : (matchTree p [unheardOf, noIdSelector] .default).toOption.isNone = true := by
    rw [hp]
    decide +kernel
  have hfinds : (matchTree p [noIdSelector] .default).toOption.any (fun found => !found.isEmpty) = true := by
    rw [hp]
    decide +kernel
  have hown : unheardOf.ReportsOwn := by
    refine reportsOwn_of_simpleCheck rfl fun n c => ?_
    split <;> simp [violation_rule]
  cases hfailure : matchTree p [unheardOf, noIdSelector] .default with
  | ok found =>
    rw [hfailure] at hfails
    cases hfails
  | error failure =>
    cases hfound : matchTree p [noIdSelector] .default with
    | error e =>
      rw [hfound] at hfinds
      cases hfinds
    | ok found =>
      rw [hfound] at hfinds
      refine ⟨p, failure, found, rfl, by decide, hown, reportsOwn_rule .noIdSelector, hfailure, hfound, ?_⟩
      rintro rfl
      cases hfinds

end HouseStyle
