import HouseStyle.Proofs.Check.Aggregation
import HouseStyle.Proofs.Fix.Settling
import HouseStyle.Proofs.Rule.Reports
import HouseStyle.Proofs.Rule.Separation
import HouseStyle.Proofs.Rule.ValueEdit
import HouseStyle.Proofs.Text.Positions

/-!
# Violations of stylesheets stand in their nodes

A rule for stylesheets reports the node it looks at, a node right below it, or a stretch of its
value. The children of a node stand inside of it and a value is as long as its span, so what is
reported stands inside of the node, and never behind the end of the text.

* `inside_of_check`: what a rule for stylesheets reports stands inside of the node.
* `report_inside`: **a stylesheet that was parsed is reported on by its rules alone**, each at a
  place inside of a node that it is for, with the places and the line that a reader would count.
-/

namespace HouseStyle

open Stylesheet (Dialect)

variable {d : Dialect} {t : Source} {c : Context} {tree n : Node}

/-- A violation stands inside of a node. -/
structure Violation.Inside (v : Violation) (n : Node) : Prop where
  start_le : n.span.start ≤ v.span.start
  stop_le : v.span.stop ≤ n.span.stop

theorem inside_self (c : Context) (n : Node) (message : String) : (c.violation n.span message).Inside n :=
  ⟨Nat.le_refl _, Nat.le_refl _⟩

/-! ### Parts of a node -/

theorem mem_of_child? {kind : String} {m : Node} (h : n.child? kind = some m) : m ∈ n.children :=
  List.mem_of_find?_eq_some h

/-- What is reported at a child stands inside of the node. -/
theorem inside_child {m : Node} (hparse : Stylesheet.parse d t.chars = .ok tree) (hn : n ∈ Node.walk tree)
    (hm : m ∈ n.children) {v : Violation} (hstart : m.span.start ≤ v.span.start) (hstop : v.span.stop ≤ m.span.stop) :
    v.Inside n := by
  obtain ⟨hle, hge⟩ := (Stylesheet.wellFormed_of_parse hparse hn).nested.inside m hm
  exact ⟨Nat.le_trans hle hstart, Nat.le_trans hstop hge⟩

theorem mem_of_valueOf? {v : Node} {text : List Char} (h : valueOf? n = some (v, text)) : v ∈ n.children := by
  obtain ⟨m, hm, hv⟩ := Option.map_eq_some_iff.1 h
  have hmv : m = v := by
    split at hv <;> cases hv <;> rfl
  exact mem_of_child? (hmv ▸ hm)

/-! ### The rules -/

section

variable (hparse : Stylesheet.parse d c.text.chars = .ok tree) (hn : n ∈ Node.walk tree)

include hparse hn

theorem BorderNone.inside_of_mem_check : ∀ v ∈ check n c, v.Inside n := by
  unfold check
  split
  · rename_i hvalue
    split
    · refine List.forall_mem_singleton.2 ?_
      exact inside_child hparse hn (mem_of_valueOf? hvalue) (Nat.le_refl _) (Nat.le_refl _)
    · exact List.forall_mem_nil _
  · exact List.forall_mem_nil _

/-- **A zero length stands inside of its value.** -/
theorem ZeroLength.inside_of_mem_check (hd : isDeclaration n = true) : ∀ v ∈ check n c, v.Inside n := by
  intro v hv
  obtain ⟨s, hs, rfl⟩ := List.mem_map.1 hv
  unfold spansOf at hs
  split at hs
  · cases hs
  · rename_i value text hvalue
    obtain ⟨⟨a, b⟩, hab, rfl⟩ := List.mem_map.1 hs
    obtain ⟨-, -, hsize, htext⟩ := value_text hparse hn hd hvalue
    unfold spans at hab
    split at hab
    · cases hab
    · obtain ⟨i, k, rfl, rfl, hlength⟩ := spansFrom_spec hab
      -- any units avoid no characters
      have hunits : (unitsOf (c.options .zeroUnit)).all (avoids []) = true := by simp [avoids]
      obtain ⟨hpos, hle, -⟩ := length?_avoids ⟨List.not_mem_nil, List.not_mem_nil⟩ hunits hlength
      have hlen : text.length = value.span.stop - value.span.start := by
        rw [htext, Source.length_sliceChars hsize]
      rw [List.length_drop] at hle
      refine inside_child hparse hn (mem_of_valueOf? hvalue) ?_ ?_
      · exact Nat.le_add_right _ _
      · change max _ _ ≤ _
        omega

theorem NestingDepth.inside_of_mem_check : ∀ v ∈ check n c, v.Inside n := by
  unfold check
  split
  · simp only
    split
    · exact List.forall_mem_nil _
    · refine List.forall_mem_singleton.2 ?_
      cases hlist : n.child? "selector-list" with
      | none => exact inside_self _ _ _
      | some list => exact inside_child hparse hn (mem_of_child? hlist) (Nat.le_refl _) (Nat.le_refl _)
  · exact List.forall_mem_nil _

theorem SelectorPerLine.inside_of_mem_check : ∀ v ∈ check n c, v.Inside n := by
  intro v hv
  obtain ⟨a, b, hab, hspan, -⟩ := check_shape hv
  have hb : b ∈ n.children := List.mem_of_mem_tail (List.of_mem_zip hab).2
  exact inside_child hparse hn hb (by rw [hspan]) (by rw [hspan])

end

theorem PropertyOrder.inside_of_mem_check {m : Memory} {vs : List Violation} (h : (check n c m).1 = .ok vs) :
    ∀ v ∈ vs, v.Inside n := by
  unfold check at h
  split at h
  · cases h
    exact List.forall_mem_nil _
  · simp only at h
    split at h
    · cases h
      exact List.forall_mem_singleton.2 (inside_self _ _ _)
    · cases h
      exact List.forall_mem_nil _

/-! ### What the rules of the catalogue report -/

/-- No check of the catalogue crashes. -/
theorem exists_check (id : RuleId) (n : Node) (c : Context) (m : Memory) :
    ∃ vs, (id.rule.check n c m).1 = .ok vs := by
  cases id with
  | propertyOrder =>
    change ∃ vs, (PropertyOrder.check n c m).1 = .ok vs
    unfold PropertyOrder.check
    split
    · exact ⟨_, rfl⟩
    · simp only
      split <;> exact ⟨_, rfl⟩
  | _ => exact ⟨_, rfl⟩

/-- A rule of the catalogue knows of each node whether it concerns it. -/
theorem exists_applies (id : RuleId) (n : Node) : ∃ b, id.rule.applies n = .ok b := by
  cases id <;> exact ⟨_, rfl⟩

/-- A rule for modules is for nothing else. -/
theorem eq_python_of_contains {id : RuleId} {language : Language} (hid : id.rule.info.languages = [.python])
    (h : id.rule.info.languages.contains language = true) : language = .python := by
  rw [hid, List.contains_iff_mem] at h
  exact List.mem_singleton.1 h

/-- **What a rule for stylesheets reports stands inside of the node.** -/
theorem inside_of_check {id : RuleId} {language : Language} (hlanguage : language ≠ .python)
    (hfor : id.rule.info.languages.contains language = true)
    (hparse : Stylesheet.parse d c.text.chars = .ok tree) (hn : n ∈ Node.walk tree)
    (happlies : id.rule.applies n = .ok true) {m : Memory} {vs : List Violation}
    (h : (id.rule.check n c m).1 = .ok vs) : ∀ v ∈ vs, v.Inside n := by
  cases id with
  | bemClassName =>
    cases h
    beta_reduce
    split
    · split
      · exact List.forall_mem_nil _
      · exact List.forall_mem_singleton.2 (inside_self _ _ _)
    · exact List.forall_mem_nil _
  | noExtend | noIdSelector =>
    cases h
    beta_reduce
    split
    · exact List.forall_mem_singleton.2 (inside_self _ _ _)
    · exact List.forall_mem_nil _
  | borderNone => cases h; exact BorderNone.inside_of_mem_check hparse hn
  | nestingDepth => cases h; exact NestingDepth.inside_of_mem_check hparse hn
  | selectorPerLine => cases h; exact SelectorPerLine.inside_of_mem_check hparse hn
  | zeroUnit => cases h; exact ZeroLength.inside_of_mem_check hparse hn (Except.ok.inj happlies)
  | propertyOrder => exact PropertyOrder.inside_of_mem_check h
  | importGrouping | modelMetaPosition | namingConvention | quoteStyle | relatedNameRequired =>
    exact absurd (eq_python_of_contains rfl hfor) hlanguage

/-- A rule that does not crash and reports inside of the text finds what it reports. -/
theorem reported_of_inside {r : Rule} {m : Memory} {f : Finding} {b : Bool} {vs : List Violation}
    (happlies : r.applies n = .ok b) (hcheck : (r.check n c m).1 = .ok vs)
    (hin : b = true → ∀ v ∈ vs, v.span.stop ≤ c.text.size) (hf : f ∈ (runRule r n c m).1) :
    f.node = n ∧ b = true ∧ f.violation ∈ vs := by
  unfold runRule at hf
  rw [happlies] at hf
  cases b with
  | false => cases hf
  | true =>
    rcases h : r.check n c m with ⟨result, memory⟩
    rw [h] at hf hcheck
    cases hcheck
    obtain ⟨v, hv, rfl⟩ := List.mem_map.1 hf
    rw [findingOf, if_neg (Nat.not_lt.2 (hin rfl v hv))]
    exact ⟨rfl, rfl, hv⟩

/-- What a rule finds at a node that concerns it is what it reports, when that is inside of the text. -/
theorem runRule_violations {r : Rule} {m : Memory} {vs : List Violation} (happlies : r.applies n = .ok true)
    (hcheck : (r.check n c m).1 = .ok vs) (hin : ∀ v ∈ vs, v.span.stop ≤ c.text.size) :
    (runRule r n c m).1.map Finding.violation = vs := by
  unfold runRule
  rw [happlies]
  rcases h : r.check n c m with ⟨result, memory⟩
  rw [h] at hcheck
  cases hcheck
  have hfinding : ∀ v ∈ vs, (findingOf r n c v).violation = v := by
    intro v hv
    rw [findingOf, if_neg (Nat.not_lt.2 (hin v hv))]
  simp only [List.map_map]
  exact (List.map_congr_left hfinding).trans (List.map_id _)

/-! ### Reports -/

/-- **A violation is told as a reader would tell it**: a rule that takes part reports it in its own
name, inside of a node of a kind that the rule is for; its location are the places of both ends of
its span, and its line is the whole line on which it begins. -/
structure Violation.Told (v : Violation) (t : Source) (tree : Node) (settings : Settings) : Prop where
  own : isInternalId v.rule = false
  rule : ∃ id, settings.runs id = true ∧ v.rule = id.name ∧
    ∃ n ∈ Node.walk tree, n.kind ∈ id.rule.info.kinds ∧ v.Inside n
  inText : v.span.stop ≤ t.size
  location : v.location = { start := positionIn t.chars.toList v.span.start
                            stop := some (positionIn t.chars.toList v.span.stop) }
  line : v.line = some (String.ofList (lineIn t.chars.toList v.span.start))

theorem not_isInternalId_name (id : RuleId) : isInternalId id.name = false := by
  cases id <;> decide

/-- The settings keep what a rule that takes part reports, and decide how grave it is. -/
theorem settle_of_runs {settings : Settings} {id : RuleId} {v : Violation} (hname : v.rule = id.name)
    (hruns : settings.runs id = true) :
    settle settings v = some { v with severity := (settings.rule id).severity } := by
  obtain ⟨hon, hsel⟩ := runs_iff.1 hruns
  refine settle_eq_some_iff.2 (.rule ?_ (RuleId.ofName?_eq_some_iff.2 hname.symm) hon hsel)
  rw [hname]
  exact not_isInternalId_name id

/-- What a rule that takes part reports, one violation after the other, is all reported as it stands. -/
theorem violations_of_ascending {settings : Settings} {id : RuleId} {vs : List Violation}
    (hname : ∀ v ∈ vs, v.rule = id.name) (hruns : settings.runs id = true)
    (h : vs.Pairwise fun a b => a.span.start < b.span.start) :
    (aggregate settings vs).violations = vs.map fun v => { v with severity := (settings.rule id).severity } := by
  rw [aggregate_ascending h, List.filterMap_congr fun v hv => settle_of_runs (hname v hv) hruns,
    List.filterMap_eq_map']

/-- **What the rules find in a stylesheet is told right.** -/
theorem told_of_matchTree {language : Language} {settings : Settings} {found : List Finding}
    (hlanguage : language ≠ .python) (htree : (parseStylesheet language d t).tree? = some tree)
    (h : matchTree (parseStylesheet language d t) (enabledRules settings) settings = .ok found) :
    ∀ f ∈ found, f.violation.Told t tree settings := by
  intro f hf
  have hvisit := visit_of_matchTree htree h f hf
  obtain ⟨scope, hcontext⟩ := hvisit.context
  obtain ⟨m, hrun⟩ := hvisit.run
  obtain ⟨id, hid, hrule⟩ := List.mem_map.1 hvisit.rule
  have hruns : settings.runs id = true := (List.mem_filter.1 hid).2
  have htext : f.context.text = t := by
    rw [hcontext]
    exact parseStylesheet_text _ _ _
  have hinfo : f.context.info = id.rule.info := by
    rw [hcontext, hrule]
    rfl
  have hfor := hvisit.language
  have hkind := hvisit.kind
  rw [parseStylesheet_language, ← hrule] at hfor
  rw [← hrule] at hkind hrun
  have hparse : Stylesheet.parse d f.context.text.chars = .ok tree := by
    rw [htext]
    exact parseStylesheet_tree.1 htree
  have hsize : f.node.span.stop ≤ t.size := by
    rw [← htext]
    exact Stylesheet.stop_le_size hparse hvisit.node
  -- the check of the rule ends, and what it reports stands inside of the node
  obtain ⟨vs, hvs⟩ := exists_check id f.node f.context m
  obtain ⟨b, happlies⟩ := exists_applies id f.node
  have hinside (hb : b = true) : ∀ v ∈ vs, v.Inside f.node :=
    inside_of_check hlanguage hfor hparse hvisit.node (hb ▸ happlies) hvs
  obtain ⟨-, hb, hv⟩ := reported_of_inside happlies hvs
    (fun hb v hv => by rw [htext]; exact Nat.le_trans (hinside hb v hv).stop_le hsize) hrun
  have hin := hinside hb _ hv
  have htells := tells_of_check id hvs _ hv
  have hname : f.violation.rule = id.name := by
    rw [htells.rule, hinfo, ← RuleId.rule_id]
    rfl
  have hstop : f.violation.span.stop ≤ t.size := Nat.le_trans hin.stop_le hsize
  have hstart : f.violation.span.start ≤ t.size := Nat.le_trans f.violation.span.start_le_stop hstop
  refine ⟨?_, ⟨id, hruns, hname, f.node, hvisit.node, List.contains_iff_mem.1 hkind, hin⟩, hstop, ?_, ?_⟩
  · rw [hname]
    exact not_isInternalId_name id
  · rw [htells.location, htext, Source.location, Source.position_eq hstart, Source.position_eq hstop]
  · rw [htells.line, htext, Source.lineText_eq hstart]

/-- What is reported is what the settings make of a finding. -/
theorem exists_finding {p : Parsed} {rules : List Rule} {settings : Settings} {checked : Checked} (hfault : p.fault? = none)
    (h : checkParsed p rules settings = .ok checked) {v : Violation} (hv : v ∈ checked.report.violations) :
    ∃ found, matchTree p rules settings = .ok found ∧ ∃ f ∈ found, Settled settings f.violation v := by
  obtain ⟨found, hfound, hreport⟩ := report_of_checkParsed hfault h
  rw [hreport, aggregate_eq, List.mem_mergeSort, mem_reported, Option.bind_eq_some_iff] at hv
  obtain ⟨w, hw, hsettle⟩ := hv
  obtain ⟨f, hf, rfl⟩ := List.mem_map.1 (List.mem_of_find?_eq_some hw)
  exact ⟨found, hfound, f, hf, settle_eq_some_iff.1 hsettle⟩

/-- **A stylesheet that was parsed is reported on by its rules alone.** The check comes to its end
under all settings, and each violation of its report is told right: none is about a rule that
crashed or reported outside of the text. -/
theorem report_inside {language : Language} {p : Parsed} (settings : Settings) (hlanguage : language ≠ .python)
    (hparse : parse language t = .ok p) (htree : p.tree? = some tree) :
    ∃ checked, checkParsed p (enabledRules settings) settings = .ok checked ∧
      ∀ v ∈ checked.report.violations, v.Told t tree settings := by
  obtain ⟨d, hd⟩ := exists_dialect hlanguage
  obtain rfl : parseStylesheet language d t = p := Except.ok.inj ((hd t).symm.trans hparse)
  obtain ⟨checked, hchecked, -⟩ := (separate_enabledRules settings).reports (parseStylesheet language d t) settings
  refine ⟨checked, hchecked, fun v hv => ?_⟩
  obtain ⟨found, hfound, f, hf, hsettled⟩ := exists_finding (fault?_of_tree? htree) hchecked hv
  have htold := told_of_matchTree hlanguage htree hfound f hf
  cases hsettled with
  | own => exact htold
  | rule =>
    -- the settings change nothing but the severity
    obtain ⟨id, hruns, hname, n, hn, hkind, hin⟩ := htold.rule
    exact ⟨htold.own, ⟨id, hruns, hname, n, hn, hkind, hin.start_le, hin.stop_le⟩, htold.inText, htold.location,
      htold.line⟩

/-- The report about a text of two lines that break several rules. -/
theorem report_inside_lines : ∃ p tree checked,
    parse .scss (.ofString "#a, .B\r\n\x7b .c \x7b @extend d; border: none \x7d top: 1px \x7d") = .ok p ∧
      p.tree? = some tree ∧ checkParsed p (enabledRules .default) .default = .ok checked ∧
      checked.findings.length = 6 ∧
      ∀ v ∈ checked.report.violations,
        v.Told (.ofString "#a, .B\r\n\x7b .c \x7b @extend d; border: none \x7d top: 1px \x7d") tree .default := by
  set t : Source := .ofString "#a, .B\r\n\x7b .c \x7b @extend d; border: none \x7d top: 1px \x7d" with ht
  have htree : (parseStylesheet .scss .scss t).tree?.isSome = true := by
    rw [ht]
    decide +kernel
  have hfound : (matchTree (parseStylesheet .scss .scss t) (enabledRules .default) .default).toOption.any
      (fun found => found.length == 6) = true := by
    rw [ht]
    decide +kernel
  obtain ⟨tree, htree⟩ := Option.isSome_iff_exists.1 htree
  obtain ⟨checked, hchecked, htold⟩ := report_inside .default (show Language.scss ≠ .python by decide) rfl htree
  refine ⟨_, tree, checked, rfl, htree, hchecked, ?_, htold⟩
  rw [findings_of_checkParsed (fault?_of_tree? htree) hchecked] at hfound
  exact beq_iff_eq.1 hfound

end HouseStyle
