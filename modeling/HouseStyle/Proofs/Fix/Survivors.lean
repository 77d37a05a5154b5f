import HouseStyle.Proofs.Fix.Leftovers

/-!
# Who is asked for an edit

A report keeps one violation of each rule at each span. When the text is fixed, the rules are asked for edits
by the findings, of which there may be more, in another order, and of rules that take no part. The same
finding is chosen both times. Rules are arbitrary here: a fix may crash and may offer any edit.

* `mem_firstFindings_iff`: what is chosen of some findings; `firstFindings_nodup`: once for each key.
* `Asks`: **one finding is asked for each fixable violation of the report**, and no other.
* `Gathers`: the edits are one for each that has one to give.
* `Checked.crashing`: some of the fixes crash.
* `fixEdits_survivors`: **exactly what the report keeps is mended.**
-/

namespace HouseStyle

variable {rules : List Rule} {settings : Settings} {t : Source} {p : Parsed} {c : Checked}

/-! ### Findings that are chosen -/

section

variable {wanted seen : List (String × Span)} {found : List Finding} {f : Finding}

theorem firstFindings_sublist (wanted seen : List (String × Span)) (found : List Finding) :
    (firstFindings wanted seen found).Sublist found := by
  induction found generalizing seen with
  | nil => exact .slnil
  | cons f rest ih =>
    rw [firstFindings]
    split
    · exact (ih _).cons_cons f
    · exact (ih _).cons f

/-- A finding is chosen when it is the first of a key that is wanted and was not seen. -/
theorem mem_firstFindings_iff : f ∈ firstFindings wanted seen found ↔
    f.violation.key ∈ wanted ∧ f.violation.key ∉ seen ∧
      found.find? (fun g => g.violation.key == f.violation.key) = some f := by
  refine ⟨fun hf => ?_, fun ⟨hwanted, hseen, hfirst⟩ => mem_firstFindings hwanted hseen hfirst⟩
  induction found generalizing seen with
  | nil => cases hf
  | cons g rest ih =>
    rw [firstFindings] at hf
    split at hf
    · rename_i hchosen
      simp only [Bool.and_eq_true, Bool.not_eq_true', List.contains_eq_mem, decide_eq_true_eq,
        decide_eq_false_iff_not] at hchosen
      rcases List.mem_cons.1 hf with rfl | hf
      · exact ⟨hchosen.1, hchosen.2, List.find?_cons_of_pos (beq_self_eq_true _)⟩
      · obtain ⟨hwanted, hseen, hfirst⟩ := ih hf
        rw [List.mem_cons, not_or] at hseen
        exact ⟨hwanted, hseen.2, by rwa [List.find?_cons_of_neg (by simpa using Ne.symm hseen.1)]⟩
    · rename_i hpassed
      obtain ⟨hwanted, hseen, hfirst⟩ := ih hf
      have hne : g.violation.key ≠ f.violation.key := fun hkey => hpassed (by simp [hkey, hwanted, hseen])
      exact ⟨hwanted, hseen, by rwa [List.find?_cons_of_neg (by simpa using hne)]⟩

theorem firstFindings_nodup (wanted seen : List (String × Span)) (found : List Finding) :
    ((firstFindings wanted seen found).map fun f => f.violation.key).Nodup := by
  induction found generalizing seen with
  | nil => exact List.nodup_nil
  | cons f rest ih =>
    rw [firstFindings]
    split
    · rw [List.map_cons, List.nodup_cons]
      refine ⟨fun hmem => ?_, ih _⟩
      obtain ⟨g, hg, hkey⟩ := List.mem_map.1 hmem
      exact (mem_firstFindings_iff.1 hg).2.1 (hkey ▸ List.mem_cons_self)
    · exact ih _

/-- Only the violations of findings decide which are chosen. -/
theorem firstFindings_map {change : Finding → Finding} (h : ∀ f, (change f).violation = f.violation) :
    firstFindings wanted seen (found.map change) = (firstFindings wanted seen found).map change := by
  induction found generalizing seen with
  | nil => rfl
  | cons f rest ih =>
    rw [List.map_cons, firstFindings, firstFindings, h]
    split
    · rw [List.map_cons, ih]
    · exact ih

end

/-! ### What is asked -/

/-- **Who is asked.** Each fixable violation of the report comes from one finding that is asked, the first
of its key, and each finding that is asked gave one of them. Rules that report under their own name take
part. -/
structure Asks (settings : Settings) (c : Checked) : Prop where
  once : (fixableKeys c.report).Nodup
  keys : ((mendable c).map fun f => f.violation.key).Perm (fixableKeys c.report)
  inOrder : (mendable c).Sublist c.findings
  first : ∀ f ∈ mendable c, c.findings.find? (fun g => g.violation.key == f.violation.key) = some f
  reported : ∀ f ∈ mendable c, ∃ v ∈ c.report.violations, v.fixable = true ∧ Settled settings f.violation v
  enabled : ∀ f ∈ mendable c, f.rule.ReportsOwn → settings.isEnabled f.rule.id = true

/-- What a report calls fixable is what the settings make of a finding that is asked. -/
theorem reported_of_mem_mendable (hreport : c.report = aggregate settings (c.findings.map Finding.violation))
    {f : Finding} (hf : f ∈ mendable c) :
    ∃ v ∈ c.report.violations, v.fixable = true ∧ Settled settings f.violation v := by
  obtain ⟨hwanted, -, hfirst⟩ := mem_firstFindings_iff.1 hf
  obtain ⟨v, hv, hkey⟩ := List.mem_map.1 hwanted
  obtain ⟨hv, hfixable⟩ := List.mem_filter.1 hv
  obtain ⟨g, hg, -, hsettled⟩ := exists_first hreport hv
  rw [hkey, hfirst] at hg
  cases hg
  exact ⟨v, hv, hfixable, hsettled⟩

/-- The keys that are asked are those of what the report calls fixable. -/
theorem keys_mendable (hreport : c.report = aggregate settings (c.findings.map Finding.violation))
    (hkeys : (fixableKeys c.report).Nodup) :
    ((mendable c).map fun f => f.violation.key).Perm (fixableKeys c.report) := by
  refine (List.perm_ext_iff_of_nodup (firstFindings_nodup _ _ _) hkeys).2 fun key => ⟨fun hkey => ?_, fun hkey => ?_⟩
  · obtain ⟨f, hf, rfl⟩ := List.mem_map.1 hkey
    exact (mem_firstFindings_iff.1 hf).1
  · obtain ⟨v, hv, rfl⟩ := List.mem_map.1 hkey
    obtain ⟨f, hfirst, hsame, -⟩ := exists_first hreport (List.mem_filter.1 hv).1
    rw [← hsame] at hfirst hkey
    exact List.mem_map.2 ⟨f, mem_firstFindings hkey List.not_mem_nil hfirst, hsame⟩

/-- Where a rule reports under its own name, a fixable violation has this name. -/
theorem rule_of_fixable (hfound : matchTree p rules settings = .ok c.findings) :
    ∀ f ∈ c.findings, f.violation.fixable = true → f.rule.ReportsOwn → f.violation.rule = f.rule.id := by
  refine matchTree_forall (fun r _ _ scope n m f hf hfixable hown => ?_) hfound
  obtain ⟨vs, hvs, hv⟩ := (reported_of_run hf hfixable).check
  rw [(runRule_origin f hf).1] at hown ⊢
  exact hown n _ m vs rfl hvs _ hv

/-- A rule that is asked takes part, since its name has settings. -/
theorem enabled_of_mem_mendable (hfound : matchTree p rules settings = .ok c.findings)
    (hreport : c.report = aggregate settings (c.findings.map Finding.violation)) {f : Finding} (hf : f ∈ mendable c)
    (hown : f.rule.ReportsOwn) : settings.isEnabled f.rule.id = true := by
  obtain ⟨v, -, hfixable, hsettled⟩ := reported_of_mem_mendable hreport hf
  have hmem := mem_of_mem_firstFindings hf
  have hrule := rule_of_fixable hfound f hmem (hsettled.fixable.symm.trans hfixable) hown
  cases hsettled with
  | own hinternal =>
    -- the names under which the checker itself reports have none
    have hnamed := named_of_matchTree hfound f hmem
    rw [← hrule] at hnamed
    rw [isInternalId, Bool.or_eq_true, beq_iff_eq, beq_iff_eq] at hinternal
    rcases hinternal with hname | hname <;> exact absurd (hname ▸ hnamed) (by decide)
  | rule _ hname hon hselected =>
    rw [Settings.isEnabled, ← hrule, hname]
    exact runs_iff.2 ⟨hon, hselected⟩

/-- **One finding is asked for each fixable violation.** -/
theorem asks (hfound : matchTree p rules settings = .ok c.findings)
    (hreport : c.report = aggregate settings (c.findings.map Finding.violation)) : Asks settings c := by
  have hkeys : (fixableKeys c.report).Nodup := by
    rw [fixableKeys, hreport]
    exact (aggregate_nodup settings _).sublist (List.filter_sublist.map _)
  exact ⟨hkeys, keys_mendable hreport hkeys, firstFindings_sublist _ _ _, fun f hf => (mem_firstFindings_iff.1 hf).2.2,
    fun f hf => reported_of_mem_mendable hreport hf, fun f hf => enabled_of_mem_mendable hfound hreport hf⟩

/-! ### What is given -/

/-- What a finding that is asked gives: an edit that its rule offers, that ends in the text and changes it. -/
structure Finding.Gives (t : Source) (f : Finding) (e : Edit) : Prop where
  offered : f.rule.fix f.violation f.node f.context = .ok (some e)
  changes : Changes t e

theorem edit?_eq_some_iff {f : Finding} {e : Edit} : f.edit? t = some e ↔ f.Gives t e := by
  refine ⟨fun h => ⟨offer_of_edit? h, ?_⟩, fun h => edit?_of_changes h.offered h.changes⟩
  unfold Finding.edit? at h
  rw [offer_of_edit? h] at h
  dsimp only at h
  split at h
  · rename_i hin
    exact ⟨hin.1, hin.2⟩
  · cases h

/-- The edits for a text: one from each of the findings asked that has one to give, in their order. -/
structure Gathers (t : Source) (asked menders : List Finding) (edits : List Edit) : Prop where
  inOrder : menders.Sublist asked
  each : List.Forall₂ (Finding.Gives t) menders edits
  all : ∀ f ∈ asked, f ∈ menders ↔ ∃ e, f.Gives t e

theorem gathers_filterMap (t : Source) (asked : List Finding) :
    Gathers t asked (asked.filter fun f => (f.edit? t).isSome) (asked.filterMap (Finding.edit? t)) := by
  refine ⟨List.filter_sublist, ?_, fun f hf => ?_⟩
  · induction asked with
    | nil => exact .nil
    | cons f rest ih =>
      cases hedit : f.edit? t with
      | none =>
        rw [List.filterMap_cons_none hedit, List.filter_cons_of_neg (by simp [hedit])]
        exact ih
      | some e =>
        rw [List.filterMap_cons_some hedit, List.filter_cons_of_pos (by simp [hedit])]
        exact .cons (edit?_eq_some_iff.1 hedit) ih
  · rw [List.mem_filter, Option.isSome_iff_exists]
    exact (and_iff_right hf).trans (exists_congr fun e => edit?_eq_some_iff)

/-! ### Fixes that crash -/

/-- A finding whose rule crashes when it is asked. -/
def Finding.crashing (crash : Crash) (f : Finding) : Finding :=
  { f with rule := { f.rule with fix := fun _ _ _ => .error crash } }

/-- What was checked, with rules that crash when they are asked about some of the findings. -/
def Checked.crashing (c : Checked) (fails : Finding → Bool) (crash : Crash) : Checked :=
  { c with findings := c.findings.map fun f => if fails f then f.crashing crash else f }

/-- **A crash costs its own edit**, and no other. -/
theorem fixEdits_crashing (t : Source) (c : Checked) (fails : Finding → Bool) (crash : Crash) :
    fixEdits t (c.crashing fails crash) =
      ((mendable c).filter fun f => !fails f).filterMap (Finding.edit? t) := by
  have hviolation (f : Finding) : (if fails f then f.crashing crash else f).violation = f.violation := by
    split <;> rfl
  rw [fixEdits, mendable, Checked.crashing, firstFindings_map hviolation, List.filterMap_map, List.filterMap_filter]
  refine List.filterMap_congr fun f _ => ?_
  rw [Function.comp_apply]
  cases fails f <;> rfl

/-- **Exactly what the report keeps is mended.** For each fixable violation of a report one finding is asked,
the one the violation came from, and no other; the edits are those that these offer, that end in the text
and change it; and a fix that crashes costs its own edit only. -/
theorem fixEdits_survivors (t : Source) (hfound : matchTree p rules settings = .ok c.findings)
    (hreport : c.report = aggregate settings (c.findings.map Finding.violation)) :
    Asks settings c ∧ (∃ menders, Gathers t (mendable c) menders (fixEdits t c)) ∧
      ∀ fails crash, fixEdits t (c.crashing fails crash) =
        ((mendable c).filter fun f => !fails f).filterMap (Finding.edit? t) :=
  ⟨asks hfound hreport, ⟨_, gathers_filterMap t (mendable c)⟩, fixEdits_crashing t c⟩

/-- A border that is found twice, and a selector that is found by a rule that takes no part. -/
theorem fixEdits_survivors_twice : ∃ p found c, parse .css (.ofString "a, b\x7bborder:none\x7d") = .ok p ∧
    matchTree p [selectorPerLine, borderNone, borderNone] { Settings.default with selected := some [.borderNone] } =
      .ok found ∧
    found.map (fun f => f.rule.id) = [selectorPerLine.id, borderNone.id, borderNone.id] ∧
    c = ⟨aggregate { Settings.default with selected := some [.borderNone] } (found.map Finding.violation), found⟩ ∧
    Asks { Settings.default with selected := some [.borderNone] } c ∧
    (∃ menders, Gathers p.text (mendable c) menders (fixEdits p.text c)) ∧
    ∀ fails crash, fixEdits p.text (c.crashing fails crash) =
      ((mendable c).filter fun f => !fails f).filterMap (Finding.edit? p.text) := by
  have hb : ((parse .css (.ofString "a, b\x7bborder:none\x7d")).toOption.bind fun p =>
      (matchTree p [selectorPerLine, borderNone, borderNone]
        { Settings.default with selected := some [.borderNone] }).toOption.filter fun found =>
          found.map (fun f => f.rule.id) == [selectorPerLine.id, borderNone.id, borderNone.id]).isSome = true := by
    decide +kernel
  obtain ⟨found, hb⟩ := Option.isSome_iff_exists.1 hb
  simp only [Option.bind_eq_some_iff, Option.filter_eq_some_iff, toOption_eq_some, beq_iff_eq] at hb
  obtain ⟨p, hp, hfound, hrules⟩ := hb
  exact ⟨p, found, _, hp, hfound, hrules, rfl, fixEdits_survivors p.text hfound rfl⟩

end HouseStyle
