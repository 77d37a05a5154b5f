import HouseStyle.Proofs.Check.Aggregation
import HouseStyle.Proofs.Fix.Again
import HouseStyle.Proofs.Fix.Settling
import HouseStyle.Proofs.Rule.Mending
import HouseStyle.Proofs.Rule.Separation
import HouseStyle.Proofs.Text.Selection

/-!
# What is left when fixing ends

A run that ends because no edit is left may end with violations that are marked as fixable. Each of them is
one that its rule declines to mend, and there are few reasons for that. Two of them need a text in which a
carriage return ends a line by itself, since nodes of a module do not stand at their places there.

* `Declines`: the reasons.
* `exists_mendable`: what a report calls fixable comes from a finding whose rule is asked for an edit.
* `FoundIn`, `foundIn_of_matchTree`: what is known of a finding of the catalogue.
* `fixText_of_leftover`: texts that a run leaves as they are.
* `declines_of_edit?`: a rule of the catalogue that gives no edit declines.
* `leftovers_decline`: **what is left of a run that ended by itself is declined.**
-/

namespace HouseStyle

open Stylesheet (Dialect)

variable {rules : List Rule} {settings : Settings} {t : Source} {path : String} {language : Language}

/-! ### Findings that are asked for an edit -/

/-- The first finding of a key that is wanted is asked. -/
theorem mem_firstFindings {wanted seen : List (String × Span)} {found : List Finding} {f : Finding}
    (hwanted : f.violation.key ∈ wanted) (hseen : f.violation.key ∉ seen)
    (hfirst : found.find? (fun g => g.violation.key == f.violation.key) = some f) :
    f ∈ firstFindings wanted seen found := by
  induction found generalizing seen with
  | nil => cases hfirst
  | cons g rest ih =>
    rw [List.find?_cons] at hfirst
    rw [firstFindings]
    split at hfirst
    · cases hfirst
      rw [if_pos]
      · exact List.mem_cons_self
      · simp [hwanted, hseen]
    · rename_i hne
      have hkey : f.violation.key ≠ g.violation.key := Ne.symm (ne_of_beq_false hne)
      split
      · refine List.mem_cons_of_mem _ (ih ?_ hfirst)
        rw [List.mem_cons, not_or]
        exact ⟨hkey, hseen⟩
      · exact ih hseen hfirst

/-- What a report holds is what the settings make of the first finding of its key. -/
theorem exists_first {c : Checked} (hreport : c.report = aggregate settings (c.findings.map Finding.violation))
    {v : Violation} (hv : v ∈ c.report.violations) :
    ∃ f, c.findings.find? (fun g => g.violation.key == v.key) = some f ∧ f.violation.key = v.key ∧
      Settled settings f.violation v := by
  have hkey := (atKey_eq_some_iff (hreport ▸ aggregate_nodup settings _)).2 ⟨hv, rfl⟩
  rw [hreport, atKey_aggregate, Option.bind_eq_some_iff] at hkey
  obtain ⟨u, hu, hsettled⟩ := hkey
  have hfind := hu
  rw [atKey, List.find?_map, Option.map_eq_some_iff] at hfind
  obtain ⟨f, hf, rfl⟩ := hfind
  exact ⟨f, hf, key_of_atKey hu, settle_eq_some_iff.1 hsettled⟩

/-- **What a report calls fixable comes from a finding that is asked for an edit.** -/
theorem exists_mendable {p : Parsed} {c : Checked} (hfault : p.fault? = none)
    (hc : checkParsed p rules settings = .ok c) {v : Violation} (hv : v ∈ c.report.violations)
    (hfixable : v.fixable = true) :
    ∃ f ∈ mendable c, f.violation.key = v.key ∧ f.violation.fixable = true := by
  have hreport : c.report = aggregate settings (c.findings.map Finding.violation) := by
    obtain ⟨found, hfound, hreport⟩ := report_of_checkParsed hfault hc
    cases hfound.symm.trans (findings_of_checkParsed hfault hc)
    exact hreport
  obtain ⟨f, hfirst, hsame, hsettled⟩ := exists_first hreport hv
  refine ⟨f, mem_firstFindings ?_ List.not_mem_nil ?_, hsame, hsettled.fixable.symm.trans hfixable⟩
  · rw [hsame]
    exact List.mem_map_of_mem (List.mem_filter.2 ⟨hv, hfixable⟩)
  · rw [hsame]
    exact hfirst

/-! ### Findings of the catalogue -/

/-- **What is known of a finding of a rule of the catalogue**: the text, the rule and its options, and the node
in the tree of a stylesheet, or in that of a module if no carriage return ends a line by itself. -/
structure FoundIn (language : Language) (settings : Settings) (t : Source) (tree : Node) (f : Finding) : Prop where
  text : f.context.text = t
  options : f.context.options = fun id => (settings.rule id).options
  catalogue : ∃ id : RuleId, id.rule = f.rule
  runs : f.rule.info.languages.contains language = true
  node : f.node ∈ Node.walk tree
  applies : f.rule.applies f.node ≠ .ok false
  style : language ≠ .python → ∃ d, Stylesheet.parse d f.context.text.chars = .ok tree
  comes : language = .python → returnsPaired t.chars.toList = true → ∀ m ∈ Node.walk tree, Python.Comes f.context.text m
  misplaced : f.rule = propertyOrder → PropertyOrder.Misplaced f.context.text tree f.context

theorem foundIn_of_matchTree {p : Parsed} {tree : Node} {found : List Finding} (hrules : ∀ r ∈ rules, r ∈ allRules)
    (hp : parse language t = .ok p) (htree : p.tree? = some tree) (hfound : matchTree p rules settings = .ok found)
    {f : Finding} (hf : f ∈ found) : FoundIn language settings t tree f := by
  obtain ⟨hrule, hlanguage, -, hnode, ⟨scope, hcontext⟩, m, hrun⟩ := visit_of_matchTree htree hfound f hf
  have htext : f.context.text = t := by
    rw [hcontext]
    exact parse_text hp
  obtain ⟨id, -, hid⟩ := List.mem_map.1 (hrules _ hrule)
  refine ⟨htext, by rw [hcontext]; rfl, ⟨id, hid⟩, parse_language hp ▸ hlanguage, hnode, (runRule_node f hrun).2,
    fun hstyle => ?_, fun hmodule hpaired => ?_, fun horder => ?_⟩
  · obtain ⟨d, hd⟩ := exists_dialect hstyle
    cases (hd t).symm.trans hp
    exact ⟨d, htext ▸ parseStylesheet_tree.1 htree⟩
  · subst hmodule
    obtain ⟨q, hq, hcomes⟩ := Python.parse_of_comes hpaired
    cases hp.symm.trans hq
    rw [htext]
    exact hcomes tree htree
  · have := PropertyOrder.outOfOrder_of_matchTree htree (fun r hr hid => ?_) hfound f hf horder
    · rwa [parse_text hp, ← htext] at this
    · obtain ⟨id, -, rfl⟩ := List.mem_map.1 (hrules r hr)
      exact eq_propertyOrder_of_id hid

/-! ### Reasons -/

/-- **Why a rule gives no edit for what it calls fixable.** -/
inductive Declines (t : Source) (f : Finding) : Prop
  /-- White space and a second comma stand before the selector. -/
  | emptySelector {a b : Node} (rule : f.rule = selectorPerLine) (pair : (a, b) ∈ SelectorPerLine.neighbours f.node)
      (span : b.span = f.violation.span) (between : SelectorPerLine.EmptyBetween t a b)
  /-- A zero stands there already. -/
  | bareZero (rule : f.rule = zeroUnit) (zero : t.sliceSpan f.violation.span = "0")
  /-- Two statements of the block share a line. -/
  | sharedLine (rule : f.rule = importGrouping) (shares : ImportGrouping.sharesLine
      (ImportGrouping.entries t (f.context.options .importGrouping) f.node) = true)
  /-- The block reads the same in order. -/
  | writtenInOrder (rule : f.rule = importGrouping) (written : ImportGrouping.WrittenInOrder t
      (ImportGrouping.entries t (f.context.options .importGrouping) f.node))
  /-- Something else than blank lines stands between the last field and the options class behind it. -/
  | blocked {l : MetaPosition.Layout} (rule : f.rule = modelMetaPosition)
      (layout : MetaPosition.layout? t (f.context.options .modelMetaPosition) f.node = some l)
      (blocked : MetaPosition.Blocked t l)
  /-- The options class stands somewhere else, and the lines read the same with it moved. -/
  | unmoved {l : MetaPosition.Layout} {e : Edit} (rule : f.rule = modelMetaPosition)
      (layout : MetaPosition.layout? t (f.context.options .modelMetaPosition) f.node = some l)
      (apart : l.metaIndex ≠ l.fieldIndex + 1) (edit : f.offer = .ok (some e)) (same : t.sliceSpan e.span = e.replacement)
  /-- The options class stands somewhere else, and the ends of its move are crossed. -/
  | crossed {l : MetaPosition.Layout} {crash : Crash} (rule : f.rule = modelMetaPosition)
      (unpaired : returnsPaired t.chars.toList = false)
      (layout : MetaPosition.layout? t (f.context.options .modelMetaPosition) f.node = some l)
      (apart : l.metaIndex ≠ l.fieldIndex + 1) (raises : f.offer = .error crash)
  /-- What stands at the place of a literal is its new spelling. -/
  | misplaced {e : Edit} (rule : f.rule = quoteStyle) (unpaired : returnsPaired t.chars.toList = false)
      (edit : f.offer = .ok (some e)) (same : t.sliceSpan e.span = e.replacement)

/-- A finding of a text that is reported as fixable, and that is left, since what its rule offers would not
change the text. -/
structure Unmended (t : Source) (f : Finding) : Prop where
  text : f.context.text = t
  reported : ∃ m, Reported f.rule f.node f.context m f
  kept : ∀ e, f.offer = .ok (some e) → ¬ Changes t e

/-! ### Rules for stylesheets -/

section

variable {d : Dialect} {tree : Node} {f : Finding}

namespace Unmended

/-- What a rule without a memory reported. -/
theorem violation_mem (h : Unmended t f) {check : Node → Context → List Violation}
    (hcheck : f.rule.check = Rule.simpleCheck check) : f.violation ∈ check f.node f.context := by
  obtain ⟨m, hm⟩ := h.reported
  obtain ⟨vs, hvs, hv⟩ := hm.check
  rw [hcheck] at hvs
  cases hvs
  exact hv

theorem inside (h : Unmended t f) : f.violation.span.stop ≤ f.context.text.size :=
  h.reported.elim fun _ hm => hm.inside

theorem elim (h : Unmended t f) {e : Edit} (hoffer : f.offer = .ok (some e)) (hchanges : Changes f.context.text e) :
    False :=
  h.kept e hoffer (h.text ▸ hchanges)

/-- What is offered stands there already. -/
theorem same (h : Unmended t f) {e : Edit} (hoffer : f.offer = .ok (some e)) (hin : e.span.stop ≤ t.size) :
    t.sliceSpan e.span = e.replacement :=
  not_not.1 fun hne => h.kept e hoffer ⟨hin, hne⟩

theorem applies (h : Unmended t f) : f.rule.applies f.node = .ok true :=
  h.reported.elim fun _ hm => hm.applies

/-- A border is never left. -/
theorem borderNone (h : Unmended t f) (hrule : f.rule = borderNone)
    (hparse : Stylesheet.parse d f.context.text.chars = .ok tree) (hnode : f.node ∈ Node.walk tree) : False := by
  have happlies := h.applies
  rw [hrule] at happlies
  have hd : isDeclaration f.node = true := Except.ok.inj happlies
  obtain ⟨e, hfix, hchanges⟩ := BorderNone.changes_of_check hparse hnode hd (h.violation_mem (by rw [hrule]; rfl))
  refine h.elim ?_ hchanges
  rw [Finding.offer, hrule]
  exact congrArg Except.ok hfix

/-- A zero length is left where a zero stands. -/
theorem zeroUnit (h : Unmended t f) (hrule : f.rule = zeroUnit) : Declines t f := by
  rcases ZeroLength.changes_of_check (h.violation_mem (by rw [hrule]; rfl)) h.inside with hzero | ⟨e, hfix, hchanges⟩
  · exact .bareZero hrule (h.text ▸ hzero)
  · refine (h.elim ?_ hchanges).elim
    rw [Finding.offer, hrule]
    exact congrArg Except.ok hfix

/-- A block out of order is never left. -/
theorem propertyOrder (h : Unmended t f) (hrule : f.rule = propertyOrder)
    (hparse : Stylesheet.parse d f.context.text.chars = .ok tree)
    (hmisplaced : PropertyOrder.Misplaced f.context.text tree f.context) : False := by
  obtain ⟨e, hfix, hchanges⟩ := PropertyOrder.changes_of_misplaced hparse hmisplaced
  refine h.elim ?_ hchanges
  rw [Finding.offer, hrule]
  exact congrArg Except.ok hfix

/-- A selector is left behind an empty one. -/
theorem selectorPerLine (h : Unmended t f) (hrule : f.rule = selectorPerLine)
    (hparse : Stylesheet.parse d f.context.text.chars = .ok tree) (hnode : f.node ∈ Node.walk tree) : Declines t f := by
  have hlabel : f.node.label = .style .selectorList := by
    have happlies := h.applies
    rw [hrule] at happlies
    have hmatch := Except.ok.inj happlies
    split at hmatch
    · assumption
    · cases hmatch
  rcases SelectorPerLine.changes_of_check hparse hnode hlabel (h.violation_mem (by rw [hrule]; rfl)) h.inside with
    ⟨a, b, hab, hb, hempty⟩ | ⟨e, hfix, hchanges⟩
  · exact .emptySelector hrule hab hb (h.text ▸ hempty)
  · refine (h.elim ?_ hchanges).elim
    rw [Finding.offer, hrule]
    exact congrArg Except.ok hfix

/-! ### Rules for modules -/

/-- Quotes are only left where a literal does not stand at its place. -/
theorem quoteStyle (h : Unmended t f) (hrule : f.rule = quoteStyle)
    (hcomes : returnsPaired t.chars.toList = true → Python.Comes f.context.text f.node) : Declines t f := by
  have hoffer : f.offer = .ok (Quotes.fix f.node f.context) := by rw [Finding.offer, hrule]; rfl
  have hv : f.violation ∈ Quotes.check f.node f.context := h.violation_mem (by rw [hrule]; rfl)
  have hin := h.inside
  cases hpaired : returnsPaired t.chars.toList with
  | true =>
    have happlies := h.applies
    rw [hrule] at happlies
    obtain ⟨e, hfix, hchanges⟩ := Quotes.changes_of_check (hcomes hpaired) hv happlies hin
    exact (h.elim (hoffer.trans (congrArg Except.ok hfix)) hchanges).elim
  | false =>
    obtain ⟨text, -, hspan, hfix⟩ := Quotes.fix_of_check hv
    rw [hspan, h.text] at hin
    rw [hfix] at hoffer
    exact .misplaced hrule hpaired hoffer (h.same hoffer hin)

/-- A block of imports is left where two statements share a line, or where it reads the same in order. -/
theorem importGrouping (h : Unmended t f) (hrule : f.rule = importGrouping) : Declines t f := by
  rcases ImportGrouping.changes_of_check (h.violation_mem (by rw [hrule]; rfl)) with
    hshares | hwritten | ⟨e, hfix, hchanges⟩
  · exact .sharedLine hrule (h.text ▸ hshares)
  · exact .writtenInOrder hrule (h.text ▸ hwritten)
  · refine (h.elim ?_ hchanges).elim
    rw [Finding.offer, hrule]
    exact congrArg Except.ok hfix

/-- An options class is left where it is blocked, or where a move has nothing to change; where nodes do not
stand at their places, also where the ends of a move are crossed. -/
theorem modelMetaPosition (h : Unmended t f) (hrule : f.rule = modelMetaPosition)
    (hcomes : returnsPaired t.chars.toList = true → ∀ m ∈ Node.walk f.node, Python.Comes f.context.text m) :
    Declines t f := by
  have hoffer : f.offer = MetaPosition.fix f.node f.context := by rw [Finding.offer, hrule]; rfl
  obtain ⟨l, hl, hseparator⟩ := MetaPosition.layout_of_check (h.violation_mem (by rw [hrule]; rfl))
  by_cases hfollows : l.metaIndex = l.fieldIndex + 1
  · rcases MetaPosition.changes_of_follows hl hfollows (hseparator hfollows) with hblocked | ⟨e, hfix, hchanges⟩
    · exact .blocked hrule (h.text ▸ hl) (h.text ▸ hblocked)
    · exact (h.elim (hoffer.trans hfix) hchanges).elim
  cases hfix : MetaPosition.fix f.node f.context with
  | ok offered =>
    cases offered with
    | none => exact absurd hfix (MetaPosition.fix_ne_none hl hfollows)
    | some e =>
      have hstop := MetaPosition.stop_le_of_fix hfix
      rw [h.text, Array.length_toList] at hstop
      exact .unmoved hrule (h.text ▸ hl) hfollows (hoffer.trans hfix) (h.same (hoffer.trans hfix) hstop)
  | error crash =>
    cases hpaired : returnsPaired t.chars.toList with
    | false => exact .crossed hrule hpaired (h.text ▸ hl) hfollows (hoffer.trans hfix)
    | true =>
      obtain ⟨e, hmoves⟩ := MetaPosition.fix_of_inOrder hl (MetaPosition.members_inOrder (hcomes hpaired)) hfollows
      cases hfix.symm.trans hmoves

end Unmended

end

/-! ### Texts that are left as they are -/

/-- The violation that is left of a text with a single finding, for which its rule gives no edit. -/
def leftover? (language : Language) (rules : List Rule) (settings : Settings) (t : Source) : Option Violation :=
  (parse language t).toOption.bind fun p => (matchTree p rules settings).toOption.bind fun found =>
    match found with
    | [f] => if (f.edit? t).isNone then (settle settings f.violation).filter Violation.fixable else none
    | _ => none

/-- A run on such a text ends at once, with the violation in its report. -/
theorem fixText_of_leftover (path : String) {v : Violation} (h : leftover? language rules settings t = some v) :
    ∃ o, fixText path language rules settings t = .ok o ∧ o.text = t ∧ o.converged = true ∧
      v ∈ o.checked.report.violations ∧ v.fixable = true := by
  simp only [leftover?, Option.bind_eq_some_iff, toOption_eq_some] at h
  obtain ⟨p, hp, found, hfound, h⟩ := h
  split at h
  · rename_i f
    split at h
    · rename_i hnone
      obtain ⟨hv, hfixable⟩ := Option.filter_eq_some_iff.1 h
      have hfault := fault?_of_matchTree hfound (List.mem_singleton_self f)
      obtain rfl := parse_text hp
      set s : FixState := { parsed := p, checked := { report := aggregate settings [f.violation], findings := [f] },
                            iterations := 0, editsApplied := 0 } with hs
      have hfresh : s.Fresh language rules settings := by
        refine ⟨hp, ?_⟩
        simp only [hs, checkParsed, hfault, hfound, List.map_cons, List.map_nil]
      have hedits : fixEdits p.text s.checked = [] := by
        refine List.filterMap_eq_nil_iff.2 fun g hg => ?_
        rw [List.mem_singleton.1 (mem_of_mem_firstFindings hg)]
        exact Option.isNone_iff_eq_none.1 hnone
      obtain ⟨o, ho, htext, -, hchecked, hending⟩ := fixText_of_rests path hfresh
        (.settled (Edit.select_eq_nil_iff.2 hedits))
      refine ⟨o, ho, htext, beq_iff_eq.2 hending, ?_, hfixable⟩
      rw [hchecked]
      show v ∈ (aggregate settings [f.violation]).violations
      rw [aggregate_single hv]
      exact List.mem_singleton_self v
    · cases h
  · cases h

/-! ### Runs -/

/-- **A rule of the catalogue that gives no edit for what it calls fixable declines.** -/
theorem declines_of_edit? {p : Parsed} {tree : Node} {found : List Finding} (hrules : ∀ r ∈ rules, r ∈ allRules)
    (hp : parse language t = .ok p) (htree : p.tree? = some tree) (hfound : matchTree p rules settings = .ok found)
    {f : Finding} (hf : f ∈ found) (hfixable : f.violation.fixable = true) (hnone : f.edit? t = none) :
    Declines t f := by
  have hin := foundIn_of_matchTree hrules hp htree hfound hf
  obtain ⟨-, -, -, -, ⟨scope, hcontext⟩, m, hrun⟩ := visit_of_matchTree htree hfound f hf
  have hreported := reported_of_run hrun hfixable
  have hunmended : Unmended t f := by
    refine ⟨hin.text, ⟨m, hreported⟩, fun e hoffer hchanges => ?_⟩
    rw [edit?_of_changes hoffer hchanges] at hnone
    cases hnone
  have hinfo : f.context.info = f.rule.info := by rw [hcontext]; rfl
  obtain ⟨id, hid⟩ := hin.catalogue
  have hruns := hin.runs
  rw [← hid] at hinfo hruns hreported
  cases id with
  | bemClassName | nestingDepth | noExtend | noIdSelector | namingConvention | relatedNameRequired =>
    cases hreported.fixable hinfo hfixable
  | borderNone =>
    obtain ⟨d, hparse⟩ := hin.style (by rintro rfl; cases hruns)
    exact (hunmended.borderNone hid.symm hparse hin.node).elim
  | zeroUnit => exact hunmended.zeroUnit hid.symm
  | propertyOrder =>
    obtain ⟨d, hparse⟩ := hin.style (by rintro rfl; cases hruns)
    exact (hunmended.propertyOrder hid.symm hparse (hin.misplaced hid.symm)).elim
  | selectorPerLine =>
    obtain ⟨d, hparse⟩ := hin.style (by rintro rfl; cases hruns)
    exact hunmended.selectorPerLine hid.symm hparse hin.node
  | quoteStyle =>
    have hpython := List.mem_singleton.1 (List.contains_iff_mem.1 hruns)
    exact hunmended.quoteStyle hid.symm fun hpaired => hin.comes hpython hpaired f.node hin.node
  | importGrouping => exact hunmended.importGrouping hid.symm
  | modelMetaPosition =>
    have hpython := List.mem_singleton.1 (List.contains_iff_mem.1 hruns)
    exact hunmended.modelMetaPosition hid.symm fun hpaired m hm =>
      hin.comes hpython hpaired m (Node.mem_walk_trans hm tree hin.node)

/-- **What is left of a run that ended by itself is declined.** Each violation that is marked as fixable comes
from a finding that contributes no edit, for one of the reasons. -/
theorem leftovers_decline (hrules : ∀ r ∈ rules, r ∈ allRules) {o : FixOutcome}
    (ho : fixText path language rules settings t = .ok o) (hconverged : o.converged = true) {v : Violation}
    (hv : v ∈ o.checked.report.violations) (hfixable : v.fixable = true) :
    ∃ f ∈ o.checked.findings, f.violation.key = v.key ∧ f.edit? o.text = none ∧ Declines o.text f := by
  have hending : o.ending = .settled := beq_iff_eq.1 hconverged
  obtain ⟨last, hfresh, hrests, htext, hchecked⟩ := rests_of_fixText ho (by rw [hending]; nofun)
  rw [hending] at hrests
  obtain ⟨hnone⟩ := hrests
  have hparse := hfresh.parsed
  have hcheck := hfresh.checked
  rw [htext] at hparse
  rw [hchecked] at hcheck
  -- a text without a tree has nothing fixable
  have hfault : last.parsed.fault? = none := by
    cases hfault : last.parsed.fault? with
    | none => rfl
    | some u =>
      simp only [checkParsed, hfault] at hcheck
      rw [← Except.ok.inj hcheck] at hv
      rw [List.mem_singleton.1 hv] at hfixable
      cases hfixable
  obtain ⟨tree, htree⟩ := exists_tree hfault
  have hfound := findings_of_checkParsed hfault hcheck
  obtain ⟨f, hf, hkey, hffixable⟩ := exists_mendable hfault hcheck hv hfixable
  have hmem := mem_of_mem_firstFindings hf
  -- no edit is left
  have hedits : fixEdits o.text o.checked = [] := by
    rw [FixState.selected, selectedEdits, Edit.select_eq_nil_iff, htext, hchecked] at hnone
    exact hnone
  rw [fixEdits, List.filterMap_eq_nil_iff] at hedits
  exact ⟨f, hmem, hkey, hedits f hf,
    declines_of_edit? hrules hparse htree hfound hmem hffixable (hedits f hf)⟩

/-- A comment below the last field blocks the options class. -/
theorem leftovers_decline_note : ∃ o v, fixText "a.py" .python allRules .default (.ofString
        "class A:\n    x = 1\n    # note\n\n    class Meta:\n        pass\n") = .ok o ∧ o.converged = true ∧
      v ∈ o.checked.report.violations ∧ v.fixable = true ∧
      ∃ f ∈ o.checked.findings, f.violation.key = v.key ∧ f.edit? o.text = none ∧ Declines o.text f := by
  set t : Source := .ofString "class A:\n    x = 1\n    # note\n\n    class Meta:\n        pass\n" with ht
  have hb : (leftover? .python allRules .default t).isSome = true := by
    rw [ht]
    decide +kernel
  obtain ⟨v, hv⟩ := Option.isSome_iff_exists.1 hb
  obtain ⟨o, ho, -, hconverged, hmem, hfixable⟩ := fixText_of_leftover "a.py" hv
  exact ⟨o, v, ho, hconverged, hmem, hfixable, leftovers_decline (fun _ hr => hr) ho hconverged hmem hfixable⟩

/-- Behind an empty selector, a selector is reported as fixable and left. -/
theorem fixText_leaves_selector : ∃ o, fixText "a.css" .css allRules .default (.ofString "a,,b\x7b\x7d") = .ok o ∧
    o.converged = true ∧ ∃ v ∈ o.checked.report.violations, v.fixable = true := by
  have hb : (leftover? .css allRules .default (.ofString "a,,b\x7b\x7d")).isSome = true := by
    decide +kernel
  obtain ⟨v, hv⟩ := Option.isSome_iff_exists.1 hb
  obtain ⟨o, ho, -, hconverged, hmem, hfixable⟩ := fixText_of_leftover "a.css" hv
  exact ⟨o, ho, hconverged, v, hmem, hfixable⟩

end HouseStyle
