import HouseStyle.Proofs.Rule.Inside
import HouseStyle.Proofs.Stylesheet.Sequence

/-!
# The levels of rules

A rule of a stylesheet is as deep as there are rules on the path down to it, itself with them,
and conditional at-rules where the options count these. What is told about depth is exact. The
rules of a text start one after the other, and each is reported where it starts, so no two
reports fall together and none gets out of order.

* `Stylesheet.HasSelectors`: a rule has selectors, which start where it does.
* `NestingDepth.found_at`: what is found at a place of the tree is told by the path to it.
* `NestingDepth.report_levels`: **the report is about the rules that are too deep, in document
  order**, one violation for each.
-/

namespace HouseStyle

open Stylesheet (Dialect)

/-! ### The selectors of a rule -/

namespace Stylesheet

open Node (walk walkList)

variable {d : Dialect} {src : Array Char}

theorem kind_eq_rule_iff {n : Node} : n.kind = "rule" ↔ ∃ selector, n.label = .style (.rule selector) := by
  constructor
  · intro h
    have hstep := Scope.selectorStep_eq n
    rw [h] at hstep
    unfold Scope.selectorStep at hstep
    split at hstep
    · rename_i selector hlabel
      exact ⟨selector, hlabel⟩
    · simp at hstep
  · rintro ⟨selector, h⟩
    unfold Node.kind
    rw [h]
    rfl

theorem isStatement_of_kind {n : Node} (h : n.kind = "rule") : IsStatement n := by
  obtain ⟨selector, hlabel⟩ := kind_eq_rule_iff.1 h
  unfold IsStatement
  rw [hlabel]
  trivial

/-- A rule has selectors, which start where it does. -/
structure HasSelectors (n : Node) (list : Node) : Prop where
  mem : list ∈ n.children
  child : n.child? "selector-list" = some list
  label : list.label = .style .selectorList
  start : list.span.start = n.span.start

theorem headNode_hasSelectors {start headStop stop : Nat} {block : Option Node} {m : Node}
    (h : headNode src start headStop stop block = .ok m) (hkind : m.kind = "rule") :
    ∃ list, HasSelectors m list := by
  obtain ⟨selector, hlabel⟩ := kind_eq_rule_iff.1 hkind
  unfold headNode at h
  split at h
  · obtain ⟨name, prelude, mixin, rfl⟩ := atRule_shape h
    cases hlabel
  · split at h
    · obtain ⟨list, hlist, rfl⟩ := rule_shape h
      obtain ⟨hshape, -⟩ := selectorList_shape hlist
      have hkind : list.kind = "selector-list" := by rw [hshape]; rfl
      refine ⟨list, List.mem_cons_self, ?_, by rw [hshape]; rfl, by rw [hshape]; rfl⟩
      simp [Node.child?, nodeOf, hkind]
    · obtain ⟨property, value, important, name, propertyStop, valueStart, rfl⟩ := declaration_shape h
      cases hlabel

/-- **Each rule of a text has selectors**, which start where it does. -/
theorem parse_hasSelectors {tree n : Node} (h : parse d src = .ok tree) (hn : n ∈ walk tree) (hkind : n.kind = "rule") :
    ∃ list, HasSelectors n list := by
  obtain ⟨ns, r, hr, -, rfl⟩ := parse_iff.1 h
  obtain ⟨selector, hlabel⟩ := kind_eq_rule_iff.1 hkind
  have hn : n ∈ walkList ns := mem_walkList_of_root hn (by rw [hlabel]; nofun)
  refine hr.forall_nodes (P := fun n => n.kind = "rule" → ∃ list, HasSelectors n list) (fun k m hm => ?_)
    (fun k brace children last close _ _ _ _ hkind => ?_) n hn hkind
  · obtain ⟨stop, c, e, block, -, -, node, -, hblock⟩ := hm.head
    refine ⟨headNode_hasSelectors node, fun c hc hne x hx hkind => ?_⟩
    obtain ⟨parts, hchildren, hparts⟩ := headNode_parts_not_statement node
    rw [hchildren, List.mem_append, Option.mem_toList] at hc
    rcases hc with hc | hc
    · exact absurd (isStatement_of_kind hkind) (hparts x (Node.mem_walkList_trans hx _ (Node.mem_walkList_of_mem hc)))
    · exact absurd (hblock c hc) hne
  · obtain ⟨selector, hlabel⟩ := kind_eq_rule_iff.1 hkind
    cases hlabel

end Stylesheet

/-! ### What is found at a place -/

namespace NestingDepth

variable {d : Dialect} {t : Source} {settings : Settings} {language : Language} {tree : Node} {s : Site}

/-- The level of a place: the rules on the path from the root down to its node, which is on it, and
the conditional at-rules on that path where the options count these. -/
def levelAt (o : NestingDepthOptions) (s : Site) : Nat :=
  ((s.path ++ [s.node]).countP fun n => n.kind == "rule") +
    if o.countConditionalWrappers then (s.path ++ [s.node]).countP Scope.isConditional else 0

/-- Whether the node of a place is a rule that is nested too deeply. -/
def isTooDeep (o : NestingDepthOptions) (s : Site) : Bool :=
  s.node.kind == "rule" && decide (o.maxDepth < levelAt o s)

/-- The level in the scope of a place is the one that its path tells. -/
theorem level_below (o : NestingDepthOptions) (size : Nat) (hkind : s.node.kind = "rule") :
    level o (.below size s.path) = levelAt o s := by
  obtain ⟨selector, hlabel⟩ := Stylesheet.kind_eq_rule_iff.1 hkind
  have hwrapper : Scope.isConditional s.node = false := by
    unfold Scope.isConditional
    rw [hlabel]
  unfold level levelAt
  rw [Scope.selectorDepth_below, Scope.wrapperDepth_below]
  simp [List.countP_append, hkind, hwrapper]

/-- The message about a rule of a level. -/
def message (o : NestingDepthOptions) (selector : String) (level : Nat) : String :=
  s!"Selector '{selector}' is nested {level} levels deep (maximum {o.maxDepth})"

/-- What is reported about the rule at a place. -/
def violationAt (t : Source) (settings : Settings) (s : Site) : Violation :=
  let o := (settings.rule .nestingDepth).options
  let selector := match s.node.label with
    | .style (.rule selector) => selector
    | _ => ""
  (contextFor t settings (.below t.size s.path) nestingDepth).violation
    (((s.node.child? "selector-list").map Node.span).getD s.node.span)
    (message o selector (levelAt o s))

theorem check_eq (hkind : s.node.kind = "rule") :
    check s.node (contextFor t settings (.below t.size s.path) nestingDepth) =
      if isTooDeep (settings.rule .nestingDepth).options s then [violationAt t settings s] else [] := by
  obtain ⟨selector, hlabel⟩ := Stylesheet.kind_eq_rule_iff.1 hkind
  have hlevel := level_below (settings.rule .nestingDepth).options t.size hkind
  unfold check isTooDeep violationAt message
  simp only [hlabel, contextFor, hlevel, hkind, beq_self_eq_true, Bool.true_and, decide_eq_true_eq]
  split
  · rename_i hle
    rw [if_neg (Int.not_lt.2 hle)]
  · rename_i hlt
    rw [if_pos (Int.not_le.1 hlt)]

/-- What is reported about a rule is reported at its selectors. -/
theorem violationAt_span {list : Node} (h : Stylesheet.HasSelectors s.node list) :
    (violationAt t settings s).span = list.span := by
  unfold violationAt Context.violation
  simp [h.child]

/-- The turns at a place are those of the one rule, if it is for the node. -/
theorem rulesAt_eq (hlanguage : language ≠ .python) (kind : String) :
    rulesAt language [nestingDepth] kind = if kind = "rule" then [nestingDepth] else [] := by
  have hfor : nestingDepth.info.languages.contains language = true := by
    cases language with
    | python => exact absurd rfl hlanguage
    | css => rfl
    | scss => rfl
  have hconcerns : nestingDepth.concerns language kind = decide (kind = "rule") := by
    rw [Rule.concerns, hfor, Bool.true_and, Bool.eq_iff_iff, List.contains_iff_mem, decide_eq_true_iff]
    exact List.mem_singleton
  rw [rulesAt, List.filter_singleton, hconcerns]
  simp

/-- **What is found at a place**: the violation about its rule, if that is too deep, and nothing
else. -/
theorem found_at (hlanguage : language ≠ .python) (hparse : Stylesheet.parse d t.chars = .ok tree)
    (hs : s ∈ tree.sites [] []) :
    ((turnsAt t settings (rulesAt language [nestingDepth]) s).flatMap Turn.found).map Finding.violation =
      if isTooDeep (settings.rule .nestingDepth).options s then [violationAt t settings s] else [] := by
  unfold turnsAt
  simp only [rulesAt_eq hlanguage]
  by_cases hkind : s.node.kind = "rule"
  · obtain ⟨selector, hlabel⟩ := Stylesheet.kind_eq_rule_iff.1 hkind
    have hn : s.node ∈ Node.walk tree := Node.mem_walk_iff.2 ⟨s, hs, rfl⟩
    set c := contextFor t settings (.below t.size s.path) nestingDepth with hc
    -- what is reported stands inside of the rule, and so inside of the text
    have hin : ∀ v ∈ check s.node c, v.span.stop ≤ c.text.size := by
      intro v hv
      have hstop := (inside_of_mem_check (c := c) hparse hn v hv).stop_le
      exact Nat.le_trans hstop (Stylesheet.stop_le_size hparse hn)
    have happlies : nestingDepth.applies s.node = .ok true := by
      unfold nestingDepth
      simp only [hlabel]
    simp only [if_pos hkind, turnsFrom, List.flatMap_cons, List.flatMap_nil, List.append_nil, Turn.found, ← hc]
    rw [runRule_violations happlies rfl hin, hc, check_eq hkind]
  · have hnot : isTooDeep (settings.rule .nestingDepth).options s = false := by simp [isTooDeep, hkind]
    simp [if_neg hkind, turnsFrom, hnot]

/-! ### The report -/

/-- **What is told about a rule that is too deep**: it is reported at its selectors, with its level
and the greatest one that is allowed, as grave as the settings say. -/
structure Told (t : Source) (settings : Settings) (s : Site) (v : Violation) : Prop where
  rule : v.rule = RuleId.nestingDepth.name
  span : ∃ list ∈ s.node.children, list.label = .style .selectorList ∧ v.span = list.span
  message : ∃ selector, s.node.label = .style (.rule selector) ∧
    v.message = NestingDepth.message (settings.rule .nestingDepth).options selector
      (levelAt (settings.rule .nestingDepth).options s)
  severity : v.severity = (settings.rule .nestingDepth).severity
  fixable : v.fixable = false
  location : v.location = { start := positionIn t.chars.toList v.span.start
                            stop := some (positionIn t.chars.toList v.span.stop) }
  line : v.line = some (String.ofList (lineIn t.chars.toList v.span.start))

theorem told_violationAt (hparse : Stylesheet.parse d t.chars = .ok tree) (hn : s.node ∈ Node.walk tree)
    (hkind : s.node.kind = "rule") :
    Told t settings s { violationAt t settings s with severity := (settings.rule .nestingDepth).severity } := by
  obtain ⟨list, hlist⟩ := Stylesheet.parse_hasSelectors hparse hn hkind
  obtain ⟨selector, hlabel⟩ := Stylesheet.kind_eq_rule_iff.1 hkind
  have hspan := @violationAt_span t settings s list hlist
  have hmem : list ∈ Node.walk tree := Node.mem_walk_trans (Node.mem_walk_of_child hlist.mem) tree hn
  have hstop := Stylesheet.stop_le_size hparse hmem
  have hstart := Nat.le_trans list.span.start_le_stop hstop
  refine ⟨rfl, ⟨list, hlist.mem, hlist.label, hspan⟩, ⟨selector, hlabel, ?_⟩, rfl, rfl, ?_, ?_⟩
  · unfold violationAt Context.violation
    simp only [hlabel]
  · change t.location (violationAt t settings s).span =
      { start := positionIn t.chars.toList (violationAt t settings s).span.start
        stop := some (positionIn t.chars.toList (violationAt t settings s).span.stop) }
    rw [hspan, Source.location, Source.position_eq hstart, Source.position_eq hstop]
  · change some (t.lineText (t.lineOf (violationAt t settings s).span.start)) =
      some (String.ofList (lineIn t.chars.toList (violationAt t settings s).span.start))
    rw [hspan, Source.lineText_eq hstart]

/-- **The report about the depth of rules is exact.** When no other rule takes part, it holds one
violation for each rule of the text whose level is above the greatest one that is allowed, in the
order in which these rules stand in the text, and nothing else. Each is told at the selectors of
its rule, and quotes the level that the path to it tells. -/
theorem report_levels {language : Language} {p : Parsed} (hlanguage : language ≠ .python)
    (hparse : parse language t = .ok p) (htree : p.tree? = some tree)
    (hruns : ∀ id, settings.runs id = decide (id = .nestingDepth)) :
    ∃ checked, checkParsed p (enabledRules settings) settings = .ok checked ∧
      List.Forall₂ (Told t settings)
        ((tree.sites [] []).filter (isTooDeep (settings.rule .nestingDepth).options)) checked.report.violations := by
  obtain ⟨d, hd⟩ := exists_dialect hlanguage
  obtain rfl : parseStylesheet language d t = p := Except.ok.inj ((hd t).symm.trans hparse)
  have hparse := parseStylesheet_tree.1 htree
  have hrules : enabledRules settings = [nestingDepth] := by
    have hids : RuleId.all.filter settings.runs = [.nestingDepth] := by
      rw [funext hruns]
      decide
    rw [enabledRules, hids]
    rfl
  obtain ⟨checked, hchecked, -⟩ := (separate_enabledRules settings).reports (parseStylesheet language d t) settings
  obtain ⟨found, hfound, hreport⟩ := report_of_checkParsed (fault?_of_tree? htree) hchecked
  refine ⟨checked, hchecked, ?_⟩
  -- what is found, place by place
  rw [hrules, matchTree_eq _ _ htree, parseStylesheet_text, parseStylesheet_language, collect_eq_ok_iff] at hfound
  obtain ⟨-, rfl⟩ := hfound
  set deep := (tree.sites [] []).filter (isTooDeep (settings.rule .nestingDepth).options) with hdeep
  have hviolations : ((turns t settings (rulesAt language [nestingDepth]) tree).flatMap Turn.found).map
      Finding.violation = deep.map (violationAt t settings) := by
    rw [List.map_flatMap]
    refine flatMap_turns fun s hs => ?_
    rw [← List.map_flatMap]
    exact found_at hlanguage hparse hs
  -- each is told at the start of a rule, so they are in order
  have hmem : ∀ s ∈ deep, s.node ∈ Node.walk tree ∧ s.node.kind = "rule" := by
    intro s hs
    obtain ⟨hsite, htoo⟩ := List.mem_filter.1 hs
    rw [isTooDeep, Bool.and_eq_true, beq_iff_eq] at htoo
    exact ⟨Node.mem_walk_iff.2 ⟨s, hsite, rfl⟩, htoo.1⟩
  have hstart : ∀ s ∈ deep, (violationAt t settings s).span.start = s.node.span.start := by
    intro s hs
    obtain ⟨list, hlist⟩ := Stylesheet.parse_hasSelectors hparse (hmem s hs).1 (hmem s hs).2
    rw [violationAt_span hlist, hlist.start]
  have hascends : (deep.map (violationAt t settings)).Pairwise fun a b => a.span.start < b.span.start := by
    have hrules := Stylesheet.parse_ascends hparse
    rw [← Node.map_node_sites [] [], List.pairwise_map] at hrules
    refine List.pairwise_map.2 ((hrules.filter _).imp_of_mem fun {a b} ha hb hlt => ?_)
    rw [hstart a ha, hstart b hb]
    exact hlt (Stylesheet.isStatement_of_kind (hmem a ha).2) (Stylesheet.isStatement_of_kind (hmem b hb).2)
  have hnames : ∀ v ∈ deep.map (violationAt t settings), v.rule = RuleId.nestingDepth.name := by
    intro v hv
    obtain ⟨s, -, rfl⟩ := List.mem_map.1 hv
    rfl
  rw [hreport, hviolations, violations_of_ascending hnames (by rw [hruns]; rfl) hascends, List.map_map,
    List.forall₂_map_right_iff, List.forall₂_same]
  exact fun s hs => told_violationAt hparse (hmem s hs).1 (hmem s hs).2

/-- The settings of a run that is narrowed to the rule. -/
def narrowed (o : NestingDepthOptions) : Settings :=
  { Settings.default with
    rule := fun
      | .nestingDepth => { RuleSettings.default .nestingDepth with options := o }
      | id => RuleSettings.default id
    selected := some [.nestingDepth] }

/-- A conditional at-rule counts for the rules in it, and not for those behind; a rule may have no
selector. -/
theorem report_levels_media : ∃ p tree checked,
    parse .scss (.ofString "a\x7bb\x7b\x7d@media print\x7bc\x7b\x7d\x7dd\x7b\x7d\x7d\x7be\x7b\x7d\x7d") = .ok p ∧
      p.tree? = some tree ∧
      checkParsed p (enabledRules (narrowed ⟨1, true⟩)) (narrowed ⟨1, true⟩) = .ok checked ∧
      ((tree.sites [] []).filter (isTooDeep ⟨1, true⟩)).map (levelAt ⟨1, true⟩) = [2, 3, 2, 2] ∧
      List.Forall₂
        (Told (.ofString "a\x7bb\x7b\x7d@media print\x7bc\x7b\x7d\x7dd\x7b\x7d\x7d\x7be\x7b\x7d\x7d")
          (narrowed ⟨1, true⟩))
        ((tree.sites [] []).filter (isTooDeep ⟨1, true⟩)) checked.report.violations := by
  set t : Source := .ofString "a\x7bb\x7b\x7d@media print\x7bc\x7b\x7d\x7dd\x7b\x7d\x7d\x7be\x7b\x7d\x7d" with ht
  have hb : (parseStylesheet .scss .scss t).tree?.any (fun tree =>
      ((tree.sites [] []).filter (isTooDeep ⟨1, true⟩)).map (levelAt ⟨1, true⟩) == [2, 3, 2, 2]) = true := by
    rw [ht]
    decide +kernel
  have hruns : ∀ id, (narrowed ⟨1, true⟩).runs id = decide (id = .nestingDepth) := by
    intro id
    cases id <;> rfl
  obtain ⟨tree, htree, hlevels⟩ := (Option.any_eq_true _ _).1 hb
  obtain ⟨checked, hchecked, htold⟩ := report_levels (show Language.scss ≠ .python by decide) rfl htree hruns
  exact ⟨_, tree, checked, rfl, htree, hchecked, beq_iff_eq.1 hlevels, htold⟩

end NestingDepth

end HouseStyle
