import HouseStyle.Proofs.Fix.FixedPoint
import HouseStyle.Proofs.Rule.OrderEdit
import HouseStyle.Proofs.Rule.SelectorEdit
import HouseStyle.Proofs.Rule.ValueEdit
import HouseStyle.Rule.Catalogue

/-!
# Fixing plain CSS settles

Every round makes the text lighter, so no run of the rules of the catalogue needs more rounds
than the text weighs. A zero takes away characters that count. Putting a block in order and
breaking a line take none away, but lower the first digit of the weight that they change: a
statement of an earlier group moves up to there, or a line ends after a comma where it went on.

* `Visit`: what a finding of a walk is like.
* `offer_lightens`: whatever a rule of the catalogue offers for plain CSS makes the text lighter.
* `selected_lighter`: so does a round; `fixFrom_settles`: a run does not use up its rounds.
* `fixText_settles`: from some number of rounds on, a run ends by itself.
-/

namespace HouseStyle

open Stylesheet (Dialect)
open PropertyOrder (styleWeight)
open ZeroLength (areSolid)

variable {rules : List Rule} {settings : Settings} {t : Source}

/-! ### What a finding comes from -/

/-- A finding is one of a rule that was run at a node of the tree, of a kind that the rule is for. -/
structure Visit (p : Parsed) (rules : List Rule) (settings : Settings) (tree : Node) (f : Finding) : Prop where
  rule : f.rule ∈ rules
  language : f.rule.info.languages.contains p.language = true
  kind : f.rule.info.kinds.contains f.node.kind = true
  node : f.node ∈ Node.walk tree
  context : ∃ scope, f.context = contextFor p.text settings scope f.rule
  run : ∃ m, f ∈ (runRule f.rule f.node f.context m).1

/-- A finding tells the node, which concerns the rule. -/
theorem runRule_node {r : Rule} {n : Node} {c : Context} {m : Memory} :
    ∀ f ∈ (runRule r n c m).1, f.node = n ∧ r.applies n ≠ .ok false := by
  intro f hf
  unfold runRule at hf
  split at hf
  · rename_i happlies
    rw [List.mem_singleton.1 hf, happlies]
    exact ⟨rfl, nofun⟩
  · cases hf
  · rename_i happlies
    refine ⟨?_, by rw [happlies]; nofun⟩
    split at hf
    · rw [List.mem_singleton.1 hf]
      rfl
    · obtain ⟨v, -, rfl⟩ := List.mem_map.1 hf
      unfold findingOf
      split <;> rfl

theorem visit_of_matchTree {p : Parsed} {tree : Node} {found : List Finding} (htree : p.tree? = some tree)
    (h : matchTree p rules settings = .ok found) : ∀ f ∈ found, Visit p rules settings tree f := by
  unfold matchTree at h
  rw [htree] at h
  refine walkFrames_forall (fun f => ∀ n ∈ f.pending, n ∈ Node.walk tree)
    (fun scope n pending ms found ms' hpending hrun => ⟨?_, ?_, ?_⟩) ?_ h
  · have hn := hpending n List.mem_cons_self
    refine (runRules_forall (fun _ => True) _ (fun r hr ms _ => ⟨fun f hf => ?_, trivial⟩) trivial hrun).1
    obtain ⟨hmem, hconcerns⟩ := List.mem_filter.1 hr
    obtain ⟨hrule, hcontext⟩ := runRule_origin f hf
    obtain ⟨hnode, -⟩ := runRule_node f hf
    rw [Rule.concerns, Bool.and_eq_true] at hconcerns
    subst hrule hnode
    rw [← hcontext] at hf
    exact ⟨hmem, hconcerns.1, hconcerns.2, hn, ⟨scope, hcontext⟩, ⟨_, hf⟩⟩
  · exact fun m hm => hpending m (List.mem_cons_of_mem _ hm)
  · intro m hm
    exact Node.mem_walk_trans (Node.mem_walk_of_child hm) tree (hpending n List.mem_cons_self)
  · intro f hf n hn
    obtain rfl := List.mem_singleton.1 hf
    rw [List.mem_singleton.1 hn]
    exact Node.mem_walk_self tree

/-! ### What the rules offer -/

/-- The name of the rule about the order of a block is its own. -/
theorem eq_propertyOrder_of_id {id : RuleId} (h : id.rule.id = propertyOrder.id) : id.rule = propertyOrder := by
  rw [RuleId.rule_id] at h
  cases id with
  | propertyOrder => rfl
  | _ => exact absurd h (by decide)

/-- What a rule that does not crash finds inside of the text are the violations it reports. -/
theorem mem_check_of_run {r : Rule} {check : Node → Context → List Violation} {n : Node} {c : Context}
    {m : Memory} {f : Finding} {b : Bool} (happlies : r.applies n = .ok b) (hcheck : r.check = Rule.simpleCheck check)
    (hin : ∀ v ∈ check n c, v.span.stop ≤ c.text.size) (hf : f ∈ (runRule r n c m).1) :
    f.violation ∈ check n c := by
  unfold runRule at hf
  rw [hcheck] at hf
  split at hf
  · rename_i hcrash
    rw [happlies] at hcrash
    cases hcrash
  · cases hf
  · split at hf
    · rename_i h
      cases h
    · rename_i h
      cases h
      obtain ⟨v, hv, rfl⟩ := List.mem_map.1 hf
      rw [findingOf, if_neg (Nat.not_lt.2 (hin v hv))]
      exact hv

/-- **Whatever a rule of the catalogue offers for plain CSS makes the text lighter.** Rules for
other languages do not run, and those without a fix offer nothing. -/
theorem offer_lightens {tree : Node} {found : List Finding}
    (hrules : ∀ r ∈ rules, r ∈ allRules)
    (hunits : areSolid ((settings.rule .zeroUnit).options.units.map String.toList) = true)
    (htree : (parseStylesheet .css .css t).tree? = some tree)
    (hfound : matchTree (parseStylesheet .css .css t) rules settings = .ok found) {f : Finding} {e : Edit}
    (hf : f ∈ found) (hoffer : f.offer = .ok (some e)) : Lightens t e := by
  obtain ⟨hrule, hlanguage, -, hnode, ⟨scope, hcontext⟩, m, hrun⟩ := visit_of_matchTree htree hfound f hf
  obtain ⟨-, happlies⟩ := runRule_node f hrun
  have htext : f.context.text = t := by
    rw [hcontext]
    exact parseStylesheet_text _ _ _
  have hparse : Stylesheet.parse .css f.context.text.chars = .ok tree := by
    rw [htext]
    exact parseStylesheet_tree.1 htree
  obtain ⟨id, -, hid⟩ := List.mem_map.1 (hrules _ hrule)
  rw [parseStylesheet_language] at hlanguage
  rw [Finding.offer] at hoffer
  rw [← hid] at hlanguage happlies hoffer hrun
  rw [← htext]
  cases id with
  | bemClassName | nestingDepth | noExtend | noIdSelector => cases hoffer
  | importGrouping | modelMetaPosition | namingConvention | quoteStyle | relatedNameRequired =>
    exact absurd hlanguage (by decide)
  | borderNone =>
    have hd : isDeclaration f.node = true := by simpa [RuleId.rule, borderNone] using happlies
    exact BorderNone.lightens_of_fix hparse hnode hd (Except.ok.inj hoffer)
  | zeroUnit =>
    have hd : isDeclaration f.node = true := by simpa [RuleId.rule, zeroUnit] using happlies
    refine ZeroLength.lightens_of_fix hparse hnode hd ?_ (Except.ok.inj hoffer)
    rw [hcontext]
    exact hunits
  | propertyOrder =>
    have hmisplaced := PropertyOrder.outOfOrder_of_matchTree htree (fun r hr hid => ?_) hfound f hf hid.symm
    · rw [parseStylesheet_text, ← htext] at hmisplaced
      exact PropertyOrder.lightens_of_fix hparse hmisplaced (Except.ok.inj hoffer)
    · obtain ⟨id, -, rfl⟩ := List.mem_map.1 (hrules r hr)
      exact eq_propertyOrder_of_id hid
  | selectorPerLine =>
    have hlabel : f.node.label = .style .selectorList := by
      by_contra hne
      refine happlies (congrArg Except.ok ?_)
      split
      · contradiction
      · rfl
    refine SelectorPerLine.lightens_of_fix hparse hnode hlabel ?_ (Except.ok.inj hoffer)
    exact mem_check_of_run rfl rfl (SelectorPerLine.check_inside hparse hnode hlabel) hrun

/-! ### Rounds -/

theorem mem_of_mem_firstFindings {wanted seen : List (String × Span)} {found : List Finding} {f : Finding}
    (h : f ∈ firstFindings wanted seen found) : f ∈ found := by
  induction found generalizing seen with
  | nil => exact h
  | cons g rest ih =>
    simp only [firstFindings] at h
    split at h
    · rcases List.mem_cons.1 h with rfl | h
      · exact List.mem_cons_self
      · exact List.mem_cons_of_mem _ (ih h)
    · exact List.mem_cons_of_mem _ (ih h)

theorem offer_of_edit? {f : Finding} {e : Edit} (h : f.edit? t = some e) : f.offer = .ok (some e) := by
  unfold Finding.edit? at h
  split at h
  · split at h
    · cases h
      assumption
    · cases h
  · cases h

/-- The findings behind a report are those of a walk. -/
theorem findings_of_checkParsed {p : Parsed} {c : Checked} (hfault : p.fault? = none)
    (h : checkParsed p rules settings = .ok c) : matchTree p rules settings = .ok c.findings := by
  simp only [checkParsed, hfault] at h
  split at h
  · cases h
  · cases h
    assumption

/-- **A round makes the text lighter.** -/
theorem selected_lighter {s : FixState} (hrules : ∀ r ∈ rules, r ∈ allRules)
    (hunits : areSolid ((settings.rule .zeroUnit).options.units.map String.toList) = true)
    (hs : s.Fresh .css rules settings) (hne : s.selected ≠ []) {cs : List Char}
    (hcs : Edit.applyAll s.parsed.text.chars.toList s.selected = .ok cs) :
    styleWeight cs.toArray < styleWeight s.parsed.text.chars := by
  have hfault := fault?_of_selectedEdits hs.checked hne
  have hparsed : parseStylesheet .css .css s.parsed.text = s.parsed := Except.ok.inj hs.parsed
  obtain ⟨tree, htree⟩ := exists_tree hfault
  have hfound := findings_of_checkParsed hfault hs.checked
  refine applyAll_lighter (Edit.select_apart _) (fun e he => mem_fixEdits_inside (Edit.mem_of_mem_select he)) hne
    (fun e he => ?_) hcs
  obtain ⟨f, hf, hedit⟩ := List.mem_filterMap.1 (Edit.mem_of_mem_select he)
  rw [← hparsed] at htree hfound
  exact offer_lightens hrules hunits htree hfound (mem_of_mem_firstFindings hf) (offer_of_edit? hedit)

/-- What a round that goes on performs, and what it leads to. -/
theorem text_of_fixRound {language : Language} {s s' : FixState} {edits : List Edit}
    (h : fixRound language rules settings s edits = .ok (.next s')) :
    ∃ cs, Edit.applyAll s.parsed.text.chars.toList edits = .ok cs ∧ s'.parsed.text = .ofChars cs.toArray := by
  obtain ⟨cs, p, hcs, hparsed, ⟨u, -, hr⟩ | ⟨c, -, -, hr⟩⟩ := fixRound_cases h
  · cases hr
  · cases hr
    exact ⟨cs, hcs, parse_text hparsed⟩

/-- What a round that gives up performs does not parse. -/
theorem not_parses_of_fixRound {language : Language} {s : FixState} {edits : List Edit} {fault : ParseFault}
    (h : fixRound language rules settings s edits = .ok (.discard fault)) :
    ∃ cs, Edit.applyAll s.parsed.text.chars.toList edits = .ok cs ∧ ¬ Parses language (.ofChars cs.toArray) := by
  obtain ⟨cs, p, hcs, hparsed, ⟨u, hu, hr⟩ | ⟨c, -, -, hr⟩⟩ := fixRound_cases h
  · refine ⟨cs, hcs, ?_⟩
    rintro ⟨q, hq, hfault⟩
    cases hparsed.symm.trans hq
    cases hu.symm.trans hfault
  · cases hr

/-- **A run ends before its rounds are used up** when the text does not weigh more than there are
rounds, by induction on the rounds: each leaves a lighter text for the others. -/
theorem fixFrom_settles (hrules : ∀ r ∈ rules, r ∈ allRules)
    (hunits : areSolid ((settings.rule .zeroUnit).options.units.map String.toList) = true) {path : String}
    {rounds : Nat} : ∀ {s : FixState} {o : FixOutcome}, s.Fresh .css rules settings →
      styleWeight s.parsed.text.chars ≤ rounds → fixFrom path .css rules settings rounds s = .ok o →
      o.ending ≠ .exhausted := by
  induction rounds with
  | zero =>
    intro s o hs hweight ho
    by_cases hne : s.selected = []
    · rw [fixFrom_settled hne] at ho
      cases ho
      exact nofun
    · obtain ⟨cs, hcs⟩ := applyAll_selectedEdits s.parsed.text s.checked
      have := selected_lighter hrules hunits hs hne hcs
      omega
  | succ rounds ih =>
    intro s o hs hweight ho
    by_cases hne : s.selected = []
    · rw [fixFrom_settled hne] at ho
      cases ho
      exact nofun
    cases hround : fixRound .css rules settings s s.selected with
    | error f =>
      rw [fixFrom_failed hne hround] at ho
      cases ho
    | ok result =>
      cases result with
      | discard fault =>
        rw [fixFrom_discard hne hround] at ho
        cases ho
        exact nofun
      | next s' =>
        obtain ⟨cs, hcs, htext⟩ := text_of_fixRound hround
        have hlighter := selected_lighter hrules hunits hs hne hcs
        rw [fixFrom_next hne hround] at ho
        cases hrest : fixFrom path .css rules settings rounds s' with
        | error f =>
          rw [hrest] at ho
          cases ho
        | ok o' =>
          rw [hrest] at ho
          cases ho
          show o'.ending ≠ .exhausted
          refine ih (fresh_of_fixRound hround) ?_ hrest
          rw [htext]
          exact Nat.le_of_lt_succ (Nat.lt_of_lt_of_le hlighter hweight)

/-! ### Runs -/

/-- Options that nothing is said about name units of letters that count. -/
theorem areSolid_default : areSolid ((schema .zeroUnit).default.units.map String.toList) = true := by
  decide +kernel

/-- The rules of the catalogue have settings. -/
theorem ofName?_allRules : ∀ r ∈ allRules, (RuleId.ofName? r.id).isSome := by
  intro r hr
  obtain ⟨id, hid, rfl⟩ := List.mem_map.1 hr
  rw [RuleId.rule_id, RuleId.ofName?, List.find?_isSome]
  exact ⟨id, hid, by simp⟩

/-- **How a run ends by itself**: no edit is left, or performing those that are left leads to a
text that does not parse. -/
inductive FixOutcome.EndsByItself (language : Language) (o : FixOutcome) : Prop
  | settled (ending : o.ending = .settled) (none : selectedEdits o.text o.checked = [])
  | discarded {fault : ParseFault} {cs : List Char} (ending : o.ending = .discarded fault)
      (result : Edit.applyAll o.text.chars.toList (selectedEdits o.text o.checked) = .ok cs)
      (fails : ¬ Parses language (.ofChars cs.toArray))

/-- A run that does not use up its rounds ends by itself. -/
theorem endsByItself_of_fixFrom {language : Language} {path : String} {s : FixState} {o : FixOutcome}
    (hs : s.Fresh language rules settings)
    (ho : fixFrom path language rules settings settings.maxFixIterations s = .ok o)
    (hend : o.ending ≠ .exhausted) : o.EndsByItself language := by
  obtain ⟨last, -, hrests, htext, hchecked⟩ := rests_of_fixFrom _ _ _ (Nat.le_refl _) hs ho hend
  have hselected : last.selected = selectedEdits o.text o.checked := by
    rw [← htext, ← hchecked]
    rfl
  generalize hending : o.ending = ending at hrests
  cases hrests with
  | settled hnone => exact .settled hending (by rw [← hselected, hnone])
  | discarded _ _ hround =>
    obtain ⟨cs, hcs, hfails⟩ := not_parses_of_fixRound hround
    rw [htext, hselected] at hcs
    exact .discarded hending hcs hfails

/-- **Fixing plain CSS never oscillates.** With all rules and their default options there is a
number of rounds, given by the text alone, from which on a run ends by itself. -/
theorem fixText_settles (t : Source) : ∃ bound, ∀ (path : String) (settings : Settings),
    (∀ id, (settings.rule id).options = (schema id).default) → bound ≤ settings.maxFixIterations →
      ∃ o, fixText path .css allRules settings t = .ok o ∧ o.EndsByItself .css := by
  refine ⟨styleWeight t.chars, fun path settings hoptions hbound => ?_⟩
  have hunits : areSolid ((settings.rule .zeroUnit).options.units.map String.toList) = true := by
    rw [hoptions]
    exact areSolid_default
  obtain ⟨p, hp⟩ := @parse_stylesheet .css t nofun
  obtain rfl := parse_text hp
  obtain ⟨c, hc⟩ := checkParsed_ok ofName?_allRules settings p
  have hkeeps : KeepsLines .css allRules settings p.text := fun _ _ _ => nofun
  obtain ⟨o, ho, -⟩ := @fixFrom_contract path _ _ _ _ ofName?_allRules hkeeps _ _ (.initial hp hc) (Nat.zero_add _)
  have hfresh : FixState.Fresh .css allRules settings
      { parsed := p, checked := c, iterations := 0, editsApplied := 0 } := ⟨hp, hc⟩
  have hends := endsByItself_of_fixFrom hfresh ho (fixFrom_settles (fun _ hr => hr) hunits hfresh hbound ho)
  refine ⟨o.after (firstLog path p c), by simp only [fixText, hp, hc, ho], ?_⟩
  cases hends with
  | settled ending none => exact .settled ending none
  | discarded ending result fails => exact .discarded ending result fails

/-- All fixable rules have something to mend here, some of it in one place. -/
theorem fixText_settles_crowded : ∃ n o, fixText "a.css" .css allRules { Settings.default with maxFixIterations := n }
    (.ofString "a,b\x7b c\x7b\x7d border:none;margin:0px\x7d") = .ok o ∧ o.EndsByItself .css := by
  obtain ⟨bound, h⟩ := fixText_settles (.ofString "a,b\x7b c\x7b\x7d border:none;margin:0px\x7d")
  obtain ⟨o, ho⟩ := h "a.css" { Settings.default with maxFixIterations := bound } (fun _ => rfl) (Nat.le_refl _)
  exact ⟨bound, o, ho⟩

end HouseStyle
