import HouseStyle.Fix.Edits
import HouseStyle.Proofs.Check.Independence
import HouseStyle.Proofs.Text.Lines

/-!
# What the rules of the catalogue report

* `Context.Tells`: a violation says what the description of the rule says.
* `tells_of_check`: so do all violations that a rule of the catalogue reports.
* `reportsOwn_rule`: a rule of the catalogue reports under its own identifier only.
* `Changes`: an edit ends in a text and does not write what stands there already.
* `edit?_of_changes`: a finding contributes what its rule offers if that changes the text.
* `Reported`: a finding that is about a text, not about a crash of its rule.
* `reported_of_run`, `Reported.fixable`: **what is marked as fixable is such a finding**, and its rule has a fix.
-/

namespace HouseStyle

variable {n : Node} {c : Context}

/-- A violation is named after the rule, and is fixable if the rule is; it tells where its span
begins and ends, and the line on which it begins. -/
structure Context.Tells (c : Context) (v : Violation) : Prop where
  rule : v.rule = c.info.id
  fixable : v.fixable = c.info.fixable
  location : v.location = c.text.location v.span
  line : v.line = some (c.text.lineText (c.text.lineOf v.span.start))

theorem violation_rule (c : Context) (span : Span) (message : String) :
    (c.violation span message).rule = c.info.id := rfl

theorem tells_violation (c : Context) (span : Span) (message : String) : c.Tells (c.violation span message) :=
  ⟨rfl, rfl, rfl, rfl⟩

/-- A check that does not crash reports under its own identifier if its violations do. -/
theorem reportsOwn_of_simpleCheck {r : Rule} {check : Node → Context → List Violation}
    (hcheck : r.check = Rule.simpleCheck check) (h : ∀ n c, ∀ v ∈ check n c, v.rule = c.info.id) :
    r.ReportsOwn := by
  intro n c m vs hc hvs v hv
  rw [hcheck] at hvs
  cases hvs
  rw [h n c v hv, hc]
  rfl

theorem BorderNone.tells_of_mem_check : ∀ v ∈ check n c, c.Tells v := by
  unfold check
  split
  · split <;> simp [tells_violation]
  · simp

theorem ImportGrouping.tells_of_mem_checkFrom (entries : List Entry) (highest previous : Option Entry) :
    ∀ v ∈ checkFrom c highest previous entries, c.Tells v := by
  induction entries generalizing highest previous with
  | nil => simp [checkFrom]
  | cons entry rest ih =>
    unfold checkFrom
    split
    · simpa [tells_violation] using ih _ _
    · simp only
      split
      · split
        · simpa [tells_violation] using ih _ _
        · exact ih _ _
      · exact ih _ _

theorem MetaPosition.tells_of_mem_check : ∀ v ∈ check n c, c.Tells v := by
  unfold check
  split
  · simp
  · split <;> simp [tells_violation]

theorem NamingConvention.tells_of_mem_checkName {what style : String} {isRight : String → Bool} :
    ∀ v ∈ checkName n c what style isRight, c.Tells v := by
  unfold checkName
  split
  · simp
  · split <;> simp [report, tells_violation]

theorem NamingConvention.tells_of_mem_check : ∀ v ∈ check n c, c.Tells v := by
  unfold check
  split
  · exact tells_of_mem_checkName
  · exact tells_of_mem_checkName
  · exact tells_of_mem_checkName
  · unfold checkTarget
    simp only
    split
    · simp
    · intro v hv
      obtain ⟨name, -, hname⟩ := List.mem_filterMap.1 hv
      split at hname
      · cases hname
      · cases hname
        exact tells_violation _ _ _

theorem NestingDepth.tells_of_mem_check : ∀ v ∈ check n c, c.Tells v := by
  unfold check
  split
  · simp only
    split <;> simp [tells_violation]
  · simp

theorem Quotes.tells_of_mem_check : ∀ v ∈ check n c, c.Tells v := by
  unfold check
  simp only
  split <;> simp [tells_violation]

theorem RelatedName.tells_of_mem_check : ∀ v ∈ check n c, c.Tells v := by
  unfold check
  split
  · simp only
    split <;> simp [tells_violation]
  · simp

theorem SelectorPerLine.tells_of_mem_check : ∀ v ∈ check n c, c.Tells v := by
  intro v hv
  obtain ⟨pair, -, hpair⟩ := List.mem_filterMap.1 hv
  simp only at hpair
  split at hpair
  · cases hpair
  · cases hpair
    exact tells_violation _ _ _

theorem ZeroLength.tells_of_mem_check : ∀ v ∈ check n c, c.Tells v := by
  intro v hv
  obtain ⟨s, -, rfl⟩ := List.mem_map.1 hv
  exact tells_violation _ _ _

theorem PropertyOrder.tells_of_mem_check {m : Memory} {vs : List Violation} (h : (check n c m).1 = .ok vs) :
    ∀ v ∈ vs, c.Tells v := by
  unfold check at h
  split at h
  · cases h
    exact List.forall_mem_nil _
  · simp only at h
    split at h
    · cases h
      exact List.forall_mem_singleton.2 (tells_violation _ _ _)
    · cases h
      exact List.forall_mem_nil _

/-- **What a rule of the catalogue reports says what the description of the rule says.** -/
theorem tells_of_check (id : RuleId) {m : Memory} {vs : List Violation} (h : (id.rule.check n c m).1 = .ok vs) :
    ∀ v ∈ vs, c.Tells v := by
  cases id with
  | propertyOrder => exact PropertyOrder.tells_of_mem_check h
  | bemClassName =>
    cases h
    beta_reduce
    split
    · split <;> simp [tells_violation]
    · simp
  | noExtend | noIdSelector =>
    cases h
    beta_reduce
    split <;> simp [tells_violation]
  | borderNone => cases h; exact BorderNone.tells_of_mem_check
  | nestingDepth => cases h; exact NestingDepth.tells_of_mem_check
  | selectorPerLine => cases h; exact SelectorPerLine.tells_of_mem_check
  | zeroUnit => cases h; exact ZeroLength.tells_of_mem_check
  | importGrouping => cases h; exact ImportGrouping.tells_of_mem_checkFrom _ _ _
  | modelMetaPosition => cases h; exact MetaPosition.tells_of_mem_check
  | namingConvention => cases h; exact NamingConvention.tells_of_mem_check
  | quoteStyle => cases h; exact Quotes.tells_of_mem_check
  | relatedNameRequired => cases h; exact RelatedName.tells_of_mem_check

/-- **A rule of the catalogue reports under its own identifier only.** -/
theorem reportsOwn_rule (id : RuleId) : id.rule.ReportsOwn := by
  intro n c m vs hc hvs v hv
  rw [(tells_of_check id hvs v hv).rule, hc]
  rfl

variable {t : Source} {e : Edit}

/-! ### Edits -/

/-- **An edit changes a text** when it ends there and writes something else than stands there. -/
structure Changes (t : Source) (e : Edit) : Prop where
  stop_le : e.span.stop ≤ t.size
  ne : t.sliceSpan e.span ≠ e.replacement

theorem Changes.of_chars (hstop : e.span.stop ≤ t.size)
    (hne : t.sliceChars e.span.start e.span.stop ≠ e.replacement.toList) : Changes t e :=
  ⟨hstop, fun heq => hne (by rw [← heq, Source.toList_sliceSpan])⟩

/-- What is offered to a finding is performed if it changes the text. -/
theorem edit?_of_changes {f : Finding} (h : f.offer = .ok (some e)) (hchanges : Changes t e) : f.edit? t = some e := by
  unfold Finding.edit?
  rw [h]
  exact if_pos ⟨hchanges.stop_le, hchanges.ne⟩

/-! ### Findings -/

/-- A rule reported a finding at a node, inside of the text. -/
structure Reported (r : Rule) (n : Node) (c : Context) (m : Memory) (f : Finding) : Prop where
  node : f.node = n
  applies : r.applies n = .ok true
  check : ∃ vs, (r.check n c m).1 = .ok vs ∧ f.violation ∈ vs
  inside : f.violation.span.stop ≤ c.text.size

/-- What is found about a crash is not fixable. -/
theorem reported_of_run {r : Rule} {n : Node} {c : Context} {m : Memory} {f : Finding} (hf : f ∈ (runRule r n c m).1)
    (hfixable : f.violation.fixable = true) : Reported r n c m f := by
  unfold runRule at hf
  split at hf
  · rw [List.mem_singleton.1 hf] at hfixable
    cases hfixable
  · cases hf
  · rename_i happlies
    split at hf
    · rw [List.mem_singleton.1 hf] at hfixable
      cases hfixable
    · rename_i hcheck
      obtain ⟨v, hv, rfl⟩ := List.mem_map.1 hf
      unfold findingOf at hfixable ⊢
      split
      · rw [if_pos ‹_›] at hfixable
        cases hfixable
      · exact ⟨rfl, happlies, ⟨_, congrArg Prod.fst hcheck, hv⟩, Nat.le_of_not_lt ‹_›⟩

/-- **A rule of the catalogue has a fix for what it calls fixable.** -/
theorem Reported.fixable {id : RuleId} {n : Node} {c : Context} {m : Memory} {f : Finding}
    (h : Reported id.rule n c m f) (hc : c.info = id.rule.info) (hfixable : f.violation.fixable = true) :
    id.rule.info.fixable = true := by
  obtain ⟨vs, hvs, hf⟩ := h.check
  rw [← hc, ← (tells_of_check id hvs _ hf).fixable]
  exact hfixable

end HouseStyle
