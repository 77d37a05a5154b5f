import HouseStyle.Files.Read
import HouseStyle.Proofs.Python.Standing
import HouseStyle.Proofs.Python.Trees
import HouseStyle.Proofs.Rule.ImportReports
import HouseStyle.Proofs.Rule.Inside
import HouseStyle.Proofs.Stylesheet.Names

/-!
# Messages of a report

A message is fixed words around numbers, names and texts of the file. Numbers and names stand on one line each,
so a line break in a message comes from a text that is quoted as it is written. `Cites` says which texts the
rules for stylesheets quote. The rules for modules name classes, functions, variables and modules, and nothing
else of a text.

* `Violation.Quotes`: a message is fixed words around a text.
* `Cites`: the texts that a rule quotes of a node.
* `says_of_check`: **what the rules for stylesheets say of a node** stands on one line or quotes such a text.
* `oneLine_of_check`: **what a rule for modules says stands on one line.**
* `runRule_cases`: a finding is what a check reports, or tells that it stands outside of the text.
* `ParseFault.oneLine_message`: what is said of a text without a tree stands on one line.
* `BreaksMessage`: a violation of a stylesheet quotes a text with a line break.
* `oneLine_message_iff`: **a message stands on one line, unless it quotes such a text.**
-/

namespace HouseStyle

variable {t : Source} {c : Context} {n : Node} {v : Violation}

/-! ### Messages -/

/-- The message of a violation is words of one line around a text. -/
structure Violation.Quotes (v : Violation) (text : String) : Prop where
  quoted : text.toList <:+: v.message.toList
  oneLine : OneLine text → OneLine v.message

theorem Violation.Quotes.of_eq (before text after : String) (h : v.message = before ++ text ++ after)
    (hbefore : OneLine before) (hafter : OneLine after) : v.Quotes text where
  quoted := ⟨before.toList, after.toList, by rw [h, String.toList_append, String.toList_append]⟩
  oneLine htext := h ▸ oneLine_append.2 ⟨oneLine_append.2 ⟨hbefore, htext⟩, hafter⟩

/-! ### Quoted texts -/

/-- The texts of a node that a rule quotes as they are written: a selector, the selectors of a block, the name of
a property, what follows `@extend`, or a zero length with its unit. -/
inductive Cites (options : (id : RuleId) → Options id) (t : Source) (n : Node) : RuleId → String → Prop
  | selector {text : String} (label : n.label = .style (.selector text)) : Cites options t n .selectorPerLine text
  | nested {text : String} (label : n.label = .style (.rule text)) : Cites options t n .nestingDepth text
  | block {text : String} (label : n.label = .style (.rule text)) : Cites options t n .propertyOrder text
  | property {text value : String} {important : Bool} (label : n.label = .style (.declaration text value important)) :
      Cites options t n .propertyOrder text
  | border {text value : String} {important : Bool} (label : n.label = .style (.declaration text value important))
      (listed : text ∈ (options .borderNone).properties) : Cites options t n .borderNone text
  | extended {text : String} {mixin : Option String} {hasBlock : Bool}
      (label : n.label = .style (.atRule "extend" text mixin hasBlock)) : Cites options t n .noExtend text
  | zero {m : Node} {value : List Char} {i j : Nat} (hasValue : valueOf? n = some (m, value))
      (found : (i, j) ∈ ZeroLength.spans (options .zeroUnit) value) :
      Cites options t n .zeroUnit (t.sliceSpan (.between (m.span.start + i) (m.span.start + j)))

/-- What a rule says of a node stands on one line, or quotes a text of the node or of one right below it. -/
def Says (c : Context) (n : Node) (id : RuleId) (v : Violation) : Prop :=
  OneLine v.message ∨ ∃ m ∈ n :: n.children, ∃ text, Cites c.options c.text m id text ∧ v.Quotes text

theorem says_of_cites {id : RuleId} {m : Node} {text : String} (hm : m ∈ n :: n.children)
    (h : Cites c.options c.text m id text) (hquotes : v.Quotes text) : Says c n id v :=
  .inr ⟨m, hm, text, h, hquotes⟩

theorem SelectorPerLine.says_of_mem_check : ∀ v ∈ check n c, Says c n .selectorPerLine v := by
  intro v hv
  obtain ⟨⟨a, b⟩, hab, hv⟩ := List.mem_filterMap.1 hv
  have hb : b ∈ n.children := List.mem_of_mem_tail (List.of_mem_zip hab).2
  simp only at hv
  split at hv <;> cases hv
  have hquotes : (c.violation b.span s!"Selector '{textOf b}' should start on its own line").Quotes (textOf b) :=
    .of_eq "Selector '" _ "' should start on its own line" rfl (by decide) (by decide)
  have htext : OneLine (textOf b) ∨ b.label = .style (.selector (textOf b)) := by
    unfold textOf
    split
    · exact .inr ‹_›
    · exact .inl (by decide)
  exact htext.imp hquotes.oneLine fun hlabel => ⟨b, List.mem_cons_of_mem _ hb, _, .selector hlabel, hquotes⟩

theorem NestingDepth.says_of_mem_check : ∀ v ∈ check n c, Says c n .nestingDepth v := by
  unfold check
  split
  · rename_i selector hlabel
    simp only
    split
    · exact List.forall_mem_nil _
    · refine List.forall_mem_singleton.2 (says_of_cites List.mem_cons_self (.nested hlabel) ?_)
      refine .of_eq "Selector '" _ s!"' is nested {level (c.options .nestingDepth) c.scope} levels deep (maximum {
        (c.options .nestingDepth).maxDepth})" ?_ (by decide) ?_
      · simp only [Context.violation, String.append_assoc]
        rfl
      · simp only [oneLine_append, oneLine_toString, oneLine_nat, oneLine_int]
        decide
  · exact List.forall_mem_nil _

theorem BorderNone.says_of_mem_check : ∀ v ∈ check n c, Says c n .borderNone v := by
  unfold check
  split
  · rename_i property value important _ _ hlabel _
    split
    · rename_i hlisted
      rw [Bool.and_eq_true, List.contains_iff_mem] at hlisted
      exact List.forall_mem_singleton.2 (says_of_cites List.mem_cons_self (.border hlabel hlisted.1)
        (.of_eq "Use '" _ ": 0' instead of 'none'" rfl (by decide) (by decide)))
    · exact List.forall_mem_nil _
  · exact List.forall_mem_nil _

theorem ZeroLength.says_of_mem_check : ∀ v ∈ check n c, Says c n .zeroUnit v := by
  intro v hv
  obtain ⟨s, hs, rfl⟩ := List.mem_map.1 hv
  unfold spansOf at hs
  split at hs
  · cases hs
  · rename_i m value hvalue
    obtain ⟨⟨i, j⟩, hij, rfl⟩ := List.mem_map.1 hs
    exact says_of_cites List.mem_cons_self (.zero hvalue hij)
      (.of_eq "Zero value '" _ "' should not carry a unit" rfl (by decide) (by decide))

/-- What a message calls a group of children stands on one line. -/
theorem PropertyOrder.oneLine_plural (b : Bucket) : OneLine b.plural := by
  cases b <;> decide

/-- A child of a block is called by a name, or by a text between quotes. -/
theorem PropertyOrder.describe_cases (hn : Stylesheet.Named n) : OneLine (describe n) ∨
    ∃ before text after, OneLine before ∧ OneLine after ∧ describe n = before ++ text ++ after ∧
      Cites c.options c.text n .propertyOrder text := by
  unfold describe
  split
  · exact .inr ⟨"Declaration '", _, "'", by decide, by decide, rfl, .property ‹_›⟩
  · exact .inr ⟨"Nested block '", _, "'", by decide, by decide, rfl, .block ‹_›⟩
  · exact .inl (oneLine_append.2 ⟨by decide, Stylesheet.oneLine_of_named_atRule hn ‹_›⟩)
  · exact .inl (by decide)

theorem PropertyOrder.says_of_mem_check (hn : Stylesheet.Named n) {m : Memory} {vs : List Violation}
    (h : (check n c m).1 = .ok vs) : ∀ v ∈ vs, Says c n .propertyOrder v := by
  unfold check at h
  split at h
  · cases h
    exact List.forall_mem_nil _
  simp only at h
  split at h <;> cases h
  · generalize Bucket.ofRank _ = highest
    refine List.forall_mem_singleton.2 ?_
    have hrest : OneLine (" should come before " ++ highest.plural) :=
      oneLine_append.2 ⟨by decide, oneLine_plural highest⟩
    have hmessage : (c.violation n.span s!"{describe n} should come before {highest.plural}").message =
        describe n ++ (" should come before " ++ highest.plural) := String.append_assoc
    rcases describe_cases hn with hfixed | ⟨before, text, after, hbefore, hafter, hdescribe, hcites⟩
    · exact .inl (hmessage ▸ oneLine_append.2 ⟨hfixed, hrest⟩)
    · refine says_of_cites List.mem_cons_self hcites (.of_eq before _
        (after ++ (" should come before " ++ highest.plural)) ?_ hbefore (oneLine_append.2 ⟨hafter, hrest⟩))
      rw [hmessage, hdescribe]
      simp only [String.append_assoc]
  · exact List.forall_mem_nil _

/-- **What the rules for stylesheets say of a node.** -/
theorem says_of_check {id : RuleId} {language : Language} (hlanguage : language ≠ .python)
    (hfor : id.rule.info.languages.contains language = true) (hn : Stylesheet.Named n)
    (happlies : id.rule.applies n = .ok true) {m : Memory} {vs : List Violation}
    (h : (id.rule.check n c m).1 = .ok vs) : ∀ v ∈ vs, Says c n id v := by
  cases id with
  | bemClassName =>
    cases h
    beta_reduce
    split
    · split
      · exact List.forall_mem_nil _
      · refine List.forall_mem_singleton.2 (.inl (oneLine_append.2 ⟨oneLine_append.2 ⟨by decide, ?_⟩, by decide⟩))
        exact Stylesheet.oneLine_of_named hn (.inr ‹_›)
    · exact List.forall_mem_nil _
  | noIdSelector =>
    cases h
    beta_reduce
    split
    · refine List.forall_mem_singleton.2 (.inl (oneLine_append.2 ⟨oneLine_append.2 ⟨by decide, ?_⟩, by decide⟩))
      exact Stylesheet.oneLine_of_named hn (.inl ‹_›)
    · exact List.forall_mem_nil _
  | noExtend =>
    cases h
    beta_reduce
    split
    · rename_i name prelude mixin hasBlock hlabel
      obtain rfl : name = "extend" := by
        have hname := Except.ok.inj happlies
        rw [hlabel] at hname
        exact beq_iff_eq.1 hname
      exact List.forall_mem_singleton.2 (says_of_cites List.mem_cons_self (.extended hlabel)
        (.of_eq "@extend " _ " is not allowed; use a mixin" rfl (by decide) (by decide)))
    · exact List.forall_mem_nil _
  | borderNone => cases h; exact BorderNone.says_of_mem_check
  | nestingDepth => cases h; exact NestingDepth.says_of_mem_check
  | selectorPerLine => cases h; exact SelectorPerLine.says_of_mem_check
  | zeroUnit => cases h; exact ZeroLength.says_of_mem_check
  | propertyOrder => exact PropertyOrder.says_of_mem_check hn h
  | importGrouping | modelMetaPosition | namingConvention | quoteStyle | relatedNameRequired =>
    exact absurd (eq_python_of_contains rfl hfor) hlanguage

open Node (walk walkList)
open Python (Named)

/-! ### Imports -/

namespace ImportGrouping

variable {t : Source} {o : ImportGroupingOptions}

/-- An import that decides the place of a statement stands in it. -/
theorem Decides.mem_walk {first : Node} {group : Group} (h : Decides o n first group) : first ∈ walk n := by
  have hline {line : Node} (h : ImportLine line first) : first ∈ walk line := by
    obtain ⟨rest, hchildren⟩ := h.children
    exact Node.mem_walk_of_child (hchildren ▸ List.mem_cons_self)
  cases h with
  | line line => exact hline line
  | @guarded block line more shape body children head lines =>
    have hblock : block ∈ walk n := Node.mem_walk_of_child (List.mem_of_find?_eq_some body)
    have hmem : line ∈ walk block := Node.mem_walk_of_child (children ▸ List.mem_cons_self)
    exact Node.mem_walk_trans (hline head) _ (Node.mem_walk_trans hmem _ hblock)

theorem oneLine_dots (level : Nat) : OneLine ("".pushn '.' level) := by
  induction level with
  | zero => decide
  | succ level ih =>
    change OneLine (("".pushn '.' level).push '.')
    simpa [OneLine] using ih

theorem oneLine_importPath (h : Named n) : OneLine (importPath n) := by
  unfold importPath
  split
  · rename_i hlabel
    exact oneLine_append.2 ⟨oneLine_dots _, h _ hlabel _ List.mem_cons_self⟩
  · rename_i names hlabel
    cases names with
    | nil => decide
    | cons name rest => exact h _ hlabel _ List.mem_cons_self
  · decide

/-- The paths of the entries stand on one line. -/
theorem oneLine_path (h : ∀ x ∈ walk n, Named x) : ∀ e ∈ entries t o n, OneLine e.path := by
  intro e he
  obtain ⟨⟨after, hbody, -⟩, hdescribed⟩ := entries_block (t := t) (o := o) n
  obtain ⟨first, hdecides, hpath, -⟩ := (hdescribed e he).place
  have hmem : e.node ∈ body n := by
    rw [hbody]
    exact List.mem_append_left _ (List.mem_map_of_mem he)
  have hchild : e.node ∈ n.children := by
    unfold body at hmem
    split at hmem
    · exact List.mem_of_mem_tail hmem
    · exact hmem
  rw [hpath]
  exact oneLine_importPath (h first (Node.mem_walk_trans hdecides.mem_walk _ (Node.mem_walk_of_child hchild)))

theorem oneLine_label (g : Group) : OneLine g.label := by
  cases g <;> decide

theorem oneLine_title (g : Group) : OneLine g.title := by
  cases g <;> decide

theorem oneLine_orderMessage {e top : Entry} (he : OneLine e.path) (htop : OneLine top.path) :
    OneLine (orderMessage e top) := by
  unfold orderMessage
  split
  · simp only [oneLine_append, oneLine_toString, oneLine_title, oneLine_label, he]
    decide +kernel
  · simp only [oneLine_append, oneLine_toString, oneLine_label, he, htop]
    decide +kernel

theorem oneLine_separatorMessage (above e : Entry) : OneLine (separatorMessage above e) := by
  unfold separatorMessage
  simp only [oneLine_append, oneLine_toString, oneLine_label]
  decide +kernel

/-- Each message of the check is about entries of the block. -/
theorem oneLine_of_mem_checkFrom {es : List Entry} {highest previous : Option Entry}
    (hes : ∀ e ∈ es, OneLine e.path) (hhighest : ∀ e ∈ highest, OneLine e.path) :
    ∀ v ∈ checkFrom c highest previous es, OneLine v.message := by
  induction es generalizing highest previous with
  | nil => exact List.forall_mem_nil _
  | cons entry rest ih =>
    obtain ⟨hentry, hrest⟩ := List.forall_mem_cons.1 hes
    have hself : ∀ e ∈ some entry, OneLine e.path := by
      rintro _ ⟨⟩
      exact hentry
    unfold checkFrom
    split
    · rename_i top htop
      refine List.forall_mem_cons.2 ⟨oneLine_orderMessage hentry ?_, ih hrest hhighest⟩
      exact hhighest top (Option.filter_eq_some_iff.1 htop).1
    · simp only
      split
      · split
        · exact List.forall_mem_cons.2 ⟨oneLine_separatorMessage _ _, ih hrest hself⟩
        · exact ih hrest hself
      · exact ih hrest hself

theorem oneLine_of_mem_check (h : ∀ x ∈ walk n, Named x) : ∀ v ∈ check n c, OneLine v.message :=
  oneLine_of_mem_checkFrom (oneLine_path h) (by rintro _ ⟨⟩)

end ImportGrouping

/-! ### The options class -/

namespace MetaPosition

theorem oneLine_of_className? (h : Named n) {name : String} (hname : className? n = some name) : OneLine name := by
  unfold className? at hname
  split at hname <;> cases hname
  exact h _ ‹_› _ List.mem_cons_self

/-- The options class that is named stands in the class. -/
theorem oneLine_metaName {t : Source} {o : ModelMetaOptions} (h : ∀ x ∈ walk n, Named x) {l : Layout}
    (hl : layout? t o n = some l) : OneLine l.metaName := by
  unfold layout? at hl
  split at hl
  · cases hl
  · rename_i body hbody
    split at hl
    · split at hl
      · rename_i i j hi hj optionsClass lastField hoptions hlast
        cases hl
        have hmem : optionsClass ∈ walk n :=
          Node.mem_walk_trans (Node.mem_walk_of_child (List.mem_of_getElem? hoptions)) _
            (Node.mem_walk_of_child (List.mem_of_find?_eq_some hbody))
        change OneLine ((className? optionsClass).getD "Meta")
        cases hname : className? optionsClass with
        | none => decide
        | some name => exact oneLine_of_className? (h _ hmem) hname
      · cases hl
    · cases hl

theorem oneLine_of_mem_check (h : ∀ x ∈ walk n, Named x) : ∀ v ∈ check n c, OneLine v.message := by
  unfold check
  split
  · exact List.forall_mem_nil _
  · rename_i l hl
    have hname := oneLine_metaName h hl
    split
    · exact List.forall_mem_nil _
    · rename_i message hproblem
      refine List.forall_mem_singleton.2 ?_
      change OneLine message
      unfold problem? at hproblem
      split at hproblem
      · cases hproblem
        simp only [oneLine_append, oneLine_toString, hname]
        decide
      · split at hproblem <;> cases hproblem
        simp only [oneLine_append, oneLine_toString, hname]
        decide

end MetaPosition

/-! ### Names of definitions -/

namespace NamingConvention

mutual

/-- The names that an assignment binds are names of its target. -/
theorem oneLine_boundNames (n : Node) (h : ∀ x ∈ walk n, Named x) : ∀ name ∈ boundNames n, OneLine name.1 := by
  cases n with
  | mk label span children =>
    rw [walk, List.forall_mem_cons] at h
    unfold boundNames
    split
    · exact List.forall_mem_singleton.2 (h.1 _ rfl _ List.mem_cons_self)
    all_goals first | exact oneLine_boundNamesOf children h.2 | exact List.forall_mem_nil _

theorem oneLine_boundNamesOf (ns : List Node) (h : ∀ x ∈ walkList ns, Named x) :
    ∀ name ∈ boundNamesOf ns, OneLine name.1 := by
  cases ns with
  | nil => exact List.forall_mem_nil _
  | cons n rest =>
    rw [walkList, List.forall_mem_append] at h
    rw [boundNamesOf, List.forall_mem_append]
    exact ⟨oneLine_boundNames n h.1, oneLine_boundNamesOf rest h.2⟩

end

theorem oneLine_report {name : String × Span} {what style : String} (hname : OneLine name.1) (hwhat : OneLine what)
    (hstyle : OneLine style) : OneLine (report c name what style).message := by
  change OneLine (s!"{what} name '{name.1}' should be {style}")
  simp only [oneLine_append, oneLine_toString, hname, hwhat, hstyle]
  decide

theorem oneLine_of_mem_checkName (h : ∀ x ∈ walk n, Named x) {what style : String} {isRight : String → Bool}
    (hwhat : OneLine what) (hstyle : OneLine style) :
    ∀ v ∈ checkName n c what style isRight, OneLine v.message := by
  unfold checkName
  split
  · exact List.forall_mem_nil _
  · rename_i name hname
    split
    · exact List.forall_mem_nil _
    · refine List.forall_mem_singleton.2 (oneLine_report ?_ hwhat hstyle)
      obtain ⟨child, hchild, hsome⟩ := List.exists_of_findSome?_eq_some hname
      split at hsome <;> cases hsome
      exact h child (Node.mem_walk_of_child hchild) _ ‹_› _ List.mem_cons_self

theorem oneLine_of_mem_check (h : ∀ x ∈ walk n, Named x) : ∀ v ∈ check n c, OneLine v.message := by
  unfold check
  split
  · exact oneLine_of_mem_checkName h (by decide) (by decide)
  · exact oneLine_of_mem_checkName h (by decide) (by decide)
  · exact oneLine_of_mem_checkName h (by decide) (by decide)
  · unfold checkTarget
    simp only
    split
    · exact List.forall_mem_nil _
    · rename_i target rest hchildren
      intro v hv
      obtain ⟨name, hname, hv⟩ := List.mem_filterMap.1 hv
      split at hv <;> cases hv
      have htarget : target ∈ walk n := Node.mem_walk_of_child (hchildren ▸ List.mem_cons_self)
      refine oneLine_report (oneLine_boundNames target (fun x hx => h x ?_) name hname) (by decide) (by decide)
      exact Node.mem_walk_trans hx _ htarget

end NamingConvention

/-! ### Relation fields -/

/-- The last component of a name is a part of it. -/
theorem RelatedName.oneLine_lastName {dotted : String} (h : OneLine dotted) : OneLine (lastName dotted) := by
  rw [lastName, oneLine_ofList, List.mem_reverse]
  exact fun hmem => h (List.mem_reverse.1 ((List.takeWhile_prefix _).subset hmem))

theorem RelatedName.oneLine_of_mem_check (h : Named n) : ∀ v ∈ check n c, OneLine v.message := by
  unfold check
  split
  · rename_i func keywords hlabel
    simp only
    split
    · refine List.forall_mem_singleton.2 (oneLine_append.2 ⟨oneLine_lastName (h _ hlabel _ ?_), by decide⟩)
      exact List.mem_cons_self
    · exact List.forall_mem_nil _
  · exact List.forall_mem_nil _

/-! ### All rules -/

/-- **What a rule for modules says stands on one line**, where the names below the node do. -/
theorem oneLine_of_check {id : RuleId} (hfor : id.rule.info.languages.contains .python = true)
    (h : ∀ x ∈ walk n, Named x) {m : Memory} {vs : List Violation} (hvs : (id.rule.check n c m).1 = .ok vs) :
    ∀ v ∈ vs, OneLine v.message := by
  cases id with
  | importGrouping => cases hvs; exact ImportGrouping.oneLine_of_mem_check h
  | modelMetaPosition => cases hvs; exact MetaPosition.oneLine_of_mem_check h
  | namingConvention => cases hvs; exact NamingConvention.oneLine_of_mem_check h
  | quoteStyle =>
    cases hvs
    unfold Quotes.check
    simp only
    split
    · exact List.forall_mem_nil _
    · refine List.forall_mem_singleton.2 (oneLine_append.2 ⟨oneLine_append.2 ⟨by decide, ?_⟩, by decide⟩)
      cases (c.options .quoteStyle).preferred <;> decide
  | relatedNameRequired => cases hvs; exact RelatedName.oneLine_of_mem_check (h n (Node.mem_walk_self n))
  | bemClassName | borderNone | nestingDepth | noExtend | noIdSelector | propertyOrder | selectorPerLine | zeroUnit =>
    exact absurd hfor (by decide)

variable {settings : Settings} {p : Parsed}

/-! ### Findings -/

theorem RuleId.oneLine_name (id : RuleId) : OneLine id.name := by
  cases id <;> decide

/-- **A finding at a node** is what the check of the rule reports there, or tells that it stands outside of the
text. -/
theorem runRule_cases {id : RuleId} {m : Memory} {f : Finding} (hf : f ∈ (runRule id.rule n c m).1) :
    id.rule.applies n = .ok true ∧ ∃ vs, (id.rule.check n c m).1 = .ok vs ∧
      (f.violation ∈ vs ∨
        f.violation.rule = ruleCrashId ∧ ∃ v ∈ vs, f.violation.message = outsideMessage id.rule v.span) := by
  obtain ⟨vs, hvs⟩ := exists_check id n c m
  obtain ⟨b, happlies⟩ := exists_applies id n
  unfold runRule at hf
  rw [happlies] at hf
  cases b with
  | false => cases hf
  | true =>
    refine ⟨happlies, vs, hvs, ?_⟩
    rcases h : id.rule.check n c m with ⟨result, memory⟩
    rw [h] at hf hvs
    cases hvs
    obtain ⟨v, hv, rfl⟩ := List.mem_map.1 hf
    unfold findingOf
    split
    · exact .inr ⟨rfl, v, hv, rfl⟩
    · exact .inl hv

theorem oneLine_outsideMessage (id : RuleId) (s : Span) : OneLine (outsideMessage id.rule s) := by
  unfold outsideMessage
  rw [RuleId.rule_id]
  simp only [oneLine_append, oneLine_toString, oneLine_nat, id.oneLine_name]
  decide +kernel

/-! ### Texts without a tree -/

theorem oneLine_decodeMessage (e : Utf8.DecodeError) : OneLine e.message := by
  have hfault : OneLine e.fault.message := by
    cases e.fault <;> decide
  unfold Utf8.DecodeError.message
  dsimp only
  split
  · simp only [oneLine_append, oneLine_toString, oneLine_nat, oneLine_ofList, hfault, notMem_hex, not_false_eq_true]
    decide +kernel
  · simp only [oneLine_append, oneLine_toString, oneLine_nat, hfault]
    decide +kernel

/-- What is said of a text without a tree stands on one line. -/
theorem ParseFault.oneLine_message (fault : ParseFault) : OneLine fault.message := by
  cases fault with
  | undecodable e => exact oneLine_append.2 ⟨by decide, oneLine_decodeMessage e⟩
  | unreadable path reason =>
    refine oneLine_append.2 ⟨by decide, ?_⟩
    cases reason <;> exact oneLine_append.2 ⟨by decide, oneLine_quoted path⟩
  | _ => decide

/-! ### Reports -/

/-- A finding in a tree is what the check of a rule for the language reports at a node, or tells in one line that
a rule crashed. -/
theorem reported_of_matchTree {tree : Node} (htree : p.tree? = some tree) {found : List Finding}
    (h : matchTree p (enabledRules settings) settings = .ok found) {f : Finding} (hf : f ∈ found) :
    (f.violation.rule = ruleCrashId ∧ OneLine f.violation.message) ∨
      ∃ (id : RuleId) (scope : Scope) (m : Memory) (vs : List Violation),
        id.rule.info.languages.contains p.language = true ∧
        f.node ∈ walk tree ∧ id.rule.applies f.node = .ok true ∧
        (id.rule.check f.node (contextFor p.text settings scope id.rule) m).1 = .ok vs ∧ f.violation ∈ vs := by
  obtain ⟨hrule, hfor, -, hnode, ⟨scope, hcontext⟩, m, hrun⟩ := visit_of_matchTree htree h f hf
  obtain ⟨id, -, hid⟩ := List.mem_map.1 hrule
  rw [hcontext] at hrun
  rw [← hid] at hfor hrun
  obtain ⟨happlies, vs, hvs, hv | ⟨hcrash, v, -, houtside⟩⟩ := runRule_cases hrun
  · exact .inr ⟨id, scope, m, vs, hfor, hnode, happlies, hvs, hv⟩
  · exact .inl ⟨hcrash, houtside ▸ oneLine_outsideMessage id v.span⟩

/-- The rule of a violation is named on one line. -/
theorem oneLine_rule {checked : Checked} (h : checkParsed p (enabledRules settings) settings = .ok checked)
    {v : Violation} (hv : v ∈ checked.report.violations) : OneLine v.rule := by
  cases hfault : p.fault? with
  | some u =>
    rw [checkParsed, hfault] at h
    cases h
    rw [List.mem_singleton.1 hv]
    exact (by decide : OneLine parseErrorId)
  | none =>
    obtain ⟨tree, htree⟩ := exists_tree hfault
    obtain ⟨found, hfound, f, hf, hsettled⟩ := exists_finding hfault h hv
    have hrule : OneLine f.violation.rule := by
      obtain ⟨hcrash, -⟩ | ⟨id, scope, m, vs, -, -, -, hvs, hmem⟩ := reported_of_matchTree htree hfound hf
      · rw [hcrash]
        decide
      · rw [(tells_of_check id hvs _ hmem).rule.trans id.rule_id]
        exact id.oneLine_name
    cases hsettled <;> exact hrule

/-- The tree of a module is what its text is parsed to. -/
theorem python_of_tree {t : Source} (hp : parse .python t = .ok p) {tree : Node} (htree : p.tree? = some tree) :
    Python.parse t = .ok tree := by
  simp only [parse, parseModule] at hp
  split at hp <;> cases hp
  · cases htree
    assumption
  · cases htree

/-- **A finding in a module** stands on one line. -/
theorem oneLine_of_module {t : Source} (hp : parse .python t = .ok p) {tree : Node} (htree : p.tree? = some tree)
    {found : List Finding} (h : matchTree p (enabledRules settings) settings = .ok found) {f : Finding}
    (hf : f ∈ found) : OneLine f.violation.message := by
  obtain ⟨-, hline⟩ | ⟨id, scope, m, vs, hfor, hnode, -, hvs, hv⟩ := reported_of_matchTree htree h hf
  · exact hline
  · rw [parse_language hp] at hfor
    refine oneLine_of_check hfor (fun x hx => Python.parse_named (python_of_tree hp htree) x ?_) hvs _ hv
    exact Node.mem_walk_trans hx _ hnode

/-- A violation of a stylesheet quotes a text with a line break. -/
def BreaksMessage (p : Parsed) (settings : Settings) (v : Violation) : Prop :=
  p.language ≠ .python ∧ ∃ tree, p.tree? = some tree ∧ ∃ n ∈ walk tree, ∃ id text, v.rule = id.name ∧
    Cites (fun id => (settings.rule id).options) p.text n id text ∧ ¬ OneLine text ∧
      text.toList <:+: v.message.toList

/-- **A finding in a stylesheet** stands on one line, or quotes a text with a line break. -/
theorem breaks_of_stylesheet {language : Language} {t : Source} (hlanguage : language ≠ .python)
    (hp : parse language t = .ok p) {tree : Node} (htree : p.tree? = some tree) {found : List Finding}
    (h : matchTree p (enabledRules settings) settings = .ok found) {f : Finding} (hf : f ∈ found)
    (hline : ¬ OneLine f.violation.message) : BreaksMessage p settings f.violation := by
  obtain ⟨id, scope, m, vs, hfor, hnode, happlies, hvs, hv⟩ :=
    (reported_of_matchTree htree h hf).resolve_left fun hcrash => hline hcrash.2
  obtain ⟨d, hd⟩ := exists_dialect hlanguage
  obtain rfl : parseStylesheet language d t = p := Except.ok.inj ((hd t).symm.trans hp)
  have hparse := parseStylesheet_tree.1 htree
  rw [parseStylesheet_language] at hfor
  have hsays := says_of_check hlanguage hfor (Stylesheet.named_of_parse hparse hnode) happlies hvs _ hv
  obtain ⟨n, hn, text, hcites, hquotes⟩ := hsays.resolve_left hline
  refine ⟨?_, tree, htree, n, ?_, id, text, ?_, hcites, fun htext => hline (hquotes.oneLine htext),
    hquotes.quoted⟩
  · rwa [parseStylesheet_language]
  · rcases List.mem_cons.1 hn with rfl | hn
    · exact hnode
    · exact Node.mem_walk_trans (Node.mem_walk_of_child hn) _ hnode
  · exact (tells_of_check id hvs _ hv).rule.trans id.rule_id

/-- A text that was parsed, or a file whose text is not available. -/
def IsParsed (p : Parsed) : Prop :=
  (∃ language t, parse language t = .ok p) ∨ ∃ language fault, p = unreadFile language fault

/-- **A message stands on one line, unless it quotes a text of a stylesheet that does not.** -/
theorem oneLine_message_iff (hp : IsParsed p) {checked : Checked}
    (h : checkParsed p (enabledRules settings) settings = .ok checked) {v : Violation}
    (hv : v ∈ checked.report.violations) : OneLine v.message ↔ ¬ BreaksMessage p settings v := by
  constructor
  · rintro hline ⟨-, _, _, _, _, _, text, _, _, hbreaks, hquoted⟩
    exact hbreaks (oneLine_of_isInfix hquoted hline)
  intro hquiet
  by_contra hline
  apply hquiet
  cases hfault : p.fault? with
  | some u =>
    -- a text without a tree is reported with its fault alone
    rw [checkParsed, hfault] at h
    cases h
    rw [List.mem_singleton.1 hv] at hline
    exact absurd u.fault.oneLine_message hline
  | none =>
    obtain ⟨tree, htree⟩ := exists_tree hfault
    obtain ⟨found, hfound, f, hf, hsettled⟩ := exists_finding hfault h hv
    have hbreaks (hline : ¬ OneLine f.violation.message) : BreaksMessage p settings f.violation := by
      rcases hp with ⟨language, t, hp⟩ | ⟨language, fault, rfl⟩
      · by_cases hlanguage : language = .python
        · subst hlanguage
          exact absurd (oneLine_of_module hp htree hfound hf) hline
        · exact breaks_of_stylesheet hlanguage hp htree hfound hf hline
      · cases htree
    cases hsettled with
    | own => exact hbreaks hline
    | rule => exact hbreaks hline

end HouseStyle
