import HouseStyle.Proofs.Fix.Again
import HouseStyle.Proofs.Fix.Leftovers
import HouseStyle.Proofs.Rule.LineBreaks
import HouseStyle.Proofs.Rule.QuoteBreaks
import HouseStyle.Proofs.Rule.StyleBreaks

/-!
# Line endings survive fixing

What the rules put in the place of a part of a text has whole line breaks if the text has, so a run of the rules
of the catalogue leads to texts with whole line breaks only. A carriage return that stands alone in a literal is
the exception: the place of a literal is told by its line, which the grammar counts at carriage returns as well.

* `WholeBreaks`, `unitsOnLines`: what a text and the settings have to satisfy.
* `FoundIn.keeps`, `FoundIn.not_mem`: one edit.
* `Tried.wholeBreaks`, `Tried.not_mem`: all texts that a run tries.
* `fixText_keepsEndings`: **a whole run.**
* `fixText_loses_return`: a literal is put in the place of the end of another line.
-/

namespace HouseStyle

variable {rules : List Rule} {settings : Settings} {t u : Source} {path : String} {language : Language}

/-! ### What the rules offer -/

/-- **Line breaks that are whole**: each line feed of the text stands after a carriage return, and in a module no
carriage return stands alone. -/
structure WholeBreaks (language : Language) (t : Source) : Prop where
  ends : endsWithReturns t = true
  paired : language = .python → returnsPaired t.chars.toList = true

/-- The units of lengths hold no line breaks. -/
def unitsOnLines (settings : Settings) : Bool :=
  ((settings.rule .zeroUnit).options.units.map String.toList).all (avoids ['\r', '\n'])

variable {tree : Node} {f : Finding} {e : Edit}

/-- **Whatever a rule of the catalogue offers keeps line breaks whole.** -/
theorem FoundIn.keeps (h : FoundIn language settings t tree f) (hunits : unitsOnLines settings = true)
    (hwhole : WholeBreaks language t) (hoffer : f.offer = .ok (some e)) :
    e.KeepsFeeds t ∧ (language = .python → e.KeepsReturns t) := by
  obtain ⟨id, hid⟩ := h.catalogue
  have hruns := h.runs
  have happlies := h.applies
  have hfeeds := (endsWithReturns_iff.1 hwhole.ends).2
  have hcomes : language = .python → Python.Comes f.context.text f.node :=
    fun hpython => h.comes hpython (hwhole.paired hpython) f.node h.node
  obtain ⟨hends, hpaired⟩ := hwhole
  rw [Finding.offer] at hoffer
  rw [← hid] at hruns happlies hoffer
  rw [← h.text] at hends hpaired hfeeds ⊢
  have hstyle (hother : language ≠ .python) (hkeeps : e.KeepsFeeds f.context.text) :
      e.KeepsFeeds f.context.text ∧ (language = .python → e.KeepsReturns f.context.text) :=
    ⟨hkeeps, fun hpython => absurd hpython hother⟩
  have hlines (hpython : language = .python) (hedit : LineEdit f.context.text e) :
      e.KeepsFeeds f.context.text ∧ (language = .python → e.KeepsReturns f.context.text) :=
    ⟨hedit.keepsFeeds hends (hpaired hpython), fun _ => hedit.keepsReturns hends (hpaired hpython)⟩
  cases id with
  | bemClassName | nestingDepth | noExtend | noIdSelector | namingConvention | relatedNameRequired => cases hoffer
  | borderNone =>
    have hother : language ≠ .python := by rintro rfl; cases hruns
    obtain ⟨d, hparse⟩ := h.style hother
    have hd : isDeclaration f.node = true := by simpa [RuleId.rule, borderNone] using happlies
    obtain ⟨v, text, a, k, hedit⟩ := @BorderNone.valueEdit_of_fix f.node ['\r', '\n'] (by decide) _ _ (Except.ok.inj hoffer)
    exact hstyle hother (keepsFeeds_of_valueEdit hparse h.node hd hedit)
  | zeroUnit =>
    have hother : language ≠ .python := by rintro rfl; cases hruns
    obtain ⟨d, hparse⟩ := h.style hother
    have hd : isDeclaration f.node = true := by simpa [RuleId.rule, zeroUnit] using happlies
    rw [unitsOnLines, ← congrFun h.options .zeroUnit] at hunits
    obtain ⟨v, text, a, k, hedit⟩ := @ZeroLength.valueEdit_of_fix f.node ['\r', '\n'] (by decide) _ _ _ hunits (Except.ok.inj hoffer)
    exact hstyle hother (keepsFeeds_of_valueEdit hparse h.node hd hedit)
  | propertyOrder =>
    have hother : language ≠ .python := by rintro rfl; cases hruns
    obtain ⟨d, hparse⟩ := h.style hother
    exact hstyle hother (PropertyOrder.keepsFeeds_of_fix hparse (h.misplaced hid.symm) hfeeds (Except.ok.inj hoffer))
  | selectorPerLine =>
    have hother : language ≠ .python := by rintro rfl; cases hruns
    obtain ⟨d, hparse⟩ := h.style hother
    have hlabel : f.node.label = .style .selectorList := by
      by_contra hne
      refine happlies (congrArg Except.ok ?_)
      split
      · contradiction
      · rfl
    exact hstyle hother (SelectorPerLine.keepsFeeds_of_fix hparse h.node hlabel hends (Except.ok.inj hoffer))
  | quoteStyle =>
    have hpython := List.mem_singleton.1 (List.contains_iff_mem.1 hruns)
    have hsingle : quoteStyle.applies f.node = .ok true := by
      simpa [RuleId.rule, quoteStyle] using happlies
    obtain ⟨hkeeps, hreturns⟩ := Quotes.keeps_of_fix (hcomes hpython) hsingle hfeeds (hpaired hpython)
      (Except.ok.inj hoffer)
    exact ⟨hkeeps, fun _ => hreturns⟩
  | importGrouping =>
    have hpython := List.mem_singleton.1 (List.contains_iff_mem.1 hruns)
    exact hlines hpython (ImportGrouping.lineEdit_of_fix (Except.ok.inj hoffer))
  | modelMetaPosition =>
    have hpython := List.mem_singleton.1 (List.contains_iff_mem.1 hruns)
    exact hlines hpython (MetaPosition.lineEdit_of_fix hoffer)

/-- **No rule of the catalogue brings a carriage return into a text without one.** -/
theorem FoundIn.not_mem (h : FoundIn language settings t tree f) (hnone : '\r' ∉ t.chars.toList)
    (hoffer : f.offer = .ok (some e)) : '\r' ∉ e.replacement.toList := by
  obtain ⟨id, hid⟩ := h.catalogue
  have hruns := h.runs
  have happlies := h.applies
  rw [Finding.offer] at hoffer
  rw [← hid] at hruns happlies hoffer
  have hcomes : language = .python → Python.Comes f.context.text f.node :=
    fun hpython => h.comes hpython (returnsPaired_of_not_mem hnone) f.node h.node
  rw [← h.text] at hnone
  cases id with
  | bemClassName | nestingDepth | noExtend | noIdSelector | namingConvention | relatedNameRequired => cases hoffer
  | borderNone =>
    obtain ⟨v, text, a, k, hedit⟩ := @BorderNone.valueEdit_of_fix f.node [] (by decide) _ _ (Except.ok.inj hoffer)
    rw [hedit.replacement]
    decide
  | zeroUnit =>
    have hunits : ((f.context.options .zeroUnit).units.map String.toList).all (avoids []) = true := by
      simp [avoids]
    obtain ⟨v, text, a, k, hedit⟩ := @ZeroLength.valueEdit_of_fix f.node [] (by decide) _ _ _ hunits (Except.ok.inj hoffer)
    rw [hedit.replacement]
    decide
  | propertyOrder =>
    intro hreturn
    rcases PropertyOrder.mem_of_fix (Except.ok.inj hoffer) hreturn with hmem | hsemicolon
    · exact hnone hmem
    · cases hsemicolon
  | selectorPerLine => exact SelectorPerLine.not_mem_of_fix hnone (Except.ok.inj hoffer)
  | quoteStyle =>
    have hpython := List.mem_singleton.1 (List.contains_iff_mem.1 hruns)
    have hsingle : quoteStyle.applies f.node = .ok true := by
      simpa [RuleId.rule, quoteStyle] using happlies
    exact Quotes.not_mem_of_fix (hcomes hpython) hsingle hnone (Except.ok.inj hoffer)
  | importGrouping => exact (ImportGrouping.lineEdit_of_fix (Except.ok.inj hoffer)).not_mem hnone
  | modelMetaPosition => exact (MetaPosition.lineEdit_of_fix hoffer).not_mem hnone

/-! ### Runs -/

/-- The edits of a round are those of findings of its rules. -/
theorem foundIn_of_selected {p : Parsed} {tree : Node} {c : Checked} (hrules : ∀ r ∈ rules, r ∈ allRules)
    (hp : parse language u = .ok p) (htree : p.tree? = some tree) (hc : checkParsed p rules settings = .ok c)
    (he : e ∈ selectedEdits u c) : ∃ f, f.rule ∈ rules ∧ FoundIn language settings u tree f ∧ f.offer = .ok (some e) := by
  obtain ⟨f, hf, hedit⟩ := List.mem_filterMap.1 (Edit.mem_of_mem_select he)
  have hfound := findings_of_checkParsed (fault?_of_tree? htree) hc
  have hmem := mem_of_mem_firstFindings hf
  exact ⟨f, (visit_of_matchTree htree hfound f hmem).rule, foundIn_of_matchTree hrules hp htree hfound hmem,
    offer_of_edit? hedit⟩

/-- **Every text that a run tries has whole line breaks**, by induction on the rounds. -/
theorem Tried.wholeBreaks (hrules : ∀ r ∈ rules, r ∈ allRules) (hunits : unitsOnLines settings = true)
    (ht : WholeBreaks language t) {n : Nat} (h : Tried language rules settings t n u) : WholeBreaks language u := by
  induction h with
  | start => exact ht
  | @round n u p c cs _ _ parsed hfault checked _ result ih =>
    obtain ⟨tree, htree⟩ := exists_tree hfault
    have hkeeps (e : Edit) (he : e ∈ selectedEdits u c) : e.KeepsFeeds u ∧ (language = .python → e.KeepsReturns u) := by
      obtain ⟨f, -, hin, hoffer⟩ := foundIn_of_selected hrules parsed htree checked he
      exact hin.keeps hunits ih hoffer
    have hinside : ∀ e ∈ selectedEdits u c, e.span.stop ≤ u.size :=
      fun e he => mem_fixEdits_inside (Edit.mem_of_mem_select he)
    refine ⟨?_, fun hpython => ?_⟩
    · exact Edit.endsWithReturns_applyAll (Edit.select_apart _) hinside result ih.ends fun e he => (hkeeps e he).1
    · exact Edit.returnsPaired_applyAll (Edit.select_apart _) hinside result (ih.paired hpython)
        fun e he => (hkeeps e he).2 hpython

/-- **No text that a run tries has a carriage return** if the first one has none. -/
theorem Tried.not_mem (hrules : ∀ r ∈ rules, r ∈ allRules) (ht : '\r' ∉ t.chars.toList) {n : Nat}
    (h : Tried language rules settings t n u) : '\r' ∉ u.chars.toList := by
  induction h with
  | start => exact ht
  | @round n u p c cs _ _ parsed hfault checked _ result ih =>
    obtain ⟨tree, htree⟩ := exists_tree hfault
    refine Edit.not_mem_applyAll (Edit.select_apart _) (fun e he => mem_fixEdits_inside (Edit.mem_of_mem_select he))
      result ih fun e he => ?_
    obtain ⟨f, -, hin, hoffer⟩ := foundIn_of_selected hrules parsed htree checked he
    exact hin.not_mem ih hoffer

/-- **A run has an outcome** if in no text that it tries a carriage return ends a line by itself. -/
theorem exists_outcome (path : String) (hrules : ∀ r ∈ rules, r ∈ allRules)
    (hpaired : language = .python → ∀ n u, Tried language rules settings t n u → returnsPaired u.chars.toList = true) :
    ∃ o n, fixText path language rules settings t = .ok o ∧ Tried language rules settings t n o.text := by
  have hknown : ∀ r ∈ rules, (RuleId.ofName? r.id).isSome := fun r hr => ofName?_allRules r (hrules r hr)
  obtain ⟨houtcome, -, hstyle⟩ := @fixText_contract path language rules settings t hknown
  have hkeeps : KeepsLines language rules settings t := by
    by_cases hpython : language = .python
    · intro n u htried hlost
      have hu := hpaired hpython n u htried
      subst hpython
      obtain ⟨p, hp, -⟩ := Python.parse_of_comes hu
      cases hlost.symm.trans hp
    · exact hstyle hpython
  obtain ⟨o, ho, -⟩ := houtcome.2 hkeeps
  obtain ⟨n, htried⟩ := tried_of_fixText ho
  exact ⟨o, n, ho, htried⟩

theorem mem_allRules_of_enabled : ∀ r ∈ enabledRules settings, r ∈ allRules := by
  intro r hr
  obtain ⟨id, hid, rfl⟩ := List.mem_map.1 hr
  exact List.mem_map.2 ⟨id, (List.mem_filter.1 hid).1, rfl⟩

/-- **Line endings survive fixing.** Where each line feed of a text stands after a carriage return, so does each
line feed of the result, provided that no unit of lengths holds a line break, and that in a module no carriage
return stands alone. A text without carriage returns is left without them, whatever the settings. -/
theorem fixText_keepsEndings (path : String) (language : Language) (settings : Settings) (t : Source) :
    (unitsOnLines settings = true → WholeBreaks language t →
      ∃ o, fixText path language (enabledRules settings) settings t = .ok o ∧ endsWithReturns o.text = true) ∧
    ('\r' ∉ t.chars.toList →
      ∃ o, fixText path language (enabledRules settings) settings t = .ok o ∧ '\r' ∉ o.text.chars.toList) := by
  constructor
  · intro hunits hwhole
    obtain ⟨o, n, ho, htried⟩ := exists_outcome path mem_allRules_of_enabled fun hpython _ _ htried =>
      (htried.wholeBreaks mem_allRules_of_enabled hunits hwhole).paired hpython
    exact ⟨o, ho, (htried.wholeBreaks mem_allRules_of_enabled hunits hwhole).ends⟩
  · intro hnone
    obtain ⟨o, n, ho, htried⟩ := exists_outcome path mem_allRules_of_enabled fun _ _ _ htried =>
      returnsPaired_of_not_mem (htried.not_mem mem_allRules_of_enabled hnone)
    exact ⟨o, ho, htried.not_mem mem_allRules_of_enabled hnone⟩

/-- A block of imports, a literal over two lines and an options class. -/
theorem fixText_keepsEndings_module : ∃ o, unitsOnLines .default = true ∧
    WholeBreaks .python (.ofString "import b\r\nimport a\r\nx = \"c\\\r\nd\"\r\n") ∧
      fixText "a.py" .python (enabledRules .default) .default
        (.ofString "import b\r\nimport a\r\nx = \"c\\\r\nd\"\r\n") = .ok o ∧ endsWithReturns o.text = true := by
  have hunits : unitsOnLines .default = true := by decide +kernel
  have hwhole : WholeBreaks .python (.ofString "import b\r\nimport a\r\nx = \"c\\\r\nd\"\r\n") :=
    ⟨by decide +kernel, fun _ => by decide +kernel⟩
  obtain ⟨o, ho, hends⟩ := (fixText_keepsEndings "a.py" .python .default _).1 hunits hwhole
  exact ⟨o, hunits, hwhole, ho, hends⟩

namespace Quotes

/-- Settings under which only the rule of quotes runs. -/
def alone : Settings :=
  { Settings.default with selected := some [.quoteStyle] }

/-- The characters of a text make it up. -/
theorem eq_of_chars {t t' : Source} (h : t.chars = t'.chars) : t = t' := by
  cases t with
  | mk chars starts hstarts =>
    cases t' with
    | mk chars' starts' hstarts' =>
      cases h
      rw [Source.mk.injEq, hstarts, hstarts']
      exact ⟨rfl, rfl⟩

/-- The edit that leads from one text to another. -/
theorem exists_loneEdit {t t' : Source} (h : ((loneEdit? .python (enabledRules alone) alone t).filter fun e =>
    (t.edited e).chars == t'.chars).isSome = true) :
    ∃ e, loneEdit? .python (enabledRules alone) alone t = some e ∧ t.edited e = t' := by
  obtain ⟨e, h⟩ := Option.isSome_iff_exists.1 h
  rw [Option.filter_eq_some_iff, beq_iff_eq] at h
  exact ⟨e, h.1, eq_of_chars h.2⟩

/-- The carriage return in the first literal ends a line for the grammar and none for the text, which
puts the literal of the third line on the fourth: the number there and the return after it are
overwritten. -/
theorem fixText_loses_return : ∃ o,
    endsWithReturns (.ofString "'''\r'''\r\nx = \"a\"\r\ny = 12\r\n") = true ∧
      fixText "a.py" .python (enabledRules alone) { alone with maxFixIterations := 1 }
        (.ofString "'''\r'''\r\nx = \"a\"\r\ny = 12\r\n") = .ok o ∧
      o.text = .ofString "'''\r'''\r\nx = \"a\"\r\ny = 'a'\n" ∧ endsWithReturns o.text = false := by
  set t : Source := .ofString "'''\r'''\r\nx = \"a\"\r\ny = 12\r\n" with ht
  set t' : Source := .ofString "'''\r'''\r\nx = \"a\"\r\ny = 'a'\n" with ht'
  have hknown : ∀ r ∈ enabledRules alone, (RuleId.ofName? r.id).isSome := by decide
  have hends : endsWithReturns t = true ∧ endsWithReturns t' = false := by
    rw [ht, ht']
    decide +kernel
  have hb : ((loneEdit? .python (enabledRules alone) alone t).filter fun e =>
      (t.edited e).chars == t'.chars).isSome = true := by
    rw [ht, ht']
    decide +kernel
  have hparses : ((parse .python t').toOption.filter fun p => p.fault?.isNone).isSome = true := by
    rw [ht']
    decide +kernel
  obtain ⟨e, he, hedited⟩ := exists_loneEdit hb
  obtain ⟨p, hparses⟩ := Option.isSome_iff_exists.1 hparses
  rw [Option.filter_eq_some_iff, toOption_eq_some, Option.isNone_iff_eq_none] at hparses
  -- the edit is performed, and there is no other round
  have hstep := fixedText_step "a.py" hknown he (by rw [hedited]; exact ⟨p, hparses⟩) 0
  rw [hedited, fixedText_zero "a.py" hknown ⟨p, hparses⟩] at hstep
  obtain ⟨o, ho, hotext⟩ := exists_of_fixedText hstep
  refine ⟨o, hends.1, ho, hotext, ?_⟩
  rw [hotext]
  exact hends.2

end Quotes

end HouseStyle
