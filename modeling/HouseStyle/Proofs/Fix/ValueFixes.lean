import HouseStyle.Proofs.Fix.Settling
import HouseStyle.Proofs.Rule.ValueEdit
import HouseStyle.Proofs.Stylesheet.ShortValues
import HouseStyle.Proofs.Text.Replacement

/-!
# Fixes of values keep the structure of a stylesheet

The rules about borders and about units put zeros in the place of inert characters of values. What is
left can be parsed, its tree says the same but for the values, and so does the text around these.

* `parse_of_zeroes`: performing such edits.
* `offer_zeroes`: the rules about values offer only such edits.
* `fixText_keepsStructure`: a run of the rules about values.
-/

namespace HouseStyle

open Stylesheet

variable {rules : List Rule} {settings : Settings} {language : Language} {d : Dialect} {t : Source} {tree : Node}

/-! ### Edits -/

/-- **Zeros in the place of inert characters of values** leave a text of which all but the values
was kept. -/
theorem shortens_of_zeroes {edits : List Edit} (hapart : edits.Pairwise Edit.Apart)
    (hin : ∀ e ∈ edits, e.span.stop ≤ t.size) (hzeroes : ∀ e ∈ edits, Zeroes t tree e) {cs : List Char}
    (hcs : Edit.applyAll t.chars.toList edits = .ok cs) :
    ∃ origin, Shortens t.chars cs.toArray origin ∧ ∀ z, KeptBut t.chars cs.toArray origin [tree] z := by
  obtain rfl := Except.ok.inj ((Edit.applyAll_replaced hapart hin).symm.trans hcs)
  have hmem {e : Edit} (he : e ∈ Edit.sorted edits) : e ∈ edits := (Edit.sorted_perm edits).mem_iff.1 he
  have hnarrows : ∀ e ∈ Edit.sorted edits, e.Narrows '0' := fun e he =>
    ⟨by rw [(hzeroes e (hmem he)).replacement]; rfl, (hzeroes e (hmem he)).nonempty⟩
  have hin' : ∀ e ∈ Edit.sorted edits, e.span.stop ≤ t.chars.toList.length := fun e he => hin e (hmem he)
  have hplace := @Edit.replacedFrom_place _ _ 0 _ hnarrows (Edit.sorted_before hapart) (fun e _ => Nat.zero_le _) hin'
  refine ⟨Edit.originFrom 0 (Edit.sorted edits), ⟨Edit.originFrom_zero _ _, ?_, ?_, fun p _ => ?_⟩, fun p => ?_⟩
  · exact Edit.originFrom_length hnarrows (Edit.sorted_before hapart) (fun e _ => Nat.zero_le _) hin' (Nat.zero_le _)
  · exact Edit.originFrom_lt hnarrows (Edit.sorted_before hapart) (fun e _ => Nat.zero_le _) hin'
  · rcases hplace p with ⟨hchar, hsucc⟩ | ⟨e, he, hchar, hstart, hstop⟩
    · exact .inl ⟨by rwa [List.getElem?_toArray, ← Array.getElem?_toList], hsucc⟩
    · refine .inr ⟨⟨'0', by rwa [List.getElem?_toArray], by decide⟩, ?_⟩
      rw [hstart, hstop]
      exact (hzeroes e (hmem he)).inert
  · rcases hplace p with ⟨hchar, hsucc⟩ | ⟨e, he, -, hstart, hstop⟩
    · exact .inl ⟨by rwa [List.getElem?_toArray, ← Array.getElem?_toList], hsucc⟩
    · obtain ⟨v, hv, hvalue, hle, hge⟩ := (hzeroes e (hmem he)).value
      refine .inr ⟨v, ?_, hvalue, Nat.le_trans hle (Nat.le_of_eq hstart.symm), Nat.le_trans (Nat.le_of_eq hstop) hge⟩
      rwa [Node.walkList_cons, Node.walkList, List.append_nil]

/-- **Zeros in the place of inert characters of values keep the structure.** -/
theorem parse_of_zeroes (hparse : Stylesheet.parse d t.chars = .ok tree) {edits : List Edit}
    (hapart : edits.Pairwise Edit.Apart) (hin : ∀ e ∈ edits, e.span.stop ≤ t.size)
    (hzeroes : ∀ e ∈ edits, Zeroes t tree e) {cs : List Char} (hcs : Edit.applyAll t.chars.toList edits = .ok cs) :
    ∃ tree', Stylesheet.parse d cs.toArray = .ok tree' ∧ AlikeButValues t.chars tree cs.toArray tree' := by
  obtain ⟨origin, hshort, hkept⟩ := shortens_of_zeroes hapart hin hzeroes hcs
  exact parse_shorten hshort hparse fun z _ => hkept z

/-! ### Rules -/

/-- Whether a rule is about values. -/
def IsValueRule (r : Rule) : Prop :=
  r = borderNone ∨ r = zeroUnit

theorem isSome_ofName?_of_valueRule {r : Rule} (h : IsValueRule r) : (RuleId.ofName? r.id).isSome = true := by
  rcases h with rfl | rfl <;> decide

/-- **The rules about values put zeros in the place of inert characters of values.** -/
theorem offer_zeroes {found : List Finding} (hrules : ∀ r ∈ rules, IsValueRule r)
    (hunits : areInert ((settings.rule .zeroUnit).options.units.map String.toList) = true)
    (htree : (parseStylesheet language d t).tree? = some tree)
    (hfound : matchTree (parseStylesheet language d t) rules settings = .ok found) {f : Finding} {e : Edit}
    (hf : f ∈ found) (hoffer : f.offer = .ok (some e)) : Zeroes t tree e := by
  obtain ⟨hrule, -, -, hnode, ⟨scope, hcontext⟩, m, hrun⟩ := visit_of_matchTree htree hfound f hf
  obtain ⟨-, happlies⟩ := runRule_node f hrun
  have htext : f.context.text = t := by
    rw [hcontext]
    exact parseStylesheet_text _ _ _
  have hparse : Stylesheet.parse d f.context.text.chars = .ok tree := by
    rw [htext]
    exact parseStylesheet_tree.1 htree
  rw [Finding.offer] at hoffer
  rw [← htext]
  rcases hrules _ hrule with hr | hr
  · rw [hr] at happlies hoffer
    have hd : isDeclaration f.node = true := by simpa [borderNone] using happlies
    exact BorderNone.zeroes_of_fix hparse hnode hd (Except.ok.inj hoffer)
  · rw [hr] at happlies hoffer
    have hd : isDeclaration f.node = true := by simpa [zeroUnit] using happlies
    refine ZeroLength.zeroes_of_fix hparse hnode hd ?_ (Except.ok.inj hoffer)
    rw [hcontext]
    exact hunits

/-! ### Runs -/

/-- **A round of the rules about values goes on** with a text that has the same structure. -/
theorem fixRound_keeps_structure (hd : ∀ t, parse language t = .ok (parseStylesheet language d t))
    (hrules : ∀ r ∈ rules, IsValueRule r)
    (hunits : areInert ((settings.rule .zeroUnit).options.units.map String.toList) = true) {s : FixState}
    (hs : s.Fresh language rules settings) (htree : s.parsed.tree? = some tree) :
    ∃ s' tree', fixRound language rules settings s s.selected = .ok (.next s') ∧
      s'.parsed.tree? = some tree' ∧ AlikeButValues s.parsed.text.chars tree s'.parsed.text.chars tree' := by
  have hparsed : parseStylesheet language d s.parsed.text = s.parsed := Except.ok.inj ((hd _).symm.trans hs.parsed)
  have hfound := findings_of_checkParsed (fault?_of_tree? htree) hs.checked
  obtain ⟨cs, hcs⟩ := applyAll_selectedEdits s.parsed.text s.checked
  rw [← hparsed] at htree hfound
  have hzeroes : ∀ e ∈ s.selected, Zeroes s.parsed.text tree e := fun e he => by
    obtain ⟨f, hf, hedit⟩ := List.mem_filterMap.1 (Edit.mem_of_mem_select he)
    exact offer_zeroes hrules hunits htree hfound (mem_of_mem_firstFindings hf) (offer_of_edit? hedit)
  obtain ⟨tree', hparse', halike⟩ := parse_of_zeroes (parseStylesheet_tree.1 htree) (Edit.select_apart _)
    (fun e he => mem_fixEdits_inside (Edit.mem_of_mem_select he)) hzeroes hcs
  have htree' : (parseStylesheet language d (.ofChars cs.toArray)).tree? = some tree' := parseStylesheet_tree.2 hparse'
  obtain ⟨c, hc⟩ := checkParsed_ok (fun r hr => isSome_ofName?_of_valueRule (hrules r hr)) settings
    (parseStylesheet language d (.ofChars cs.toArray))
  refine ⟨{ parsed := parseStylesheet language d (.ofChars cs.toArray), checked := c, iterations := s.iterations + 1
            editsApplied := s.editsApplied + s.selected.length }, tree', ?_, htree', ?_⟩
  · have hsel : Edit.applyAll s.parsed.text.chars.toList s.selected = .ok cs := hcs
    simp only [fixRound, hsel, hd, fault?_of_tree? htree', hc]
  · rw [parseStylesheet_text]
    exact halike

/-- **What fixing the values of a stylesheet promises**: no result is given up, and the text that is left
can be parsed and differs from the first one inside of values only. -/
structure FixOutcome.KeepsStructure (language : Language) (src : Array Char) (tree : Node) (o : FixOutcome) :
    Prop where
  kept : ∀ fault, o.ending ≠ .discarded fault
  alike : ∃ p tree', parse language o.text = .ok p ∧ p.tree? = some tree' ∧
    AlikeButValues src tree o.text.chars tree'

/-- A state in which a run ends. -/
theorem keepsStructure_finish {s : FixState} (hs : s.Fresh language rules settings)
    (htree : s.parsed.tree? = some tree) {ending : FixEnding} (hending : ∀ fault, ending ≠ .discarded fault)
    (log : List LogLine) : (s.finish ending log).KeepsStructure language s.parsed.text.chars tree :=
  ⟨hending, s.parsed, tree, hs.parsed, htree, .refl _ _⟩

/-- **A run of the rules about values keeps the structure**, by induction on the rounds. -/
theorem fixFrom_keepsStructure (path : String) (hd : ∀ t, parse language t = .ok (parseStylesheet language d t))
    (hrules : ∀ r ∈ rules, IsValueRule r)
    (hunits : areInert ((settings.rule .zeroUnit).options.units.map String.toList) = true) (rounds : Nat) :
    ∀ {s : FixState} {tree : Node}, s.Fresh language rules settings → s.parsed.tree? = some tree →
      ∃ o, fixFrom path language rules settings rounds s = .ok o ∧
        o.KeepsStructure language s.parsed.text.chars tree := by
  induction rounds with
  | zero =>
    intro s tree hs htree
    by_cases hne : s.selected = []
    · exact ⟨_, fixFrom_settled hne 0, keepsStructure_finish hs htree (by rintro _ ⟨⟩) _⟩
    · exact ⟨_, fixFrom_zero hne, keepsStructure_finish hs htree (by rintro _ ⟨⟩) _⟩
  | succ rounds ih =>
    intro s tree hs htree
    by_cases hne : s.selected = []
    · exact ⟨_, fixFrom_settled hne _, keepsStructure_finish hs htree (by rintro _ ⟨⟩) _⟩
    · obtain ⟨s', tree', hround, htree', halike⟩ := fixRound_keeps_structure hd hrules hunits hs htree
      obtain ⟨o, ho, hkept, p, last, hp, hlast, halike'⟩ := ih (fresh_of_fixRound hround) htree'
      refine ⟨o.after (s.selectionLog path ++ roundLog path s' s.selected), ?_, hkept, p, last, hp, hlast, ?_⟩
      · rw [fixFrom_next hne hround, ho]
        rfl
      · exact halike.trans halike'

/-- Options that nothing is said about name units of inert characters. -/
theorem areInert_default : areInert ((schema .zeroUnit).default.units.map String.toList) = true := by
  decide +kernel

/-- **Fixes of values keep the structure of a stylesheet.** When no other rules run than those about
borders and about units, whatever the bound on the rounds, fixing a stylesheet that can be parsed gives no
result up. The text that is left has a tree with the same nodes at the same depths, which tell the same but
for their values, and outside of the values it is the text that was given. -/
theorem fixText_keepsStructure (path : String) (hlanguage : language ≠ .python)
    (hrules : ∀ id, settings.runs id = true → id = .borderNone ∨ id = .zeroUnit)
    (hoptions : (settings.rule .zeroUnit).options = (schema .zeroUnit).default) {p : Parsed}
    (hparse : parse language t = .ok p) (htree : p.tree? = some tree) :
    ∃ o, fixText path language (enabledRules settings) settings t = .ok o ∧
      o.KeepsStructure language t.chars tree := by
  obtain ⟨d, hd⟩ := exists_dialect hlanguage
  have hunits : areInert ((settings.rule .zeroUnit).options.units.map String.toList) = true := by
    rw [hoptions]
    exact areInert_default
  have hvalue : ∀ r ∈ enabledRules settings, IsValueRule r := fun r hr => by
    obtain ⟨id, hid, rfl⟩ := List.mem_map.1 hr
    rcases hrules id (List.mem_filter.1 hid).2 with rfl | rfl
    · exact .inl rfl
    · exact .inr rfl
  obtain rfl := parse_text hparse
  obtain ⟨c, hc⟩ := checkParsed_ok (fun r hr => isSome_ofName?_of_valueRule (hvalue r hr)) settings p
  have hfresh : FixState.Fresh language (enabledRules settings) settings
      { parsed := p, checked := c, iterations := 0, editsApplied := 0 } := ⟨hparse, hc⟩
  obtain ⟨o, ho, hkept, halike⟩ := fixFrom_keepsStructure path hd hvalue hunits settings.maxFixIterations hfresh htree
  exact ⟨o.after (firstLog path p c), by simp only [fixText, hparse, hc, ho], hkept, halike⟩

/-- Zeros in a string, after a sign, before a comment and in a nested rule. -/
theorem fixText_keepsStructure_mixed : ∃ p tree o,
    parse .scss (.ofString "a\x7bborder:NONE !important;b:'0px' 0.0em/*;*/ -0px;&:hover\x7bd:0vh\x7d\x7d") = .ok p ∧
      p.tree? = some tree ∧
      fixText "a.scss" .scss (enabledRules { Settings.default with selected := some [.borderNone, .zeroUnit] })
          { Settings.default with selected := some [.borderNone, .zeroUnit] }
          (.ofString "a\x7bborder:NONE !important;b:'0px' 0.0em/*;*/ -0px;&:hover\x7bd:0vh\x7d\x7d") = .ok o ∧
      o.KeepsStructure .scss (Source.ofString
        "a\x7bborder:NONE !important;b:'0px' 0.0em/*;*/ -0px;&:hover\x7bd:0vh\x7d\x7d").chars tree := by
  have hsome : (parseStylesheet .scss .scss (.ofString
      "a\x7bborder:NONE !important;b:'0px' 0.0em/*;*/ -0px;&:hover\x7bd:0vh\x7d\x7d")).tree?.isSome = true := by
    decide +kernel
  obtain ⟨tree, htree⟩ := Option.isSome_iff_exists.1 hsome
  have hlanguage : Language.scss ≠ .python := by decide
  have hrules : ∀ id, { Settings.default with selected := some [.borderNone, .zeroUnit] : Settings }.runs id = true →
      id = .borderNone ∨ id = .zeroUnit := by
    intro id hid
    cases id <;> first | exact .inl rfl | exact .inr rfl | cases hid
  obtain ⟨o, ho⟩ := fixText_keepsStructure "a.scss" hlanguage hrules rfl rfl htree
  exact ⟨_, tree, o, rfl, htree, ho⟩

end HouseStyle
