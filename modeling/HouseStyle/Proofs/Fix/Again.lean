import HouseStyle.Proofs.Check.Independence
import HouseStyle.Proofs.Fix.FixedPoint
import HouseStyle.Rule.Catalogue

/-!
# Fixing a text again

Nothing but the text is carried from one run to the next, so a second run goes on where the
first one stopped: two runs with a bound on the rounds are one run with both bounds together.
A run that does not stop at its bound leaves nothing to a second one.

* `fixFrom_add`: a run from a state in two parts.
* `fixText_add`: the second of two runs goes on with the first.
* `rests_of_fixText`: where a run that does not stop at its bound ends.
* `fixText_idempotent`: fixing twice is fixing once, unless the bound is reached.
-/

namespace HouseStyle

variable {path : String} {language : Language} {rules : List Rule} {settings : Settings} {t : Source}

/-! ### What a run depends on -/

/-- The bound on the rounds means nothing to a check. -/
theorem checkParsed_bound (p : Parsed) (rules : List Rule) (settings : Settings) (n : Nat) :
    checkParsed p rules { settings with maxFixIterations := n } = checkParsed p rules settings := by
  have hmatch : matchTree p rules { settings with maxFixIterations := n } = matchTree p rules settings :=
    matchTree_congr rfl
  have hreport (vs : List Violation) : aggregate { settings with maxFixIterations := n } vs = aggregate settings vs :=
    rfl
  simp only [checkParsed, hmatch, hreport]

theorem fixRound_bound (s : FixState) (edits : List Edit) (n : Nat) :
    fixRound language rules { settings with maxFixIterations := n } s edits =
      fixRound language rules settings s edits := by
  simp only [fixRound, checkParsed_bound]

/-- Nor does it to a run that is given its rounds. -/
theorem fixFrom_bound (n rounds : Nat) (s : FixState) :
    fixFrom path language rules { settings with maxFixIterations := n } rounds s =
      fixFrom path language rules settings rounds s := by
  induction rounds generalizing s with
  | zero => simp only [fixFrom]
  | succ rounds ih => simp only [fixFrom, fixRound_bound, ih]

/-- What a round comes to, without the counts. -/
def FixRound.content : FixRound → Except ParseFault (Parsed × Checked)
  | .next s => .ok (s.parsed, s.checked)
  | .discard fault => .error fault

/-- A round depends on what is known of the text, not on the rounds before. -/
theorem fixRound_content {s s' : FixState} (hp : s'.parsed = s.parsed) (edits : List Edit) :
    (fixRound language rules settings s' edits).map FixRound.content =
      (fixRound language rules settings s edits).map FixRound.content := by
  simp only [fixRound, hp]
  split
  · rfl
  · split
    · rfl
    · split
      · rfl
      · split <;> rfl

/-- The text of an outcome. -/
def FixOutcome.textOf (r : Except Failure FixOutcome) : Except Failure Source :=
  r.map FixOutcome.text

theorem FixOutcome.textOf_after (log : List LogLine) (r : Except Failure FixOutcome) :
    textOf (r.map (FixOutcome.after log)) = textOf r := by
  cases r <;> rfl

/-- The text that a run ends with depends on what is known of the text it begins with, not on
the rounds before, by induction on the rounds left. -/
theorem fixFrom_text {s s' : FixState} (hp : s'.parsed = s.parsed) (hc : s'.checked = s.checked) (rounds : Nat) :
    FixOutcome.textOf (fixFrom path language rules settings rounds s') =
      FixOutcome.textOf (fixFrom path language rules settings rounds s) := by
  induction rounds generalizing s s' with
  | zero =>
    have hsel : s'.selected = s.selected := by rw [FixState.selected, FixState.selected, hp, hc]
    by_cases hne : s.selected = []
    · rw [fixFrom_settled hne, fixFrom_settled (hsel.trans hne)]
      exact congrArg (fun p : Parsed => Except.ok p.text) hp
    · rw [fixFrom_zero hne, fixFrom_zero (hsel ▸ hne)]
      exact congrArg (fun p : Parsed => Except.ok p.text) hp
  | succ rounds ih =>
    have hsel : s'.selected = s.selected := by rw [FixState.selected, FixState.selected, hp, hc]
    by_cases hne : s.selected = []
    · rw [fixFrom_settled hne, fixFrom_settled (hsel.trans hne)]
      exact congrArg (fun p : Parsed => Except.ok p.text) hp
    have hne' : s'.selected ≠ [] := by rwa [hsel]
    have hcontent : (fixRound language rules settings s' s'.selected).map FixRound.content =
        (fixRound language rules settings s s.selected).map FixRound.content := by
      rw [hsel]
      exact fixRound_content hp _
    cases hround : fixRound language rules settings s s.selected with
    | error f =>
      rw [hround] at hcontent
      cases hround' : fixRound language rules settings s' s'.selected with
      | error f' =>
        rw [hround'] at hcontent
        cases hcontent
        rw [fixFrom_failed hne hround, fixFrom_failed hne' hround']
      | ok r' =>
        rw [hround'] at hcontent
        cases hcontent
    | ok r =>
      cases hround' : fixRound language rules settings s' s'.selected with
      | error f' =>
        rw [hround, hround'] at hcontent
        cases hcontent
      | ok r' =>
        rw [hround, hround'] at hcontent
        have hcontent : r'.content = r.content := Except.ok.inj hcontent
        cases r with
        | discard fault =>
          cases r' with
          | discard fault' =>
            rw [fixFrom_discard hne hround, fixFrom_discard hne' hround']
            exact congrArg (fun p : Parsed => Except.ok p.text) hp
          | next next' => cases hcontent
        | next next =>
          cases r' with
          | discard fault' => cases hcontent
          | next next' =>
            obtain ⟨hnext, hnext'⟩ := Prod.mk.inj (Except.ok.inj hcontent)
            rw [fixFrom_next hne hround, fixFrom_next hne' hround', FixOutcome.textOf_after,
              FixOutcome.textOf_after, ih hnext hnext']

/-! ### Two runs -/

/-- Fixes a text with a bound on the rounds and keeps the text alone. -/
def fixedText (path : String) (language : Language) (rules : List Rule) (settings : Settings) (bound : Nat)
    (t : Source) : Except Failure Source :=
  FixOutcome.textOf (fixText path language rules { settings with maxFixIterations := bound } t)

theorem exists_of_fixedText {bound : Nat} {u : Source} (h : fixedText path language rules settings bound t = .ok u) :
    ∃ o, fixText path language rules { settings with maxFixIterations := bound } t = .ok o ∧ o.text = u := by
  unfold fixedText at h
  cases ho : fixText path language rules { settings with maxFixIterations := bound } t with
  | error f =>
    rw [ho] at h
    cases h
  | ok o =>
    rw [ho] at h
    exact ⟨o, rfl, Except.ok.inj h⟩

/-- A run from the text of a state goes on as the state does. -/
theorem fixedText_of_fresh {s : FixState} (hs : s.Fresh language rules settings) (bound : Nat) :
    fixedText path language rules settings bound s.parsed.text =
      FixOutcome.textOf (fixFrom path language rules settings bound s) := by
  have hrun : FixOutcome.textOf (fixFrom path language rules settings bound
      { parsed := s.parsed, checked := s.checked, iterations := 0, editsApplied := 0 }) =
      FixOutcome.textOf (fixFrom path language rules settings bound s) :=
    fixFrom_text (by rfl) (by rfl) bound
  rw [← hrun]
  simp only [fixedText, fixText, hs.parsed, checkParsed_bound, hs.checked, fixFrom_bound]
  cases fixFrom path language rules settings bound
    { parsed := s.parsed, checked := s.checked, iterations := 0, editsApplied := 0 } <;> rfl

/-- **A run from a state in two parts**, by induction on the rounds of the first. -/
theorem fixFrom_add (n m : Nat) {s : FixState} (hs : s.Fresh language rules settings) :
    FixOutcome.textOf (fixFrom path language rules settings (n + m) s) =
      (FixOutcome.textOf (fixFrom path language rules settings n s)).bind
        (fixedText path language rules settings m) := by
  induction n generalizing s with
  | zero =>
    -- no round was performed, so the second part begins with the same text
    have htext : FixOutcome.textOf (fixFrom path language rules settings 0 s) = .ok s.parsed.text := by
      by_cases hne : s.selected = []
      · rw [fixFrom_settled hne]
        rfl
      · rw [fixFrom_zero hne]
        rfl
    rw [htext, Nat.zero_add]
    exact (fixedText_of_fresh hs m).symm
  | succ n ih =>
    have hagain : fixedText path language rules settings m s.parsed.text =
        FixOutcome.textOf (fixFrom path language rules settings m s) := fixedText_of_fresh hs m
    rw [Nat.add_right_comm]
    by_cases hne : s.selected = []
    · rw [fixFrom_settled hne, fixFrom_settled hne]
      rw [fixFrom_settled hne] at hagain
      exact hagain.symm
    cases hround : fixRound language rules settings s s.selected with
    | error f =>
      rw [fixFrom_failed hne hround, fixFrom_failed hne hround]
      rfl
    | ok r =>
      cases r with
      | discard fault =>
        rw [fixFrom_discard hne hround, fixFrom_discard hne hround]
        -- the second run tries the same edits, or has no rounds to try them
        cases m with
        | zero =>
          rw [fixFrom_zero hne] at hagain
          exact hagain.symm
        | succ m =>
          rw [fixFrom_discard hne hround] at hagain
          exact hagain.symm
      | next next =>
        rw [fixFrom_next hne hround, fixFrom_next hne hround, FixOutcome.textOf_after, FixOutcome.textOf_after]
        exact ih (fresh_of_fixRound hround)

/-- **Two runs are one run with both bounds together.** -/
theorem fixText_add (path : String) (language : Language) (rules : List Rule) (settings : Settings) (n m : Nat)
    (t : Source) :
    fixedText path language rules settings (n + m) t =
      (fixedText path language rules settings n t).bind (fixedText path language rules settings m) := by
  cases hparsed : parse language t with
  | error f =>
    have hfails (bound : Nat) : fixedText path language rules settings bound t = .error f := by
      simp only [fixedText, fixText, hparsed]
      rfl
    rw [hfails, hfails]
    rfl
  | ok p =>
    obtain rfl := parse_text hparsed
    cases hchecked : checkParsed p rules settings with
    | error f =>
      have hfails (bound : Nat) : fixedText path language rules settings bound p.text = .error f := by
        simp only [fixedText, fixText, hparsed, checkParsed_bound, hchecked]
        rfl
      rw [hfails, hfails]
      rfl
    | ok c =>
      set s : FixState := { parsed := p, checked := c, iterations := 0, editsApplied := 0 } with hs
      have hfresh : s.Fresh language rules settings := ⟨hparsed, hchecked⟩
      have htext (bound : Nat) : fixedText path language rules settings bound p.text =
          FixOutcome.textOf (fixFrom path language rules settings bound s) := fixedText_of_fresh hfresh bound
      rw [htext, htext]
      exact fixFrom_add n m hfresh

/-! ### A run that does not stop at its bound -/

/-- A run that does not stop at its bound ends in a state that no round leads on from. -/
theorem rests_of_fixText {o : FixOutcome} (h : fixText path language rules settings t = .ok o)
    (hend : o.ending ≠ .exhausted) :
    ∃ last : FixState, last.Fresh language rules settings ∧
      last.Rests language rules settings o.ending ∧ last.parsed.text = o.text ∧ last.checked = o.checked := by
  unfold fixText at h
  split at h
  · cases h
  rename_i p hp
  split at h
  · cases h
  rename_i c hc
  split at h
  · cases h
  rename_i first hfirst
  cases h
  have hfresh : FixState.Fresh language rules settings
      { parsed := p, checked := c, iterations := 0, editsApplied := 0 } :=
    ⟨by rw [parse_text hp]; exact hp, hc⟩
  obtain ⟨last, hlast, hrests, htext, hchecked⟩ := rests_of_fixFrom _ _ _ (Nat.le_refl _) hfresh hfirst hend
  exact ⟨last, hlast, hrests, htext, hchecked⟩

/-! ### Texts with a single finding -/

/-- The edit that a text is given when a check finds a single violation in it. -/
def loneEdit? (language : Language) (rules : List Rule) (settings : Settings) (t : Source) : Option Edit :=
  (parse language t).toOption.bind fun p => (matchTree p rules settings).toOption.bind fun found =>
    match found with
    | [f] =>
      if (settle settings f.violation).any (fun v => v.fixable && v.key == f.violation.key) then f.edit? t
      else none
    | _ => none

/-- The text after an edit. -/
def Source.edited (t : Source) (e : Edit) : Source :=
  .ofChars (Edit.splice t.chars.toList e).toArray

/-- A text in which something is found has a tree. -/
theorem fault?_of_matchTree {p : Parsed} {found : List Finding} (h : matchTree p rules settings = .ok found)
    {f : Finding} (hf : f ∈ found) : p.fault? = none := by
  cases hresult : p.result with
  | ok tree => simp only [Parsed.fault?, hresult]
  | error u =>
    simp only [matchTree, Parsed.tree?, hresult, Except.toOption] at h
    cases h
    cases hf

theorem selectedEdits_of_loneEdit {e : Edit} (h : loneEdit? language rules settings t = some e) :
    ∃ p c, parse language t = .ok p ∧ checkParsed p rules settings = .ok c ∧ selectedEdits t c = [e] := by
  simp only [loneEdit?, Option.bind_eq_some_iff, toOption_eq_some] at h
  obtain ⟨p, hp, found, hfound, h⟩ := h
  split at h
  · rename_i f
    split at h
    · rename_i hsettle
      rw [Option.any_eq_true] at hsettle
      obtain ⟨v, hv, hfix⟩ := hsettle
      rw [Bool.and_eq_true, beq_iff_eq] at hfix
      have hfault := fault?_of_matchTree hfound (List.mem_singleton_self f)
      refine ⟨p, { report := aggregate settings [f.violation], findings := [f] }, hp, ?_,
        selectedEdits_single hv hfix.1 hfix.2 h⟩
      simp only [checkParsed, hfault, hfound, List.map_cons, List.map_nil]
    · cases h
  · cases h

/-- A run on such a text goes on with the edited text. -/
theorem fixedText_step (path : String) {e : Edit} (hknown : ∀ r ∈ rules, (RuleId.ofName? r.id).isSome)
    (h : loneEdit? language rules settings t = some e) (hparses : Parses language (t.edited e)) (n : Nat) :
    fixedText path language rules settings (n + 1) t = fixedText path language rules settings n (t.edited e) := by
  obtain ⟨p, c, hp, hc, hsel⟩ := selectedEdits_of_loneEdit h
  obtain rfl := parse_text hp
  obtain ⟨p', hp', hfault⟩ := hparses
  obtain ⟨c', hc'⟩ := checkParsed_ok hknown settings p'
  have hstop : e.span.stop ≤ p.text.size := by
    have hmem : e ∈ selectedEdits p.text c := by
      rw [hsel]
      exact List.mem_cons_self
    exact mem_fixEdits_inside (Edit.mem_of_mem_select hmem)
  set s : FixState := { parsed := p, checked := c, iterations := 0, editsApplied := 0 } with hs
  set s' : FixState := { parsed := p', checked := c', iterations := 1, editsApplied := 1 } with hs'
  have hfresh : s.Fresh language rules settings := ⟨hp, hc⟩
  have hselected : s.selected = [e] := hsel
  have hround : fixRound language rules settings s s.selected = .ok (.next s') := by
    rw [hselected]
    have happly : Edit.applyAll s.parsed.text.chars.toList [e] = .ok (Edit.splice p.text.chars.toList e) :=
      Edit.applyAll_singleton hstop
    have hparse' : parse language (.ofChars (Edit.splice p.text.chars.toList e).toArray) = .ok p' := hp'
    simp only [fixRound, happly, hparse', hfault, hc']
    rfl
  have hfresh' : s'.Fresh language rules settings := fresh_of_fixRound hround
  have htext : s'.parsed.text = p.text.edited e := parse_text hp'
  have hgo : fixedText path language rules settings (n + 1) p.text = _ := fixedText_of_fresh hfresh (n + 1)
  have hgo' : fixedText path language rules settings n s'.parsed.text = _ := fixedText_of_fresh hfresh' n
  rw [hgo, ← htext, hgo', fixFrom_next (by rw [hselected]; exact List.cons_ne_nil _ _) hround,
    FixOutcome.textOf_after]

/-- A run without rounds keeps the text. -/
theorem fixedText_zero (path : String) (hknown : ∀ r ∈ rules, (RuleId.ofName? r.id).isSome)
    (hparses : Parses language t) : fixedText path language rules settings 0 t = .ok t := by
  obtain ⟨p, hp, -⟩ := hparses
  obtain rfl := parse_text hp
  obtain ⟨c, hc⟩ := checkParsed_ok hknown settings p
  set s : FixState := { parsed := p, checked := c, iterations := 0, editsApplied := 0 } with hs
  have hgo : fixedText path language rules settings 0 s.parsed.text = _ := fixedText_of_fresh ⟨hp, hc⟩ 0
  rw [hs] at hgo
  rw [hgo]
  by_cases hne : s.selected = []
  · rw [fixFrom_settled hne]
    rfl
  · rw [fixFrom_zero hne]
    rfl

/-- A run on a text in which nothing is found settles at once. -/
theorem fixText_silent (path : String) {p : Parsed} (hp : parse language t = .ok p) (hfault : p.fault? = none)
    (hfound : matchTree p rules settings = .ok []) :
    ∃ o, fixText path language rules settings t = .ok o ∧ o.ending = .settled ∧ o.text = t := by
  obtain rfl := parse_text hp
  set c : Checked := { report := aggregate settings [], findings := [] } with hc
  have hchecked : checkParsed p rules settings = .ok c := by
    simp only [checkParsed, hfault, hfound, List.map_nil, hc]
  set s : FixState := { parsed := p, checked := c, iterations := 0, editsApplied := 0 } with hs
  have hne : s.selected = [] := Edit.select_nil
  refine ⟨(s.finish .settled (s.selectionLog path)).after (firstLog path p c), ?_, rfl, rfl⟩
  simp only [fixText, hp, hchecked, ← hs, fixFrom_settled hne]

theorem fixedText_silent (path : String) {p : Parsed} (hp : parse language t = .ok p) (hfault : p.fault? = none)
    (hfound : matchTree p rules settings = .ok []) (bound : Nat) :
    fixedText path language rules settings bound t = .ok t := by
  have hbound : matchTree p rules { settings with maxFixIterations := bound } = .ok [] := by
    rw [← hfound]
    exact matchTree_congr rfl
  obtain ⟨o, ho, -, htext⟩ := fixText_silent path hp hfault hbound
  rw [fixedText, ho, ← htext]
  rfl

/-! ### Fixing twice -/

/-- **Fixing twice is fixing once, unless the bound on the rounds is reached.** Then the second
run goes on with the first: it ends with the text of one run with both bounds together. -/
theorem fixText_idempotent {o : FixOutcome} (h : fixText path language (enabledRules settings) settings t = .ok o) :
    (o.ending ≠ .exhausted → ∃ o', fixText path language (enabledRules settings) settings o.text = .ok o' ∧
      o'.text = o.text) ∧
    (fixText path language (enabledRules settings) settings o.text).map FixOutcome.text =
      (fixText path language (enabledRules settings)
        { settings with maxFixIterations := settings.maxFixIterations + settings.maxFixIterations } t).map
          FixOutcome.text := by
  constructor
  · intro hend
    obtain ⟨last, hlast, hrests, htext, -⟩ := rests_of_fixText h hend
    obtain ⟨o', ho', ho'text, -⟩ := fixText_of_rests path hlast hrests
    rw [htext] at ho' ho'text
    exact ⟨o', ho', ho'text⟩
  · have hadd := fixText_add path language (enabledRules settings) settings settings.maxFixIterations
      settings.maxFixIterations t
    have hfirst : fixedText path language (enabledRules settings) settings settings.maxFixIterations t = .ok o.text :=
      congrArg FixOutcome.textOf h
    rw [hfirst] at hadd
    exact hadd.symm

/-- Settings of which a run has a single round. -/
def hasty : Settings :=
  { Settings.default with maxFixIterations := 1 }

/-- A class with two options classes above its field. A round moves the first of them. -/
def crowded : Source :=
  .ofString "class A:\n  class Meta: pass\n  class Meta: pass\n  y = 1\n"

/-- Two runs of a single round on a class with two options classes. -/
theorem fixedText_crowded (path : String) : ∃ once twice,
    fixedText path .python (enabledRules hasty) hasty 1 crowded = .ok once ∧
      fixedText path .python (enabledRules hasty) hasty 1 once = .ok twice ∧ twice ≠ once := by
  have hknown : ∀ r ∈ enabledRules hasty, (RuleId.ofName? r.id).isSome := by decide
  have hb : ((loneEdit? .python (enabledRules hasty) hasty crowded).bind fun e =>
      (parse .python (crowded.edited e)).toOption.bind fun p =>
      (loneEdit? .python (enabledRules hasty) hasty (crowded.edited e)).bind fun e' =>
        (parse .python ((crowded.edited e).edited e')).toOption.filter fun p' =>
          p.fault?.isNone && p'.fault?.isNone &&
            ((crowded.edited e).edited e').chars != (crowded.edited e).chars).isSome = true := by
    decide +kernel
  obtain ⟨p', hb⟩ := Option.isSome_iff_exists.1 hb
  simp only [Option.bind_eq_some_iff, toOption_eq_some, Option.filter_eq_some_iff, Bool.and_eq_true,
    Option.isNone_iff_eq_none, bne_iff_ne] at hb
  obtain ⟨e, he, p, hp, e', he', hp', ⟨hfault, hfault'⟩, hne⟩ := hb
  have honce : Parses .python (crowded.edited e) := ⟨p, hp, hfault⟩
  have htwice : Parses .python ((crowded.edited e).edited e') := ⟨p', hp', hfault'⟩
  refine ⟨crowded.edited e, (crowded.edited e).edited e', ?_, ?_, fun heq => hne (congrArg Source.chars heq)⟩
  · rw [fixedText_step path hknown he honce, fixedText_zero path hknown honce]
  · rw [fixedText_step path hknown he' htwice, fixedText_zero path hknown htwice]

/-- A run that settles, and one that stops at its bound. -/
theorem fixText_idempotent_crowded :
    (∃ o, fixText "a.py" .python (enabledRules .default) .default (.ofString "y = 1\n") = .ok o ∧
      o.ending = .settled ∧
      ∃ o', fixText "a.py" .python (enabledRules .default) .default o.text = .ok o' ∧ o'.text = o.text) ∧
    ∃ o, fixText "a.py" .python (enabledRules hasty) hasty crowded = .ok o ∧
      (fixText "a.py" .python (enabledRules hasty) hasty o.text).map FixOutcome.text =
        (fixText "a.py" .python (enabledRules hasty) { hasty with maxFixIterations := 2 } crowded).map
          FixOutcome.text := by
  constructor
  · have hb : ((parse .python (.ofString "y = 1\n")).toOption.filter fun p => p.fault?.isNone &&
        (matchTree p (enabledRules .default) .default).toOption.any List.isEmpty).isSome = true := by
      decide +kernel
    obtain ⟨p, hb⟩ := Option.isSome_iff_exists.1 hb
    simp only [Option.filter_eq_some_iff, toOption_eq_some, Bool.and_eq_true, Option.isNone_iff_eq_none,
      Option.any_eq_true, List.isEmpty_iff] at hb
    obtain ⟨hp, hfault, found, hfound, rfl⟩ := hb
    obtain ⟨o, ho, hend, -⟩ := fixText_silent "a.py" hp hfault hfound
    refine ⟨o, ho, hend, (fixText_idempotent ho).1 ?_⟩
    rw [hend]
    exact nofun
  · obtain ⟨once, twice, honce, -⟩ := fixedText_crowded "a.py"
    obtain ⟨o, ho, -⟩ := exists_of_fixedText honce
    exact ⟨o, ho, (fixText_idempotent ho).2⟩

/-- A single round leaves something to a second run. -/
theorem fixText_twice_hasty : ∃ o o',
    fixText "a.py" .python (enabledRules hasty) hasty crowded = .ok o ∧
      fixText "a.py" .python (enabledRules hasty) hasty o.text = .ok o' ∧ o'.text ≠ o.text := by
  obtain ⟨once, twice, honce, htwice, hne⟩ := fixedText_crowded "a.py"
  obtain ⟨o, ho, hotext⟩ := exists_of_fixedText honce
  rw [← hotext] at htwice hne
  obtain ⟨o', ho', ho'text⟩ := exists_of_fixedText htwice
  refine ⟨o, o', ho, ho', ?_⟩
  rw [ho'text]
  exact hne

end HouseStyle
