import HouseStyle.Proofs.Fix.Contract

/-!
# A settled text stays as it is

A run that ends because no edit is left, or because its last result does not parse, would
end at once when begun with its own text.

* `FixState.Fresh`: a state holds what a fresh parse and check of its text give.
* `FixState.Rests`: no round leads on from a state, and why.
* `tried_of_fixFrom`: a run ends with a text that it tried.
* `rests_of_fixFrom`: a run that is not out of rounds ends in such a state.
* `fixText_fixed`: a settled text is a fixed point of fixing.
-/

namespace HouseStyle

variable {path : String} {language : Language} {rules : List Rule} {settings : Settings}
  {t : Source}

namespace FixState

/-- A state holds the tree and the findings of its text. -/
structure Fresh (language : Language) (rules : List Rule) (settings : Settings) (s : FixState) :
    Prop where
  parsed : parse language s.parsed.text = .ok s.parsed
  checked : checkParsed s.parsed rules settings = .ok s.checked

/-- No round leads on from a state: it has no edits left, or performing them is tried and
given up. -/
inductive Rests (language : Language) (rules : List Rule) (settings : Settings) (s : FixState) :
    FixEnding → Prop
  | settled (none : s.selected = []) : Rests language rules settings s .settled
  | discarded {fault : ParseFault} (some : s.selected ≠ []) (bound : 0 < settings.maxFixIterations)
      (round : fixRound language rules settings s s.selected = .ok (.discard fault)) :
      Rests language rules settings s (.discarded fault)

end FixState

/-! ### A round -/

/-- What a round leads to is fresh. -/
theorem fresh_of_fixRound {s s' : FixState} {edits : List Edit}
    (h : fixRound language rules settings s edits = .ok (.next s')) :
    s'.Fresh language rules settings := by
  obtain ⟨cs, p, -, hparsed, ⟨u, -, hr⟩ | ⟨c, -, hchecked, hr⟩⟩ := fixRound_cases h
  · cases hr
  · cases hr
    refine ⟨?_, hchecked⟩
    rw [parse_text hparsed]
    exact hparsed

/-- Whether a result is given up depends on the text alone, not on the rounds before. -/
theorem fixRound_discard {s s' : FixState} {edits : List Edit} {fault : ParseFault}
    (hp : s'.parsed = s.parsed) (h : fixRound language rules settings s edits = .ok (.discard fault)) :
    fixRound language rules settings s' edits = .ok (.discard fault) := by
  obtain ⟨cs, p, hcs, hparsed, ⟨u, hu, hr⟩ | ⟨c, -, -, hr⟩⟩ := fixRound_cases h
  · cases hr
    simp only [fixRound, hp, hcs, hparsed, hu]
  · cases hr

/-! ### Runs -/

/-- **A run that is not out of rounds ends in a state that no round leads on from**, by induction
on the rounds left. -/
theorem rests_of_fixFrom :
    ∀ (rounds : Nat) (s : FixState) (o : FixOutcome), rounds ≤ settings.maxFixIterations →
      s.Fresh language rules settings → fixFrom path language rules settings rounds s = .ok o →
      o.ending ≠ .exhausted →
      ∃ last : FixState, last.Fresh language rules settings ∧
        last.Rests language rules settings o.ending ∧
        last.parsed.text = o.text ∧ last.checked = o.checked := by
  intro rounds
  induction rounds with
  | zero =>
    intro s o _ hs ho hend
    by_cases hne : s.selected = []
    · rw [fixFrom_settled hne] at ho
      cases ho
      exact ⟨s, hs, .settled hne, rfl, rfl⟩
    · rw [fixFrom_zero hne] at ho
      cases ho
      exact absurd rfl hend
  | succ rounds ih =>
    intro s o hb hs ho hend
    by_cases hne : s.selected = []
    · rw [fixFrom_settled hne] at ho
      cases ho
      exact ⟨s, hs, .settled hne, rfl, rfl⟩
    cases hround : fixRound language rules settings s s.selected with
    | error f =>
      rw [fixFrom_failed hne hround] at ho
      cases ho
    | ok result =>
      cases result with
      | discard fault =>
        rw [fixFrom_discard hne hround] at ho
        cases ho
        exact ⟨s, hs, .discarded hne (by omega) hround, rfl, rfl⟩
      | next s' =>
        rw [fixFrom_next hne hround] at ho
        cases hrest : fixFrom path language rules settings rounds s' with
        | error f =>
          rw [hrest] at ho
          cases ho
        | ok o' =>
          rw [hrest] at ho
          cases ho
          exact ih s' o' (by omega) (fresh_of_fixRound hround) hrest hend

/-- **A run ends with one of the texts that it tries**, by induction on the rounds left. -/
theorem tried_of_fixFrom (rounds : Nat) : ∀ {s : FixState} {o : FixOutcome}, s.Fresh language rules settings →
    Tried language rules settings t s.iterations s.parsed.text → s.iterations + rounds = settings.maxFixIterations →
      fixFrom path language rules settings rounds s = .ok o → ∃ n, Tried language rules settings t n o.text := by
  induction rounds with
  | zero =>
    intro s o _ htried _ ho
    by_cases hne : s.selected = []
    · rw [fixFrom_settled hne] at ho
      cases ho
      exact ⟨_, htried⟩
    · rw [fixFrom_zero hne] at ho
      cases ho
      exact ⟨_, htried⟩
  | succ rounds ih =>
    intro s o hs htried hn ho
    by_cases hne : s.selected = []
    · rw [fixFrom_settled hne] at ho
      cases ho
      exact ⟨_, htried⟩
    cases hround : fixRound language rules settings s s.selected with
    | error f =>
      rw [fixFrom_failed hne hround] at ho
      cases ho
    | ok result =>
      cases result with
      | discard fault =>
        rw [fixFrom_discard hne hround] at ho
        cases ho
        exact ⟨_, htried⟩
      | next s' =>
        obtain ⟨cs, p, hcs, hparsed, ⟨u, -, hr⟩ | ⟨c, -, -, hr⟩⟩ := fixRound_cases hround
        · cases hr
        · have hnext : Tried language rules settings t s'.iterations s'.parsed.text := by
            cases hr
            rw [parse_text hparsed]
            exact .round htried (by omega) hs.parsed (fault?_of_selectedEdits hs.checked hne) hs.checked hne hcs
          have hrounds : s'.iterations = s.iterations + 1 := by cases hr; rfl
          rw [fixFrom_next hne hround] at ho
          cases hrest : fixFrom path language rules settings rounds s' with
          | error f =>
            rw [hrest] at ho
            cases ho
          | ok o' =>
            rw [hrest] at ho
            cases ho
            obtain ⟨n, hn⟩ := ih (fresh_of_fixRound hround) hnext (by omega) hrest
            exact ⟨n, hn⟩

theorem tried_of_fixText {o : FixOutcome} (h : fixText path language rules settings t = .ok o) :
    ∃ n, Tried language rules settings t n o.text := by
  unfold fixText at h
  split at h
  · cases h
  rename_i p hp
  split at h
  · cases h
  rename_i c hc
  split at h
  · cases h
  rename_i last hlast
  cases h
  have hfresh : FixState.Fresh language rules settings
      { parsed := p, checked := c, iterations := 0, editsApplied := 0 } := ⟨by rw [parse_text hp]; exact hp, hc⟩
  have hstart : Tried language rules settings t 0 p.text := by
    rw [parse_text hp]
    exact .start
  obtain ⟨n, hn⟩ := tried_of_fixFrom _ hfresh hstart (Nat.zero_add _) hlast
  exact ⟨n, hn⟩

/-- **A run that begins where no round leads on ends there**, in the same way. -/
theorem fixText_of_rests (path : String) {s : FixState} {ending : FixEnding} (hs : s.Fresh language rules settings)
    (hr : s.Rests language rules settings ending) :
    ∃ o, fixText path language rules settings s.parsed.text = .ok o ∧ o.text = s.parsed.text ∧
      o.editsApplied = 0 ∧ o.checked = s.checked ∧ o.ending = ending := by
  set first : FixState := { parsed := s.parsed, checked := s.checked, iterations := 0, editsApplied := 0 }
    with hfirst
  have hsel : first.selected = s.selected := rfl
  have hrun : ∃ log iterations, fixFrom path language rules settings settings.maxFixIterations first =
      .ok ({ first with iterations }.finish ending log) := by
    cases hr with
    | settled hne =>
      rw [← hsel] at hne
      exact ⟨_, 0, fixFrom_settled hne _⟩
    | discarded hne hbound hround =>
      rw [← hsel] at hne hround
      obtain ⟨rounds, hrounds⟩ := Nat.exists_eq_add_one.2 hbound
      rw [hrounds]
      exact ⟨_, _, fixFrom_discard hne (fixRound_discard (s := s) rfl hround) rounds⟩
  obtain ⟨log, iterations, hrun⟩ := hrun
  refine ⟨({ first with iterations }.finish ending log).after (firstLog path s.parsed s.checked), ?_,
    rfl, rfl, rfl, rfl⟩
  simp only [fixText, hs.parsed, hs.checked, ← hfirst, hrun]

/-- **A settled text is a fixed point.** When a run ends because no edit is left or because its
last result does not parse, fixing its text again changes nothing and ends in the same way. -/
theorem fixText_fixed {o : FixOutcome} (h : fixText path language rules settings t = .ok o)
    (hend : o.converged = true ∨ ∃ fault, o.ending = .discarded fault) :
    ∃ o', fixText path language rules settings o.text = .ok o' ∧ o'.text = o.text ∧
      o'.editsApplied = 0 ∧ o'.checked.report = o.checked.report ∧ o'.converged = o.converged := by
  have hne : o.ending ≠ .exhausted := by
    rcases hend with hconv | ⟨fault, hfault⟩
    · rw [FixOutcome.converged, beq_iff_eq] at hconv
      rw [hconv]
      exact nofun
    · rw [hfault]
      exact nofun
  unfold fixText at h
  split at h
  · cases h
  rename_i p hp
  split at h
  · cases h
  rename_i c hc
  split at h
  · cases h
  rename_i first hfirst
  cases h
  have hfresh : FixState.Fresh language rules settings
      { parsed := p, checked := c, iterations := 0, editsApplied := 0 } :=
    ⟨by rw [parse_text hp]; exact hp, hc⟩
  obtain ⟨last, hlast, hrests, htext, hchecked⟩ := rests_of_fixFrom _ _ _ (Nat.le_refl _) hfresh hfirst hne
  obtain ⟨o', ho', ho'text, happlied, ho'checked, hending⟩ := fixText_of_rests path hlast hrests
  rw [htext] at ho' ho'text
  refine ⟨o', ho', ho'text, happlied, ?_, ?_⟩
  · rw [ho'checked, hchecked]
    rfl
  · rw [FixOutcome.converged, FixOutcome.converged, hending]
    rfl

/-! ### A rule whose edits are given up -/

/-- A rule that would add a brace too many to every stylesheet. -/
def unbalancing : Rule :=
  { propertyOrder with
    info := { propertyOrder.info with kinds := ["stylesheet"] }
    applies := fun _ => .ok true
    check := Rule.simpleCheck fun n c => [c.violation n.span ""]
    fix := fun v _ _ => .ok (some { span := .point 0, replacement := "\x7d", rule := v.rule }) }

theorem aggregate_single {u v : Violation} (hv : settle settings u = some v) :
    aggregate settings [u] = { violations := [v] } := by
  simp only [aggregate, firstOfEach, List.contains_nil, Bool.false_eq_true, if_false,
    List.filterMap_cons, hv, List.filterMap_nil, List.mergeSort_singleton]

/-- A single finding that the settings let be mended gives the only edit. -/
theorem selectedEdits_single {f : Finding} {v : Violation} {e : Edit}
    (hv : settle settings f.violation = some v) (hfix : v.fixable = true) (hkey : v.key = f.violation.key)
    (he : f.edit? t = some e) :
    selectedEdits t { report := aggregate settings [f.violation], findings := [f] } = [e] := by
  have hmend : mendable { report := { violations := [v] }, findings := [f] } = [f] := by
    simp only [mendable, fixableKeys, List.filter_cons_of_pos hfix, List.filter_nil, List.map_cons,
      List.map_nil, hkey, firstFindings, List.contains_cons, BEq.rfl, List.contains_nil, Bool.or_false,
      Bool.not_false, Bool.and_self, if_true]
  rw [aggregate_single hv, selectedEdits, fixEdits, hmend]
  simp only [List.filterMap_cons, he, List.filterMap_nil, Edit.select, Edit.sorted,
    List.mergeSort_singleton, List.foldl_cons, List.foldl_nil, Edit.keep, List.any_nil,
    Bool.false_eq_true, if_false, List.nil_append]

theorem fixText_fixed_unbalancing :
    ∃ o fault, fixText "a.css" .css [unbalancing] .default (.ofString "a\x7b\x7d") = .ok o ∧
      o.ending = .discarded fault ∧
      ∃ o', fixText "a.css" .css [unbalancing] .default o.text = .ok o' ∧ o'.text = o.text ∧
        o'.editsApplied = 0 ∧ o'.checked.report = o.checked.report ∧ o'.converged = o.converged := by
  set t : Source := .ofString "a\x7b\x7d" with ht
  set p : Parsed := parseStylesheet .css .css t with hp
  set e : Edit := { span := .point 0, replacement := "\x7d", rule := unbalancing.id } with he
  have hb : ((matchTree p [unbalancing] .default).toOption.bind fun found =>
      found.head?.bind fun f => (settle .default f.violation).filter fun v =>
        found.length == 1 && v.fixable && decide (v.key = f.violation.key) &&
          decide (f.edit? t = some e)).isSome = true := by
    rw [hp, he, ht]
    decide +kernel
  have hfault : ((parseStylesheet .css .css (.ofChars (Edit.splice t.chars.toList e).toArray)).fault?).isSome =
      true := by
    rw [he, ht]
    decide +kernel
  have htree : p.fault?.isNone = true := by
    rw [hp, ht]
    decide +kernel
  have htext : p.text = t := parseStylesheet_text _ _ _
  rw [Option.isNone_iff_eq_none] at htree
  obtain ⟨u, hfault⟩ := Option.isSome_iff_exists.1 hfault
  obtain ⟨v, hb⟩ := Option.isSome_iff_exists.1 hb
  simp only [Option.bind_eq_some_iff, toOption_eq_some, Option.filter_eq_some_iff, Bool.and_eq_true,
    beq_iff_eq, decide_eq_true_eq] at hb
  obtain ⟨found, hfound, f, hhead, hv, ⟨⟨hlen, hfix⟩, hkey⟩, hedit⟩ := hb
  obtain ⟨g, rfl⟩ := List.length_eq_one_iff.1 hlen
  cases hhead
  set c : Checked := { report := aggregate .default [f.violation], findings := [f] } with hc
  set s : FixState := { parsed := p, checked := c, iterations := 0, editsApplied := 0 } with hs
  have hfresh : s.Fresh .css [unbalancing] .default := by
    refine ⟨by rw [hs, htext]; rfl, ?_⟩
    simp only [hs, hc, checkParsed, htree, hfound, List.map_cons, List.map_nil]
  rw [← htext] at hedit
  have hsel : s.selected = [e] := selectedEdits_single hv hfix hkey hedit
  have hround : fixRound .css [unbalancing] .default s [e] = .ok (.discard u.fault) := by
    have happly : Edit.applyAll s.parsed.text.chars.toList [e] = .ok (Edit.splice t.chars.toList e) := by
      rw [hs, htext]
      exact Edit.applyAll_singleton (Nat.zero_le _)
    simp only [fixRound, happly, parse, hfault]
  have hrests : s.Rests .css [unbalancing] .default (.discarded u.fault) :=
    .discarded (by rw [hsel]; exact List.cons_ne_nil _ _) (by decide) (by rw [hsel]; exact hround)
  obtain ⟨o, ho, -, -, -, hend⟩ := fixText_of_rests "a.css" hfresh hrests
  rw [hs, htext] at ho
  exact ⟨o, u.fault, ho, hend, fixText_fixed ho (.inr ⟨u.fault, hend⟩)⟩

end HouseStyle
