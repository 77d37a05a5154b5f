import HouseStyle.Fix.Loop
import HouseStyle.Proofs.Check.Walk
import HouseStyle.Proofs.Parse.Parsed
import HouseStyle.Proofs.Text.Selection
import HouseStyle.Rule.PropertyOrder
import HouseStyle.Rule.ZeroUnit
import Mathlib.Tactic.Common

/-!
# What the rounds of fixing promise

Rules are arbitrary here: each may crash, and may offer any edit.

* `Tried`: the texts that a run parses, the first one and each result of a round.
* `FixContract`: what holds of the outcome of a run.
* `fixText_contract`: a run has an outcome exactly when no text that it tries loses
  a line, and every outcome fulfils the contract. A text that loses a line is one
  whose carriage returns end lines for the grammar of modules alone.
-/

namespace HouseStyle

variable {path : String} {language : Language} {rules : List Rule} {settings : Settings}
  {t u : Source}

/-! ### Parsing and checking -/

/-- Whether a text has a tree. -/
def Parses (language : Language) (t : Source) : Prop :=
  ∃ p, parse language t = .ok p ∧ p.fault? = none

/-- Rules that have settings check every parsed text. -/
theorem checkParsed_ok (hr : ∀ r ∈ rules, (RuleId.ofName? r.id).isSome) (settings : Settings)
    (p : Parsed) :
    ∃ c, checkParsed p rules settings = .ok c := by
  unfold checkParsed
  split
  · exact ⟨_, rfl⟩
  have hm : ∃ found, matchTree p rules settings = .ok found := by
    unfold matchTree
    split
    · exact ⟨_, rfl⟩
    · exact walkFrames_ok (fun kind r h => hr r (List.mem_filter.1 h).1) _
  obtain ⟨found, hf⟩ := hm
  rw [hf]; exact ⟨_, rfl⟩

/-! ### Choosing edits -/

/-- A text that has edits left was parsed. -/
theorem fault?_of_selectedEdits {p : Parsed} {c : Checked} (hc : checkParsed p rules settings = .ok c)
    (hne : selectedEdits t c ≠ []) : p.fault? = none := by
  cases hf : p.fault? with
  | none => rfl
  | some fault =>
    simp only [checkParsed, hf] at hc
    cases hc
    exact absurd (show selectedEdits t ⟨unparsedReport fault, []⟩ = [] from Edit.select_nil) hne

theorem mem_fixEdits_inside {c : Checked} {e : Edit} (h : e ∈ fixEdits t c) : e.span.stop ≤ t.size := by
  obtain ⟨f, -, hf⟩ := List.mem_filterMap.1 h
  unfold Finding.edit? at hf
  split at hf
  · split at hf
    · rename_i hin
      cases hf; exact hin.1
    · cases hf
  · cases hf

/-- **The edits chosen for a text can be performed on it.** -/
theorem applyAll_selectedEdits (t : Source) (c : Checked) :
    ∃ cs, Edit.applyAll t.chars.toList (selectedEdits t c) = .ok cs := by
  apply Edit.applyAll_of_apart (Edit.select_apart _)
  intro e he
  exact mem_fixEdits_inside (Edit.mem_of_mem_select he)

/-! ### The rounds -/

/-- **What a round does**: its edits are performed and the result is parsed. A result without a
tree is given up, any other one is checked. -/
theorem fixRound_cases {s : FixState} {edits : List Edit} {r : FixRound}
    (h : fixRound language rules settings s edits = .ok r) :
    ∃ cs p, Edit.applyAll s.parsed.text.chars.toList edits = .ok cs ∧
      parse language (.ofChars cs.toArray) = .ok p ∧
      ((∃ u, p.fault? = some u ∧ r = .discard u.fault) ∨
        ∃ c, p.fault? = none ∧ checkParsed p rules settings = .ok c ∧
          r = .next { parsed := p, checked := c, iterations := s.iterations + 1
                      editsApplied := s.editsApplied + edits.length }) := by
  unfold fixRound at h
  split at h
  · cases h
  rename_i cs hcs
  split at h
  · cases h
  rename_i p hp
  refine ⟨cs, p, hcs, hp, ?_⟩
  split at h
  · rename_i u hu
    cases h
    exact .inl ⟨u, hu, rfl⟩
  · rename_i hfault
    split at h
    · cases h
    · rename_i c hc
      cases h
      exact .inr ⟨c, hfault, hc, rfl⟩

theorem fixFrom_settled {s : FixState} (h : s.selected = []) (rounds : Nat) :
    fixFrom path language rules settings rounds s = .ok (s.finish .settled (s.selectionLog path)) := by
  have hemp : s.selected.isEmpty = true := by rw [h]; rfl
  cases rounds <;> simp only [fixFrom, hemp, if_true]

theorem fixFrom_zero {s : FixState} (h : s.selected ≠ []) :
    fixFrom path language rules settings 0 s =
      .ok (s.finish .exhausted (s.selectionLog path ++ [s.exhaustedLine path])) := by
  have hemp : s.selected.isEmpty = false := by simpa using h
  simp only [fixFrom, hemp, Bool.false_eq_true, if_false]

theorem fixFrom_failed {s : FixState} (h : s.selected ≠ []) {f : Failure}
    (hr : fixRound language rules settings s s.selected = .error f) (rounds : Nat) :
    fixFrom path language rules settings (rounds + 1) s = .error f := by
  have hemp : s.selected.isEmpty = false := by simpa using h
  simp only [fixFrom, hemp, Bool.false_eq_true, if_false, hr]

theorem fixFrom_discard {s : FixState} (h : s.selected ≠ []) {fault : ParseFault}
    (hr : fixRound language rules settings s s.selected = .ok (.discard fault)) (rounds : Nat) :
    fixFrom path language rules settings (rounds + 1) s =
      .ok ({ s with iterations := s.iterations + 1 }.finish (.discarded fault)
        (s.selectionLog path ++ [discardedLine path fault])) := by
  have hemp : s.selected.isEmpty = false := by simpa using h
  simp only [fixFrom, hemp, Bool.false_eq_true, if_false, hr]

theorem fixFrom_next {s s' : FixState} (h : s.selected ≠ [])
    (hr : fixRound language rules settings s s.selected = .ok (.next s')) (rounds : Nat) :
    fixFrom path language rules settings (rounds + 1) s =
      (fixFrom path language rules settings rounds s').map
        (FixOutcome.after (s.selectionLog path ++ roundLog path s' s.selected)) := by
  have hemp : s.selected.isEmpty = false := by simpa using h
  simp only [fixFrom, hemp, Bool.false_eq_true, if_false, hr]
  cases fixFrom path language rules settings rounds s' <;> rfl

/-! ### Runs -/

/-- The texts that a run parses: the first one, and the result of each round on a
text that was parsed and has edits left. -/
inductive Tried (language : Language) (rules : List Rule) (settings : Settings) (t : Source) :
    Nat → Source → Prop
  | start : Tried language rules settings t 0 t
  | round {n : Nat} {u : Source} {p : Parsed} {c : Checked} {cs : List Char}
      (before : Tried language rules settings t n u) (bound : n < settings.maxFixIterations)
      (parsed : parse language u = .ok p) (tree : p.fault? = none)
      (checked : checkParsed p rules settings = .ok c) (edits : selectedEdits u c ≠ [])
      (result : Edit.applyAll u.chars.toList (selectedEdits u c) = .ok cs) :
      Tried language rules settings t (n + 1) (.ofChars cs.toArray)

theorem Tried.le {n : Nat} (h : Tried language rules settings t n u) :
    n ≤ settings.maxFixIterations := by
  cases h with
  | start => exact Nat.zero_le _
  | round _ bound => exact bound

/-- No text that a run tries loses a line. -/
def KeepsLines (language : Language) (rules : List Rule) (settings : Settings) (t : Source) : Prop :=
  ∀ n u, Tried language rules settings t n u → parse language u ≠ .error .lostLine

/-- **What the outcome of fixing a text promises.** -/
structure FixContract (language : Language) (rules : List Rule) (settings : Settings) (t : Source)
    (o : FixOutcome) : Prop where
  /-- A text that parses is left as one that parses. -/
  parses : Parses language t → Parses language o.text
  /-- A text that does not parse is left alone. -/
  untouched : ¬ Parses language t → o.text = t ∧ o.iterations = 0 ∧ o.editsApplied = 0
  /-- The report is the one that a fresh parse gives. -/
  fresh : ∃ p, parse language o.text = .ok p ∧ checkParsed p rules settings = .ok o.checked
  bounded : o.iterations ≤ settings.maxFixIterations
  converged : o.converged = true ↔ selectedEdits o.text o.checked = []
  /-- A run that did not converge is out of rounds, or its last result does not
  parse. -/
  unsettled : o.converged = false → o.iterations = settings.maxFixIterations ∨
    ∃ cs, Edit.applyAll o.text.chars.toList (selectedEdits o.text o.checked) = .ok cs ∧
      ¬ Parses language (.ofChars cs.toArray)

theorem FixContract.after {o : FixOutcome} (h : FixContract language rules settings t o)
    (log : List LogLine) : FixContract language rules settings t (o.after log) :=
  ⟨h.parses, h.untouched, h.fresh, h.bounded, h.converged, h.unsettled⟩

/-- **The invariant of the rounds**: all parts of a state describe one text. -/
structure FixState.Sound (language : Language) (rules : List Rule) (settings : Settings) (t : Source)
    (s : FixState) : Prop where
  parsed : parse language s.parsed.text = .ok s.parsed
  checked : checkParsed s.parsed rules settings = .ok s.checked
  tried : Tried language rules settings t s.iterations s.parsed.text
  parses : Parses language t → s.parsed.fault? = none
  untouched : ¬ Parses language t → s.parsed.text = t ∧ s.iterations = 0 ∧ s.editsApplied = 0

theorem FixState.Sound.initial {p : Parsed} {c : Checked} (hp : parse language t = .ok p)
    (hc : checkParsed p rules settings = .ok c) :
    FixState.Sound language rules settings t
      { parsed := p, checked := c, iterations := 0, editsApplied := 0 } := by
  have ht := parse_text hp
  subst ht
  refine ⟨hp, hc, .start, ?_, fun _ => ⟨rfl, rfl, rfl⟩⟩
  rintro ⟨q, hq, htree⟩
  rw [hp] at hq; cases hq; exact htree

/-- The outcome of a state with no edits left, or whose rounds are used up, or whose
last result was discarded, fulfils the contract. -/
theorem FixState.Sound.finish {s : FixState} (hs : s.Sound language rules settings t)
    {rounds : Nat} (hb : rounds ≤ settings.maxFixIterations) {ending : FixEnding} {log : List LogLine}
    (hconv : ending = .settled ↔ s.selected = [])
    (hrest : ending ≠ .settled → rounds = settings.maxFixIterations ∨
      ∃ cs, Edit.applyAll s.parsed.text.chars.toList s.selected = .ok cs ∧
        ¬ Parses language (.ofChars cs.toArray))
    (huntouched : ¬ Parses language t → rounds = 0) :
    FixContract language rules settings t ({ s with iterations := rounds }.finish ending log) := by
  have hset : ({ s with iterations := rounds }.finish ending log).converged = true ↔
      ending = .settled := by
    unfold FixOutcome.converged FixState.finish
    exact beq_iff_eq
  refine ⟨fun h => ⟨s.parsed, hs.parsed, hs.parses h⟩, fun h => ?_, ⟨s.parsed, hs.parsed, hs.checked⟩,
    hb, hset.trans hconv, fun h => hrest fun he => ?_⟩
  · exact ⟨(hs.untouched h).1, huntouched h, (hs.untouched h).2.2⟩
  · rw [hset.2 he] at h; cases h

/-- The outcome of a state with no edits left fulfils the contract. -/
theorem FixState.Sound.settled {s : FixState} (hs : s.Sound language rules settings t)
    (hne : s.selected = []) {log : List LogLine} :
    FixContract language rules settings t (s.finish .settled log) :=
  hs.finish hs.tried.le ⟨fun _ => hne, fun _ => rfl⟩ (fun h => absurd rfl h)
    fun h => (hs.untouched h).2.1

/-- **One round.** The result of a round is tried; it is discarded when it does not
parse, and otherwise the next state is sound. -/
theorem FixState.Sound.round {s : FixState} (hs : s.Sound language rules settings t)
    (hr : ∀ r ∈ rules, (RuleId.ofName? r.id).isSome) (hk : KeepsLines language rules settings t)
    (hb : s.iterations < settings.maxFixIterations) (hne : s.selected ≠ []) :
    Parses language t ∧ ((∃ fault cs, fixRound language rules settings s s.selected = .ok (.discard fault) ∧
        Edit.applyAll s.parsed.text.chars.toList s.selected = .ok cs ∧
        ¬ Parses language (.ofChars cs.toArray)) ∨
      ∃ s', fixRound language rules settings s s.selected = .ok (.next s') ∧
        s'.iterations = s.iterations + 1 ∧ s'.Sound language rules settings t) := by
  have htree : s.parsed.fault? = none := fault?_of_selectedEdits hs.checked hne
  -- the first text parses: otherwise it is still the current one, and has no edits
  have ht : Parses language t := by
    by_contra h
    have heq := (hs.untouched h).1
    exact h ⟨s.parsed, by rw [← heq]; exact hs.parsed, htree⟩
  obtain ⟨cs, hcs⟩ := applyAll_selectedEdits s.parsed.text s.checked
  have htried := Tried.round hs.tried hb hs.parsed htree hs.checked hne hcs
  have hsel : Edit.applyAll s.parsed.text.chars.toList s.selected = .ok cs := hcs
  refine ⟨ht, ?_⟩
  cases hp : parse language (.ofChars cs.toArray) with
  | error f =>
    have hf := parse_lostLine hp
    subst hf
    exact absurd hp (hk _ _ htried)
  | ok p =>
    have hpt := parse_text hp
    cases hfault : p.fault? with
    | some v =>
      left
      refine ⟨v.fault, cs, ?_, hsel, ?_⟩
      · simp only [fixRound, hsel, hp, hfault]
      · rintro ⟨q, hq, hqt⟩
        rw [hp] at hq; cases hq
        rw [hfault] at hqt; cases hqt
    | none =>
      right
      obtain ⟨c, hc⟩ := checkParsed_ok hr settings p
      refine ⟨{ parsed := p, checked := c, iterations := s.iterations + 1
                editsApplied := s.editsApplied + s.selected.length }, ?_, rfl, ?_⟩
      · simp only [fixRound, hsel, hp, hfault, hc]
      · refine ⟨by rw [hpt]; exact hp, hc, by rw [hpt]; exact htried, fun _ => hfault, ?_⟩
        exact fun h => absurd ht h

/-- **Every run from a sound state fulfils the contract**, by induction on the
rounds left. -/
theorem fixFrom_contract (hr : ∀ r ∈ rules, (RuleId.ofName? r.id).isSome)
    (hk : KeepsLines language rules settings t) :
    ∀ (rounds : Nat) (s : FixState), s.Sound language rules settings t →
      s.iterations + rounds = settings.maxFixIterations →
      ∃ o, fixFrom path language rules settings rounds s = .ok o ∧
        FixContract language rules settings t o := by
  intro rounds
  induction rounds with
  | zero =>
    intro s hs hn
    by_cases hne : s.selected = []
    · exact ⟨_, fixFrom_settled hne 0, hs.settled hne⟩
    · refine ⟨_, fixFrom_zero hne, ?_⟩
      exact hs.finish (by omega) ⟨fun h => (nomatch h), fun h => absurd h hne⟩ (fun _ => Or.inl hn)
        fun h => (hs.untouched h).2.1
  | succ rounds ih =>
    intro s hs hn
    by_cases hne : s.selected = []
    · exact ⟨_, fixFrom_settled hne _, hs.settled hne⟩
    · obtain ⟨ht, ⟨fault, cs, hround, hcs, hbad⟩ | ⟨s', hround, hit, hs'⟩⟩ :=
        hs.round hr hk (by omega) hne
      · refine ⟨_, fixFrom_discard hne hround rounds, ?_⟩
        exact hs.finish (by omega) ⟨fun h => (nomatch h), fun h => absurd h hne⟩
          (fun _ => Or.inr ⟨cs, hcs, hbad⟩) fun h => absurd ht h
      · obtain ⟨o, ho, hcontract⟩ := ih s' hs' (by omega)
        refine ⟨_, ?_, hcontract.after (s.selectionLog path ++ roundLog path s' s.selected)⟩
        rw [fixFrom_next hne hround, ho]; rfl

/-! ### Texts that lose a line -/

/-- **A run passes through every text that it tries.** Where such a text loses a line
so does the run, and otherwise the run goes on from there. -/
theorem fixText_of_tried {n : Nat}
    (h : Tried language rules settings t n u) :
    (parse language u = .error .lostLine → fixText path language rules settings t = .error .lostLine) ∧
      ∀ p c, parse language u = .ok p → p.fault? = none → checkParsed p rules settings = .ok c →
        ∃ applied log, fixText path language rules settings t =
          (fixFrom path language rules settings (settings.maxFixIterations - n)
            { parsed := p, checked := c, iterations := n, editsApplied := applied }).map
              (FixOutcome.after log) := by
  induction h with
  | start =>
    refine ⟨fun h => by simp only [fixText, h], fun p c hp _ hc => ⟨0, firstLog path p c, ?_⟩⟩
    simp only [fixText, hp, hc, Nat.sub_zero]
    cases fixFrom path language rules settings settings.maxFixIterations
        { parsed := p, checked := c, iterations := 0, editsApplied := 0 } with
    | error f => rfl
    | ok o => rfl
  | @round n u p c cs hbefore hbound hparse htree hcheck hedits happly ih =>
    obtain ⟨applied, log, hrun⟩ := ih.2 p c hparse htree hcheck
    have hpt := parse_text hparse
    subst hpt
    set s : FixState := { parsed := p, checked := c, iterations := n, editsApplied := applied } with hs
    have hsel : Edit.applyAll s.parsed.text.chars.toList s.selected = .ok cs := happly
    obtain ⟨k, hk⟩ : ∃ k, settings.maxFixIterations - n = k + 1 :=
      ⟨settings.maxFixIterations - n - 1, by omega⟩
    have hk' : settings.maxFixIterations - (n + 1) = k := by omega
    have hne : s.selected ≠ [] := hedits
    -- the run came to the text before, and there is a round left
    rw [hrun, hk, hk']
    constructor
    · intro hlost
      have hround : fixRound language rules settings s s.selected = .error .lostLine := by
        simp only [fixRound, hsel, hlost]
      rw [fixFrom_failed hne hround]; rfl
    · intro p' c' hp' htree' hc'
      set s' : FixState :=
        { parsed := p', checked := c', iterations := n + 1, editsApplied := applied + s.selected.length }
      have hround : fixRound language rules settings s s.selected = .ok (.next s') := by
        simp only [fixRound, hsel, hp', htree', hc']
        rfl
      refine ⟨applied + s.selected.length, log ++ (s.selectionLog path ++ roundLog path s' s.selected), ?_⟩
      rw [fixFrom_next hne hround]
      cases fixFrom path language rules settings k s' with
      | error f => rfl
      | ok o => simp only [Except.map, FixOutcome.after, List.append_assoc]

/-- **The contract of fixing.** A run has an outcome that fulfils the contract exactly
when no text that it tries loses a line; otherwise it ends with that failure. No
stylesheet ever loses a line. -/
theorem fixText_contract (hr : ∀ r ∈ rules, (RuleId.ofName? r.id).isSome) :
    ((∃ o, fixText path language rules settings t = .ok o ∧ FixContract language rules settings t o) ↔
        KeepsLines language rules settings t) ∧
      (¬ KeepsLines language rules settings t →
        fixText path language rules settings t = .error .lostLine) ∧
      (language ≠ .python → KeepsLines language rules settings t) := by
  have hlost : ¬ KeepsLines language rules settings t →
      fixText path language rules settings t = .error .lostLine := by
    intro h
    unfold KeepsLines at h
    push Not at h
    obtain ⟨n, u, htried, hbad⟩ := h
    exact (fixText_of_tried htried).1 hbad
  refine ⟨⟨?_, ?_⟩, hlost, ?_⟩
  · -- a run that ends with a failure has no outcome
    rintro ⟨o, ho, -⟩
    by_contra h
    rw [hlost h] at ho; cases ho
  · intro hk
    cases hp : parse language t with
    | error f =>
      have hf := parse_lostLine hp
      subst hf
      exact absurd hp (hk _ _ .start)
    | ok p =>
      obtain ⟨c, hc⟩ := checkParsed_ok hr settings p
      obtain ⟨o, ho, hcontract⟩ := @fixFrom_contract path _ _ _ _ hr hk settings.maxFixIterations _
        (FixState.Sound.initial hp hc) (Nat.zero_add _)
      refine ⟨_, ?_, hcontract.after (firstLog path p c)⟩
      simp only [fixText, hp, hc, ho]
  · -- only modules lose lines
    intro hl n u _ hbad
    obtain ⟨p, hp⟩ := parse_stylesheet (t := u) hl
    rw [hp] at hbad; cases hbad

theorem fixText_contract_style :
    (∀ r ∈ [propertyOrder, zeroUnit], (RuleId.ofName? r.id).isSome) ∧
      ∃ o, fixText "a.css" .css [propertyOrder, zeroUnit] .default (.ofString "a\x7bb:0px\x7d") = .ok o ∧
        FixContract .css [propertyOrder, zeroUnit] .default (.ofString "a\x7bb:0px\x7d") o := by
  have hr : ∀ r ∈ [propertyOrder, zeroUnit], (RuleId.ofName? r.id).isSome := by decide
  obtain ⟨hiff, -, hstyle⟩ := @fixText_contract "a.css" .css [propertyOrder, zeroUnit] .default
    (.ofString "a\x7bb:0px\x7d") hr
  exact ⟨hr, hiff.2 (hstyle (by decide))⟩

/-- A module whose second line begins after a carriage return alone has no outcome,
not even without rules. -/
theorem fixText_lone_return :
    1 ≤ Settings.default.maxFixIterations ∧
      ¬ ∃ o, fixText "m.py" .python [] .default (.ofChars #['x', '\r', 'y']) = .ok o := by
  have hb : (parse .python (.ofChars #['x', '\r', 'y'])).isOk = false := by decide +kernel
  refine ⟨by decide, ?_⟩
  rintro ⟨o, ho⟩
  cases hp : parse .python (.ofChars #['x', '\r', 'y']) with
  | error f => simp only [fixText, hp] at ho; cases ho
  | ok p => rw [hp] at hb; cases hb

end HouseStyle
