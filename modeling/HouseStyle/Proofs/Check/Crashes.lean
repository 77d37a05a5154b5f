import HouseStyle.Proofs.Check.Aggregation
import HouseStyle.Proofs.Check.Traversal
import HouseStyle.Rule.BorderNone
import HouseStyle.Rule.Forbidden

/-!
# What a report tells of crashes

A rule that crashes at a node is a finding under an identifier that all crashes share, at the span
of the node. A report keeps one violation of each identifier at each span, so of several crashes at
one span it tells the first.

* `Turn.crash?`: how a rule crashes in its turn.
* `tells_iff`: a crash is told exactly when the first finding at its place says the same.
* `others_reported`: what else is reported is what the rules find in the turns without a crash.
* `checkParsed_crashes`: **the report of a check tells of crashes in this way, and only a rule
  without settings keeps a text from being reported.**
-/

namespace HouseStyle

variable {settings : Settings} {us before after : List Turn} {u : Turn} {crash : Crash}

/-! ### Turns that end in a crash -/

/-- How a rule crashes in its turn. -/
def Turn.crash? (u : Turn) : Option Crash :=
  match u.rule.applies u.node with
  | .error crash => some crash
  | .ok false => none
  | .ok true =>
    match (u.rule.check u.node u.context u.memory).1 with
    | .error crash => some crash
    | .ok _ => none

/-- A turn that ends in a crash finds the crash and nothing else. -/
theorem found_of_crash (h : u.crash? = some crash) :
    u.found = [crashFinding u.rule u.node u.context (crashMessage u.rule u.node crash)] := by
  unfold Turn.crash? at h
  unfold Turn.found runRule
  cases happlies : u.rule.applies u.node with
  | error e =>
    rw [happlies] at h
    cases h
    rfl
  | ok applies =>
    rw [happlies] at h
    cases applies with
    | false => cases h
    | true =>
      rcases hcheck : u.rule.check u.node u.context u.memory with ⟨result, memory⟩
      rw [hcheck] at h
      cases result with
      | error e =>
        cases h
        rfl
      | ok vs => cases h

/-- The violations that turns lead to, in order. -/
def violationsOf (us : List Turn) : List Violation :=
  (us.flatMap Turn.found).map Finding.violation

theorem violationsOf_append (us vs : List Turn) : violationsOf (us ++ vs) = violationsOf us ++ violationsOf vs := by
  simp [violationsOf]

theorem violationsOf_cons (u : Turn) (us : List Turn) :
    violationsOf (u :: us) = u.found.map Finding.violation ++ violationsOf us := by
  simp [violationsOf]

theorem violationsOf_crash (h : u.crash? = some crash) :
    violationsOf [u] = [(crashFinding u.rule u.node u.context (crashMessage u.rule u.node crash)).violation] := by
  simp [violationsOf, found_of_crash h]

/-! ### Where crashes are reported -/

/-- The key of a crash in a turn: the span of the node, as far as it lies in the text. -/
def Turn.crashKey (u : Turn) : String × Span :=
  (ruleCrashId, u.node.span.clamp u.context.text.size)

/-- A report tells of a crash: at its place it names the rule, the kind of the node and what was
raised. -/
def Tells (r : Report) (u : Turn) (crash : Crash) : Prop :=
  ∃ v ∈ r.violations, v.key = u.crashKey ∧ v.message = crashMessage u.rule u.node crash

theorem isInternalId_of_key {v : Violation} (h : v.key = u.crashKey) : isInternalId v.rule = true := by
  have hrule : v.rule = ruleCrashId := congrArg Prod.fst h
  rw [hrule]
  decide

/-- The place of a crash keeps the first finding there as it is. -/
theorem atKey_crashKey (settings : Settings) (vs : List Violation) (u : Turn) :
    atKey u.crashKey (aggregate settings vs).violations = atKey u.crashKey vs := by
  rw [atKey_aggregate]
  cases h : atKey u.crashKey vs with
  | none => rfl
  | some v => exact settle_eq_some_iff.2 (.own (isInternalId_of_key (key_of_atKey h)))

/-- The first finding at the place of a crash is one of an earlier turn, or tells of the crash. -/
theorem atKey_of_crash (h : u.crash? = some crash) :
    atKey u.crashKey (violationsOf (before ++ u :: after)) =
      (atKey u.crashKey (violationsOf before)).or
        (some (crashFinding u.rule u.node u.context (crashMessage u.rule u.node crash)).violation) := by
  rw [violationsOf_append, violationsOf_cons, found_of_crash h, atKey_append]
  congr 1
  exact List.find?_cons_of_pos (beq_self_eq_true _)

/-- Each crash leaves a violation at its place. -/
theorem exists_of_crash (hu : u ∈ us) (h : u.crash? = some crash) :
    ∃ v ∈ (aggregate settings (violationsOf us)).violations, v.key = u.crashKey := by
  obtain ⟨before, after, rfl⟩ := List.append_of_mem hu
  obtain ⟨v, hv⟩ : ∃ v, atKey u.crashKey (violationsOf (before ++ u :: after)) = some v := by
    rw [atKey_of_crash h, ← Option.isSome_iff_exists]
    simp
  rw [← atKey_crashKey settings] at hv
  exact ⟨v, List.mem_of_find?_eq_some hv, key_of_atKey hv⟩

/-- **A crash is told exactly when the first finding at its place says the same.** -/
theorem tells_iff (h : u.crash? = some crash) :
    Tells (aggregate settings (violationsOf (before ++ u :: after))) u crash ↔
      ∀ v, atKey u.crashKey (violationsOf before) = some v → v.message = crashMessage u.rule u.node crash := by
  have hfirst : atKey u.crashKey (aggregate settings (violationsOf (before ++ u :: after))).violations =
      (atKey u.crashKey (violationsOf before)).or
        (some (crashFinding u.rule u.node u.context (crashMessage u.rule u.node crash)).violation) := by
    rw [atKey_crashKey, atKey_of_crash h]
  have hnodup := aggregate_nodup settings (violationsOf (before ++ u :: after))
  constructor
  · rintro ⟨w, hw, hkey, hmessage⟩ v hv
    rw [hv, Option.some_or, (atKey_eq_some_iff hnodup).2 ⟨hw, hkey⟩] at hfirst
    rw [← Option.some.inj hfirst, hmessage]
  · intro hall
    cases hv : atKey u.crashKey (violationsOf before) with
    | none =>
      rw [hv, Option.none_or] at hfirst
      exact ⟨_, List.mem_of_find?_eq_some hfirst, key_of_atKey hfirst, rfl⟩
    | some v =>
      rw [hv, Option.some_or] at hfirst
      exact ⟨v, List.mem_of_find?_eq_some hfirst, key_of_atKey hfirst, hall v hv⟩

/-! ### What else is reported -/

/-- The violations under other identifiers than that of crashes. -/
def notCrashes (vs : List Violation) : List Violation :=
  vs.filter fun v => v.rule != ruleCrashId

theorem part_notCrashes {name : String} (h : name ≠ ruleCrashId) (vs : List Violation) :
    part name (notCrashes vs) = part name vs := by
  rw [part, notCrashes, List.filter_filter, part]
  refine List.filter_congr fun v _ => ?_
  by_cases hname : v.rule = name
  · simp [hname, h]
  · simp [hname]

theorem part_notCrashes_crash (vs : List Violation) : part ruleCrashId (notCrashes vs) = [] := by
  rw [part, notCrashes, List.filter_filter, List.filter_eq_nil_iff]
  intro v _
  simp

theorem notCrashes_violationsOf (us : List Turn) :
    notCrashes (violationsOf us) = notCrashes (violationsOf (us.filter fun u => u.crash?.isNone)) := by
  induction us with
  | nil => rfl
  | cons u us ih =>
    rw [violationsOf_cons, notCrashes, List.filter_append, ← notCrashes, ← notCrashes, ih]
    cases h : u.crash? with
    | none =>
      rw [List.filter_cons_of_pos (by simp [h]), violationsOf_cons, notCrashes, notCrashes, notCrashes,
        List.filter_append]
    | some crash =>
      rw [List.filter_cons_of_neg (by simp [h]), found_of_crash h]
      rfl

/-- **What else is reported is what the rules find in the turns without a crash.** -/
theorem others_reported (settings : Settings) (us : List Turn) :
    notCrashes (aggregate settings (violationsOf us)).violations =
      (aggregate settings (notCrashes (violationsOf (us.filter fun u => u.crash?.isNone)))).violations := by
  -- identifier by identifier: that of crashes has nothing on either side
  refine eq_of_parts ((report_ordered settings _).filter _) (report_ordered settings _) fun name => ?_
  rw [part_report, ← notCrashes_violationsOf]
  by_cases hname : name = ruleCrashId
  · subst hname
    rw [part_notCrashes_crash, part_notCrashes_crash]
    simp [aggregate, firstOfEach]
  · rw [part_notCrashes hname, part_notCrashes hname, part_report]

/-! ### Checks -/

/-- What a report tells of the crashes in some turns. -/
structure TellsCrashes (settings : Settings) (us : List Turn) (r : Report) : Prop where
  /-- Each crash leaves a violation at its place. -/
  marked : ∀ u ∈ us, ∀ crash, u.crash? = some crash → ∃ v ∈ r.violations, v.key = u.crashKey
  /-- It is told unless an earlier turn led to something else at this place. -/
  told : ∀ before u after crash, us = before ++ u :: after → u.crash? = some crash →
    (Tells r u crash ↔
      ∀ v, atKey u.crashKey (violationsOf before) = some v → v.message = crashMessage u.rule u.node crash)
  /-- All else is reported as if no turn had ended in a crash. -/
  others : notCrashes r.violations =
    (aggregate settings (notCrashes (violationsOf (us.filter fun u => u.crash?.isNone)))).violations

/-- A walk that has no findings met a rule without settings. -/
theorem collect_error {e : Failure} (h : collect us = .error e) :
    ∃ u ∈ us, RuleId.ofName? u.rule.id = none ∧ e = .unknownRule u.rule.id := by
  induction us with
  | nil => cases h
  | cons u us ih =>
    simp only [collect] at h
    split at h
    · rename_i hid
      cases h
      exact ⟨u, List.mem_cons_self, Option.isNone_iff_eq_none.1 hid, rfl⟩
    · split at h
      · rename_i hrest
        cases h
        obtain ⟨v, hv, hfails⟩ := ih hrest
        exact ⟨v, List.mem_cons_of_mem _ hv, hfails⟩
      · cases h

/-- With settings for each rule that has a turn, the report is made of what the turns lead to. -/
theorem checkParsed_ok_of_turns {p : Parsed} {tree : Node} {rules : List Rule} (h : p.tree? = some tree)
    (hknown : ∀ u ∈ turns p.text settings (rulesAt p.language rules) tree, (RuleId.ofName? u.rule.id).isSome) :
    ∃ c, checkParsed p rules settings = .ok c ∧
      c.report = aggregate settings (violationsOf (turns p.text settings (rulesAt p.language rules) tree)) := by
  rw [checkParsed, fault?_of_tree? h, matchTree_eq rules settings h, collect_eq_ok_iff.2 ⟨hknown, rfl⟩]
  exact ⟨_, rfl, rfl⟩

/-- **What the check of a parsed text reports of crashes.** Each crash of a rule at a node leaves a
violation at the span of the node; the crash itself is told exactly when nothing else was found
there under the identifier of crashes before; and all that rules find without a crash is reported as
if there had been none. Only a rule without settings keeps the text from being reported. -/
theorem checkParsed_crashes {p : Parsed} {tree : Node} (rules : List Rule) (settings : Settings)
    (h : p.tree? = some tree) :
    match checkParsed p rules settings with
    | .ok c => TellsCrashes settings (turns p.text settings (rulesAt p.language rules) tree) c.report
    | .error e => ∃ u ∈ turns p.text settings (rulesAt p.language rules) tree,
        RuleId.ofName? u.rule.id = none ∧ e = .unknownRule u.rule.id := by
  cases hfound : collect (turns p.text settings (rulesAt p.language rules) tree) with
  | error e =>
    rw [checkParsed, fault?_of_tree? h, matchTree_eq rules settings h, hfound]
    exact collect_error hfound
  | ok found =>
    obtain ⟨c, hc, hreport⟩ := checkParsed_ok_of_turns h (collect_eq_ok_iff.1 hfound).1
    rw [hc]
    simp only [hreport]
    refine ⟨fun u hu crash hcrash => exists_of_crash hu hcrash, ?_, others_reported settings _⟩
    intro before u after crash hus hcrash
    rw [hus]
    exact tells_iff hcrash

/-! ### Two crashes -/

/-- A crash with some text. -/
def crashOf (text : String) : Crash :=
  { kind := "RuntimeError", message := text }

/-- A rule that crashes at each rule of a stylesheet. -/
def failing (r : Rule) (text : String) : Rule :=
  { r with
    info := { r.info with kinds := ["rule"] }
    applies := fun _ => .ok true
    check := fun _ _ m => (.error (crashOf text), m) }

/-- The walk over a text is two turns that crash with some texts and are related in some way. -/
def crashTwice (first second : String) (related : Turn → Turn → Bool) (p : Parsed) (rules : List Rule) : Bool :=
  p.tree?.any fun tree =>
    match turns p.text .default (rulesAt p.language rules) tree with
    | [u, v] =>
      (RuleId.ofName? u.rule.id).isSome && (RuleId.ofName? v.rule.id).isSome &&
        u.crash? == some (crashOf first) && v.crash? == some (crashOf second) && related u v
    | _ => false

theorem of_crashTwice {first second : String} {related : Turn → Turn → Bool} {p : Parsed} {rules : List Rule}
    (h : crashTwice first second related p rules = true) :
    ∃ tree c u v, p.tree? = some tree ∧ checkParsed p rules .default = .ok c ∧
      turns p.text .default (rulesAt p.language rules) tree = [u, v] ∧
      c.report = aggregate .default (violationsOf [u, v]) ∧
      u.crash? = some (crashOf first) ∧ v.crash? = some (crashOf second) ∧ related u v = true := by
  obtain ⟨tree, htree, h⟩ := (Option.any_eq_true _ _).1 h
  split at h
  · rename_i u v hturns
    simp only [Bool.and_eq_true, beq_iff_eq] at h
    obtain ⟨⟨⟨⟨hu, hv⟩, hfirst⟩, hsecond⟩, hrelated⟩ := h
    have hknown : ∀ w ∈ turns p.text .default (rulesAt p.language rules) tree,
        (RuleId.ofName? w.rule.id).isSome := by
      rw [hturns]
      simp [hu, hv]
    obtain ⟨c, hc, hreport⟩ := checkParsed_ok_of_turns htree hknown
    exact ⟨tree, c, u, v, htree, hc, hturns, by rw [hreport, hturns], hfirst, hsecond, hrelated⟩
  · cases h

/-- A rule that crashes at both rules of `a{}b{}` is told twice. -/
theorem checkParsed_crashes_apart : ∃ p tree c u v,
    parse .css (.ofString "a\x7b\x7db\x7b\x7d") = .ok p ∧ p.tree? = some tree ∧
      checkParsed p [failing noExtend "boom"] .default = .ok c ∧
      turns p.text .default (rulesAt p.language [failing noExtend "boom"]) tree = [u, v] ∧
      TellsCrashes .default [u, v] c.report ∧
      Tells c.report u (crashOf "boom") ∧ Tells c.report v (crashOf "boom") := by
  obtain ⟨tree, c, u, v, htree, hc, hturns, -, hu, hv, hapart⟩ := of_crashTwice
    (show crashTwice "boom" "boom" (fun u v => u.crashKey != v.crashKey)
      (parseStylesheet .css .css (.ofString "a\x7b\x7db\x7b\x7d")) [failing noExtend "boom"] = true by
        decide +kernel)
  have htells := checkParsed_crashes [failing noExtend "boom"] .default htree
  rw [hc, hturns] at htells
  refine ⟨_, tree, c, u, v, rfl, htree, hc, hturns, htells, ?_, ?_⟩
  · exact (htells.told [] u [v] _ rfl hu).2 fun w hw => nomatch hw
  · refine (htells.told [u] v [] _ rfl hv).2 fun w hw => ?_
    have hfirst : w ∈ violationsOf [u] := List.mem_of_find?_eq_some hw
    rw [violationsOf_crash hu, List.mem_singleton] at hfirst
    have hkey : u.crashKey = v.crashKey := by
      rw [← key_of_atKey hw, hfirst]
      rfl
    exact absurd hkey (bne_iff_ne.1 hapart)

/-- **Of two rules that crash at one node only the first is told.** -/
theorem checkParsed_second_crash : ∃ p tree c u v,
    parse .css (.ofString "a\x7b\x7d") = .ok p ∧ p.tree? = some tree ∧
      checkParsed p [failing noExtend "first", failing borderNone "second"] .default = .ok c ∧
      turns p.text .default (rulesAt p.language [failing noExtend "first", failing borderNone "second"]) tree =
        [u, v] ∧
      v.crash? = some (crashOf "second") ∧ ¬ Tells c.report v (crashOf "second") := by
  obtain ⟨tree, c, u, v, htree, hc, hturns, hreport, hu, hv, hsame⟩ := of_crashTwice
    (show crashTwice "first" "second" (fun u v => u.crashKey == v.crashKey &&
        crashMessage u.rule u.node (crashOf "first") != crashMessage v.rule v.node (crashOf "second"))
      (parseStylesheet .css .css (.ofString "a\x7b\x7d"))
      [failing noExtend "first", failing borderNone "second"] = true by
        decide +kernel)
  rw [Bool.and_eq_true, beq_iff_eq, bne_iff_ne] at hsame
  refine ⟨_, tree, c, u, v, rfl, htree, hc, hturns, hv, ?_⟩
  rw [hreport, ← List.singleton_append, tells_iff hv]
  have hfirst : atKey v.crashKey (violationsOf [u]) =
      some (crashFinding u.rule u.node u.context (crashMessage u.rule u.node (crashOf "first"))).violation := by
    rw [violationsOf_crash hu, ← hsame.1]
    exact List.find?_cons_of_pos (beq_self_eq_true _)
  exact fun hall => hsame.2 (hall _ hfirst)

end HouseStyle
