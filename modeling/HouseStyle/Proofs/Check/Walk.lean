import HouseStyle.Check.Walk
import Mathlib.Tactic.Common

/-!
# What a walk visits

* `runRules_forall`: what holds of the findings of each rule at a node holds of all its
  findings, given an invariant of the memories.
* `walkFrames_forall`: what holds of the findings of each step holds of all findings,
  given an invariant of the frames; `matchTree_forall`: what holds of the findings of each rule at
  each node holds of all findings in a tree.
* `runRules_ok`, `walkFrames_ok`: with settings for each rule a walk comes to its end.
-/

namespace HouseStyle

variable {t : Source} {settings : Settings}

theorem Memories.get_set_self (ms : Memories) (id : String) (m : Memory) : (ms.set id m).get id = m := by
  simp [Memories.get, Memories.set]

theorem Memories.get_set_of_ne (ms : Memories) {id id' : String} (m : Memory) (h : id ≠ id') :
    (ms.set id m).get id' = ms.get id' := by
  unfold Memories.get Memories.set
  rw [List.find?_cons_of_neg (by simpa using h), List.find?_filter]
  congr 3
  funext e
  by_cases he : e.1 = id'
  · simp [he, Ne.symm h]
  · simp [he]

theorem Memory.get?_set_self (m : Memory) (name : String) (value : Int) :
    (m.set name value).get? name = some value := by
  simp [Memory.get?, Memory.set]

/-- A finding tells its rule and what that saw. -/
theorem runRule_origin {r : Rule} {n : Node} {c : Context} {m : Memory} :
    ∀ f ∈ (runRule r n c m).1, f.rule = r ∧ f.context = c := by
  have hcrash : ∀ message, (crashFinding r n c message).rule = r ∧ (crashFinding r n c message).context = c :=
    fun _ => ⟨rfl, rfl⟩
  intro f hf
  unfold runRule at hf
  split at hf
  · rw [List.mem_singleton.1 hf]
    exact hcrash _
  · cases hf
  · split at hf
    · rw [List.mem_singleton.1 hf]
      exact hcrash _
    · obtain ⟨v, -, rfl⟩ := List.mem_map.1 hf
      unfold findingOf
      split
      · exact hcrash _
      · exact ⟨rfl, rfl⟩

/-- **One node.** What each rule finds there, and the memory it leaves, decides about all
findings there. -/
theorem runRules_forall {scope : Scope} {n : Node} (Inv : Memories → Prop) (P : Finding → Prop) :
    ∀ {rs : List Rule}, (∀ r ∈ rs, ∀ ms, Inv ms →
      (∀ f ∈ (runRule r n (contextFor t settings scope r) (ms.get r.id)).1, P f) ∧
        Inv (ms.set r.id (runRule r n (contextFor t settings scope r) (ms.get r.id)).2)) →
    ∀ {ms : Memories}, Inv ms → ∀ {found : List Finding} {ms' : Memories},
      runRules t settings scope n rs ms = .ok (found, ms') → (∀ f ∈ found, P f) ∧ Inv ms' := by
  intro rs
  induction rs with
  | nil =>
    intro _ ms hms found ms' h
    cases h
    exact ⟨List.forall_mem_nil _, hms⟩
  | cons r rest ih =>
    intro hrule ms hms found ms' h
    simp only [runRules] at h
    split at h
    · cases h
    split at h
    · cases h
    · rename_i more ms₁ hrest
      cases h
      obtain ⟨hfound, hinv⟩ := hrule r List.mem_cons_self ms hms
      obtain ⟨hmore, hinv'⟩ := ih (fun x hx => hrule x (List.mem_cons_of_mem _ hx)) hinv hrest
      refine ⟨fun f hf => ?_, hinv'⟩
      rcases List.mem_append.1 hf with hf | hf
      · exact hfound f hf
      · exact hmore f hf

/-- **A whole walk**, by induction on its steps: a step visits the first pending node of
the innermost frame, whose children are visited next. -/
theorem walkFrames_forall {rulesFor : String → List Rule} (Inv : Frame → Prop) {P : Finding → Prop}
    (hstep : ∀ scope n pending ms found ms', Inv ⟨scope, n :: pending, ms⟩ →
      runRules t settings scope n (rulesFor n.kind) ms = .ok (found, ms') →
        (∀ f ∈ found, P f) ∧ Inv ⟨scope, pending, ms'⟩ ∧ Inv ⟨scope.enter n, n.children, []⟩)
    {frames : List Frame} (hframes : ∀ f ∈ frames, Inv f) {found : List Finding}
    (h : walkFrames t settings rulesFor frames = .ok found) : ∀ f ∈ found, P f := by
  fun_induction walkFrames t settings rulesFor frames generalizing found with
  | case1 => cases h; exact fun _ hf => nomatch hf
  | case2 scope ms rest ih => exact ih (fun f hf => hframes f (List.mem_cons_of_mem _ hf)) h
  | case3 => cases h
  | case4 => cases h
  | case5 scope n pending ms rest here ms' hrun below more hmore ih =>
    cases h
    obtain ⟨hhere, hnext, hbelow⟩ := hstep _ _ _ _ _ _ (hframes _ List.mem_cons_self) hrun
    have hrest : ∀ f ∈ more, P f := by
      refine ih (fun f hf => ?_) hmore
      rcases List.mem_cons.1 hf with rfl | hf
      · exact hbelow
      rcases List.mem_cons.1 hf with rfl | hf
      · exact hnext
      · exact hframes f (List.mem_cons_of_mem _ hf)
    intro f hf
    rcases List.mem_append.1 hf with hf | hf
    · exact hhere f hf
    · exact hrest f hf

/-- Where rules ran at a node, all of them have settings. -/
theorem named_of_runRules {scope : Scope} {n : Node} {rs : List Rule} {ms : Memories}
    {out : List Finding × Memories} (h : runRules t settings scope n rs ms = .ok out) :
    ∀ r ∈ rs, (RuleId.ofName? r.id).isSome = true := by
  induction rs generalizing ms out with
  | nil => exact List.forall_mem_nil _
  | cons r rest ih =>
    simp only [runRules] at h
    split at h
    · cases h
    · rename_i hnamed
      split at h
      · cases h
      · rename_i hrest
        exact List.forall_mem_cons.2 ⟨by simpa [Option.isSome_iff_ne_none] using hnamed, ih hrest⟩

/-- **A whole tree.** What holds of the findings of each rule at each node, given that the rule has
settings, holds of all findings. -/
theorem matchTree_forall {p : Parsed} {rules : List Rule} {P : Finding → Prop}
    (hP : ∀ r ∈ rules, (RuleId.ofName? r.id).isSome = true → ∀ scope n m,
      ∀ f ∈ (runRule r n (contextFor p.text settings scope r) m).1, P f)
    {found : List Finding} (h : matchTree p rules settings = .ok found) : ∀ f ∈ found, P f := by
  unfold matchTree at h
  split at h
  · cases h
    exact List.forall_mem_nil _
  · refine walkFrames_forall (fun _ => True) (fun scope n pending ms found ms' _ hrun => ?_)
      (fun _ _ => trivial) h
    have hfound := runRules_forall (fun _ => True) P (fun r hr ms _ =>
      ⟨hP r (List.mem_filter.1 hr).1 (named_of_runRules hrun r hr) scope n (ms.get r.id), trivial⟩) trivial hrun
    exact ⟨hfound.1, trivial, trivial⟩

/-- Each finding is one of a rule that was run, in the text that was parsed. -/
theorem origin_of_matchTree {p : Parsed} {rules : List Rule} {found : List Finding}
    (h : matchTree p rules settings = .ok found) :
    ∀ f ∈ found, f.rule ∈ rules ∧ f.context.text = p.text := by
  refine matchTree_forall (fun r hr _ scope n m f hf => ?_) h
  obtain ⟨hrule, hcontext⟩ := runRule_origin f hf
  rw [hrule, hcontext]
  exact ⟨hr, rfl⟩

/-- A rule that found something has settings. -/
theorem named_of_matchTree {p : Parsed} {rules : List Rule} {found : List Finding}
    (h : matchTree p rules settings = .ok found) : ∀ f ∈ found, (RuleId.ofName? f.rule.id).isSome = true := by
  refine matchTree_forall (fun r _ hnamed scope n m f hf => ?_) h
  rw [(runRule_origin f hf).1]
  exact hnamed

/-! ### Rules with settings -/

theorem runRules_ok {scope : Scope} {n : Node} :
    ∀ (rs : List Rule) (ms : Memories), (∀ r ∈ rs, (RuleId.ofName? r.id).isSome) →
      ∃ found, runRules t settings scope n rs ms = .ok found := by
  intro rs
  induction rs with
  | nil => intro ms _; exact ⟨_, rfl⟩
  | cons r rest ih =>
    intro ms hr
    have hid : (RuleId.ofName? r.id).isNone = false := by
      rw [← Option.not_isSome, hr r List.mem_cons_self]; rfl
    obtain ⟨found, hf⟩ := ih (ms.set r.id (runRule r n (contextFor t settings scope r) (ms.get r.id)).2)
      fun x hx => hr x (List.mem_cons_of_mem _ hx)
    refine ⟨((runRule r n (contextFor t settings scope r) (ms.get r.id)).1 ++ found.1, found.2), ?_⟩
    simp only [runRules, hid, Bool.false_eq_true, if_false, hf]

theorem walkFrames_ok {rulesFor : String → List Rule}
    (hr : ∀ kind, ∀ r ∈ rulesFor kind, (RuleId.ofName? r.id).isSome) (frames : List Frame) :
    ∃ found, walkFrames t settings rulesFor frames = .ok found := by
  fun_induction walkFrames t settings rulesFor frames with
  | case1 => exact ⟨_, rfl⟩
  | case2 => assumption
  | case3 _ _ _ _ _ e he =>
    obtain ⟨_, hf⟩ := runRules_ok _ _ (hr _)
    rw [hf] at he; cases he
  | case4 _ _ _ _ _ _ _ _ _ e he ih =>
    obtain ⟨_, hf⟩ := ih
    rw [hf] at he; cases he
  | case5 => exact ⟨_, rfl⟩

end HouseStyle
