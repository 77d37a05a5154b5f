import HouseStyle.Proofs.Check.Walk
import HouseStyle.Proofs.Rule.Ordering

/-!
# Findings about the order of a block

The rule about the order of a block remembers the highest group among the children
that were visited. So what it reports is a child that comes after one of a later group.

* `Recalls`: what the rule remembers comes from the children that were visited.
* `outOfOrder_of_matchTree`: a block with a finding is out of order.
-/

namespace HouseStyle.PropertyOrder

variable {t : Source} {settings : Settings}

/-- The group that a memory of the rule stands for. -/
def recalled (m : Memory) : Bucket :=
  Bucket.ofRank ((m.get? highestKey).getD 0)

/-- What is remembered is the group of a child that was visited, if it is not the first. -/
def Recalls (visited : List Node) (m : Memory) : Prop :=
  recalled m = .declarations ∨ ∃ a ∈ visited, bucket? a = some (recalled m)

theorem recalls_nil : Recalls [] [] := .inl rfl

theorem Recalls.mono {visited more : List Node} {m : Memory} (h : Recalls visited m) :
    Recalls (visited ++ more) m := by
  rcases h with h | ⟨a, ha, hb⟩
  · exact .inl h
  · exact .inr ⟨a, List.mem_append_left _ ha, hb⟩

theorem ofRank_rank (b : Bucket) : Bucket.ofRank (b.rank : Int) = b := by
  cases b <;> rfl

theorem recalls_set {visited : List Node} {n : Node} {b : Bucket} {m : Memory} (h : bucket? n = some b) :
    Recalls (visited ++ [n]) (m.set highestKey b.rank) := by
  refine .inr ⟨n, List.mem_append_right _ (List.mem_singleton_self n), ?_⟩
  rw [recalled, Memory.get?_set_self, Option.getD_some, ofRank_rank]
  exact h

theorem bucket_of_placed {n : Node} {c : Context} {b : Bucket} (h : placed? n c = some b) :
    c.scope.parent.label = .style .block ∧ bucket? n = some b := by
  unfold placed? at h
  split at h
  · rename_i hlabel
    exact ⟨hlabel, h⟩
  · cases h

/-- **What the rule does at a node**: it reports a child of an earlier group than the one
it remembers, and remembers the group of any other. -/
theorem runRule_propertyOrder (n : Node) (c : Context) (m : Memory) :
    ((runRule propertyOrder n c m).2 = m ∧ ∀ f ∈ (runRule propertyOrder n c m).1,
        ∃ b, placed? n c = some b ∧ b.rank < (recalled m).rank) ∨
      ((runRule propertyOrder n c m).1 = [] ∧ ∃ b, placed? n c = some b ∧
        (runRule propertyOrder n c m).2 = m.set highestKey b.rank) := by
  have happlies : propertyOrder.applies n = .ok (bucket? n).isSome := rfl
  have hcheck : propertyOrder.check n c m = check n c m := rfl
  unfold runRule
  rw [happlies, hcheck]
  cases (bucket? n).isSome with
  | false => exact .inl ⟨rfl, List.forall_mem_nil _⟩
  | true =>
    unfold check
    cases hp : placed? n c with
    | none => exact .inl ⟨rfl, List.forall_mem_nil _⟩
    | some b =>
      by_cases hlt : b.rank < (recalled m).rank
      · simp only [if_pos (show b.rank < (Bucket.ofRank ((m.get? highestKey).getD 0)).rank from hlt)]
        exact .inl ⟨trivial, fun f _ => ⟨b, rfl, hlt⟩⟩
      · simp only [if_neg (show ¬ b.rank < (Bucket.ofRank ((m.get? highestKey).getD 0)).rank from hlt)]
        exact .inr ⟨rfl, b, rfl, rfl⟩

/-- A child that comes after one of a later group. -/
theorem not_inRankOrder {visited : List Node} (rest : List Node) {a n : Node} {x y : Bucket}
    (ha : a ∈ visited)
    (hx : bucket? a = some x) (hy : bucket? n = some y) (hlt : y.rank < x.rank) :
    ¬ InRankOrder ((visited ++ n :: rest).filter isMovable) := by
  intro h
  have hmovable {m : Node} {b : Bucket} (hb : bucket? m = some b) :
      isMovable m = true ∧ rankOf m = b.rank := by
    rw [isMovable, rankOf, hb]
    exact ⟨rfl, rfl⟩
  obtain ⟨ham, har⟩ := hmovable hx
  obtain ⟨hnm, hnr⟩ := hmovable hy
  rw [List.filter_append, List.filter_cons_of_pos hnm] at h
  have := (List.pairwise_append.1 h).2.2 a (List.mem_filter.2 ⟨ha, ham⟩) n List.mem_cons_self
  rw [har, hnr] at this
  omega

/-- A finding of the rule: it stands in a block of the tree that is out of order. -/
structure Misplaced (t : Source) (tree : Node) (c : Context) : Prop where
  text : c.text = t
  mem : c.scope.parent ∈ Node.walk tree
  block : c.scope.parent.label = .style .block
  outOfOrder : ¬ InRankOrder (movable c.scope.parent)

/-- What a frame of the walk is like: its nodes belong to the tree, and in a block the
rule recalls the children before them. -/
def Visits (tree : Node) (f : Frame) : Prop :=
  (∀ n ∈ f.pending, n ∈ Node.walk tree) ∧
    (f.scope.parent.label = .style .block → f.scope.parent ∈ Node.walk tree ∧
      ∃ visited, f.scope.parent.children = visited ++ f.pending ∧
        Recalls visited (f.memories.get propertyOrder.id))

/-- **One rule at a child of a block** finds what is out of order, and the memory recalls
the children up to that one. -/
theorem runRule_misplaced {tree n : Node} {scope : Scope} {visited pending : List Node} {r : Rule}
    (hmem : scope.parent ∈ Node.walk tree) (hb : scope.parent.label = .style .block)
    (hchildren : scope.parent.children = visited ++ n :: pending)
    (hrule : r.id = propertyOrder.id → r = propertyOrder) {ms : Memories}
    (hms : Recalls (visited ++ [n]) (ms.get propertyOrder.id)) :
    (∀ f ∈ (runRule r n (contextFor t settings scope r) (ms.get r.id)).1, f.rule = propertyOrder →
        Misplaced t tree f.context) ∧
      Recalls (visited ++ [n])
        ((ms.set r.id (runRule r n (contextFor t settings scope r) (ms.get r.id)).2).get propertyOrder.id) := by
  by_cases hid : r.id = propertyOrder.id
  · obtain rfl := hrule hid
    rw [Memories.get_set_self]
    rcases runRule_propertyOrder n (contextFor t settings scope propertyOrder) (ms.get propertyOrder.id) with
      ⟨hm, hf⟩ | ⟨hnone, b, hplaced, hm⟩
    · rw [hm]
      refine ⟨fun f hmemf _ => ?_, hms⟩
      obtain ⟨b, hplaced, hlt⟩ := hf f hmemf
      rw [(runRule_origin f hmemf).2]
      refine ⟨rfl, hmem, hb, ?_⟩
      have hbn := (bucket_of_placed hplaced).2
      -- the child of the later group is another one
      rcases hms with hfirst | ⟨a, ha, hax⟩
      · rw [hfirst] at hlt
        exact absurd hlt (Nat.not_lt_zero _)
      · rcases List.mem_append.1 ha with ha | ha
        · have := not_inRankOrder pending ha hax hbn hlt
          rw [← hchildren] at this
          exact this
        · rw [List.mem_singleton.1 ha, hbn] at hax
          cases hax
          exact absurd hlt (Nat.lt_irrefl _)
    · rw [hnone, hm]
      exact ⟨List.forall_mem_nil _, recalls_set (bucket_of_placed hplaced).2⟩
  · -- another rule has a memory of its own
    rw [Memories.get_set_of_ne _ _ hid]
    refine ⟨fun f hf hfrule => ?_, hms⟩
    rw [(runRule_origin f hf).1] at hfrule
    exact absurd (congrArg Rule.id hfrule) hid

/-- **One step of the walk** finds what is out of order and leaves frames like the one it
began with. -/
theorem step_misplaced {tree : Node} {rs : List Rule}
    (hrules : ∀ r ∈ rs, r.id = propertyOrder.id → r = propertyOrder)
    {scope : Scope} {n : Node} {pending : List Node} {ms ms' : Memories} {found : List Finding}
    (hframe : Visits tree ⟨scope, n :: pending, ms⟩)
    (h : runRules t settings scope n rs ms = .ok (found, ms')) :
    (∀ f ∈ found, f.rule = propertyOrder → Misplaced t tree f.context) ∧
      Visits tree ⟨scope, pending, ms'⟩ ∧ Visits tree ⟨scope.enter n, n.children, []⟩ := by
  obtain ⟨hpending, hparent⟩ := hframe
  have hn := hpending n List.mem_cons_self
  have hbelow : Visits tree ⟨scope.enter n, n.children, []⟩ := by
    exact ⟨fun m hm => Node.mem_walk_trans (Node.mem_walk_of_child hm) tree hn,
      fun _ => ⟨hn, [], rfl, recalls_nil⟩⟩
  have hpending' : ∀ m ∈ pending, m ∈ Node.walk tree := fun m hm => hpending m (List.mem_cons_of_mem _ hm)
  by_cases hb : scope.parent.label = .style .block
  · obtain ⟨hmem, visited, hchildren, hrecalls⟩ := hparent hb
    have hchildren' : scope.parent.children = (visited ++ [n]) ++ pending := by
      rw [hchildren, List.append_assoc]
      rfl
    obtain ⟨hfound, hrecalls'⟩ := runRules_forall
      (fun ms => Recalls (visited ++ [n]) (ms.get propertyOrder.id))
      (fun f => f.rule = propertyOrder → Misplaced t tree f.context)
      (fun r hr _ hms => runRule_misplaced hmem hb hchildren (hrules r hr) hms) hrecalls.mono h
    exact ⟨hfound, ⟨hpending', fun _ => ⟨hmem, _, hchildren', hrecalls'⟩⟩, hbelow⟩
  · -- outside of blocks the rule finds nothing
    refine ⟨?_, ⟨hpending', fun h => absurd h hb⟩, hbelow⟩
    refine (runRules_forall (fun _ => True)
      (fun f => f.rule = propertyOrder → Misplaced t tree f.context)
      (fun r hr ms _ => ⟨fun f hf hrule => ?_, trivial⟩)
      trivial h).1
    obtain rfl : r = propertyOrder := by
      rw [← hrule]
      exact (runRule_origin f hf).1.symm
    rcases runRule_propertyOrder n (contextFor t settings scope propertyOrder) (ms.get propertyOrder.id) with
      ⟨-, hall⟩ | ⟨hnone, -⟩
    · obtain ⟨b, hplaced, -⟩ := hall f hf
      exact absurd (bucket_of_placed hplaced).1 hb
    · rw [hnone] at hf
      cases hf

/-- **A block with a finding is out of order.** -/
theorem outOfOrder_of_matchTree {p : Parsed} {tree : Node} {rules : List Rule} {found : List Finding}
    (htree : p.tree? = some tree) (hrules : ∀ r ∈ rules, r.id = propertyOrder.id → r = propertyOrder)
    (h : matchTree p rules settings = .ok found) :
    ∀ f ∈ found, f.rule = propertyOrder → Misplaced p.text tree f.context := by
  unfold matchTree at h
  rw [htree] at h
  refine walkFrames_forall (Visits tree) (fun scope n pending ms found ms' hframe hrun => ?_) ?_ h
  · exact step_misplaced (fun r hr => hrules r (List.mem_filter.1 hr).1) hframe hrun
  · intro f hf
    obtain rfl := List.mem_singleton.1 hf
    refine ⟨fun n hn => ?_, fun hl => nomatch hl⟩
    rw [List.mem_singleton.1 hn]
    exact Node.mem_walk_self tree

end HouseStyle.PropertyOrder
