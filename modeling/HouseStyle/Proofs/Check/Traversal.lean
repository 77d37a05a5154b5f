import HouseStyle.Proofs.Check.Walk
import HouseStyle.Proofs.Parse.Parsed
import HouseStyle.Proofs.Tree.Relocation
import HouseStyle.Rule.PropertyOrder
import Mathlib.Data.List.Chain

/-!
# The walk is the recursive one

The walk keeps a stack of frames. What it does is told here by recursion on the tree: at each
place of the tree, in document order, the rules for the node take their turns, and a turn is
told by the place alone.

* `Node.sites`: the places of a tree, each with the nodes above it and the siblings before it.
* `turnsAt`: the turns of the rules at a place, each with the memory it is handed.
* `Unvisited`: the turns that a stack of frames still holds.
* `walkFrames_eq`: a walk collects the findings of these turns.
-/

namespace HouseStyle

/-! ### The places of a tree -/

/-- A place in a tree: its node, the nodes from the root down to its parent, and the siblings
before it. -/
structure Site where
  node : Node
  path : List Node
  earlier : List Node

namespace Node

mutual

/-- The places of a tree in document order, when its root stands below a path and after some
siblings. -/
def sites (path earlier : List Node) : Node → List Site
  | ⟨label, span, children⟩ =>
    ⟨⟨label, span, children⟩, path, earlier⟩ ::
      sitesList (path ++ [⟨label, span, children⟩]) [] children

/-- The places of trees that stand below one path. -/
def sitesList (path earlier : List Node) : List Node → List Site
  | [] => []
  | n :: rest => sites path earlier n ++ sitesList path (earlier ++ [n]) rest

end

theorem sites_eq (path earlier : List Node) (n : Node) :
    sites path earlier n = ⟨n, path, earlier⟩ :: sitesList (path ++ [n]) [] n.children := by
  cases n
  simp only [sites]

mutual

/-- Each node of a tree has one place, and the places are in document order. -/
theorem map_node_sites (path earlier : List Node) :
    ∀ n : Node, (sites path earlier n).map Site.node = walk n
  | ⟨label, span, children⟩ => by
    simp only [sites, walk, List.map_cons, map_node_sitesList]

theorem map_node_sitesList (path earlier : List Node) :
    ∀ ns : List Node, (sitesList path earlier ns).map Site.node = walkList ns
  | [] => rfl
  | n :: rest => by
    simp only [sitesList, walkList, List.map_append, map_node_sites path earlier n,
      map_node_sitesList path (earlier ++ [n]) rest]

end

/-- The nodes of a tree are those of its places. -/
theorem mem_walk_iff {tree n : Node} : n ∈ walk tree ↔ ∃ s ∈ sites [] [] tree, s.node = n := by
  rw [← map_node_sites [] [], List.mem_map]

/-- A place of a tree: the path leads from the root down to the node's parent, and the siblings
are those before the node. -/
structure HasSite (tree : Node) (s : Site) : Prop where
  /-- The root is the first of the nodes that lead to the node. -/
  root : (s.path ++ [s.node]).head? = some tree
  /-- Each of them is a child of the one before. -/
  chain : List.IsChain (fun parent child => child ∈ parent.children) (s.path ++ [s.node])
  /-- The siblings before the node are the children that its parent has before it. -/
  siblings : match s.path.getLast? with
    | some parent => ∃ later, parent.children = s.earlier ++ s.node :: later
    | none => s.earlier = []

/-- The place of a child. -/
theorem HasSite.child {tree parent n : Node} {path earlier before later : List Node}
    (h : HasSite tree ⟨parent, path, earlier⟩) (hc : parent.children = before ++ n :: later) :
    HasSite tree ⟨n, path ++ [parent], before⟩ := by
  have hmem : n ∈ parent.children := by
    rw [hc]
    exact List.mem_append_right _ List.mem_cons_self
  refine ⟨?_, ?_, ?_⟩
  · have hroot := h.root
    simp only at hroot ⊢
    rw [List.head?_append, hroot]
    rfl
  · refine List.isChain_append.2 ⟨h.chain, List.isChain_singleton n, ?_⟩
    intro x hx y hy
    simp only [List.getLast?_append, List.getLast?_singleton, Option.some_or, Option.mem_def,
      Option.some.injEq, List.head?_cons] at hx hy
    rw [← hx, ← hy]
    exact hmem
  · simp only [List.getLast?_append, List.getLast?_singleton, Option.some_or]
    exact ⟨later, hc⟩

mutual

theorem hasSite_of_mem_sites {tree : Node} (path earlier : List Node) :
    ∀ n : Node, HasSite tree ⟨n, path, earlier⟩ → ∀ s ∈ sites path earlier n, HasSite tree s
  | ⟨label, span, children⟩, h => by
    intro s hs
    simp only [sites, List.mem_cons] at hs
    rcases hs with rfl | hs
    · exact h
    · exact hasSite_of_mem_sitesList [] children h rfl s hs

theorem hasSite_of_mem_sitesList {tree parent : Node} {path siblings : List Node} (earlier : List Node) :
    ∀ ns : List Node, HasSite tree ⟨parent, path, siblings⟩ → parent.children = earlier ++ ns →
      ∀ s ∈ sitesList (path ++ [parent]) earlier ns, HasSite tree s
  | [], _, _ => by
    intro s hs
    simp only [sitesList, List.not_mem_nil] at hs
  | n :: rest, h, hc => by
    intro s hs
    simp only [sitesList, List.mem_append] at hs
    rcases hs with hs | hs
    · exact hasSite_of_mem_sites _ _ n (h.child hc) s hs
    · refine hasSite_of_mem_sitesList (earlier ++ [n]) rest h ?_ s hs
      rw [hc, List.append_assoc]
      rfl

end

/-- The first place of a tree is that of its root. -/
theorem mem_sites_self (path earlier : List Node) (n : Node) : ⟨n, path, earlier⟩ ∈ sites path earlier n := by
  rw [sites_eq]
  exact List.mem_cons_self

theorem mem_sitesList (path : List Node) {n : Node} {later : List Node} : ∀ earlier before : List Node,
    ⟨n, path, earlier ++ before⟩ ∈ sitesList path earlier (before ++ n :: later)
  | earlier, [] => by
    rw [List.append_nil, List.nil_append, sitesList]
    exact List.mem_append_left _ (mem_sites_self path earlier n)
  | earlier, m :: before => by
    have hmem := @mem_sitesList path n later (earlier ++ [m]) before
    rw [List.append_assoc, List.singleton_append] at hmem
    rw [List.cons_append, sitesList]
    exact List.mem_append_right _ hmem

mutual

/-- The places below a place of a tree are places of that tree. -/
theorem mem_sites_trans {s x : Site} (hx : x ∈ sitesList (s.path ++ [s.node]) [] s.node.children)
    (path earlier : List Node) : ∀ n : Node, s ∈ sites path earlier n → x ∈ sites path earlier n
  | ⟨label, span, children⟩, h => by
    simp only [sites, List.mem_cons] at h ⊢
    rcases h with rfl | h
    · exact .inr hx
    · exact .inr (mem_sitesList_trans hx _ [] children h)

theorem mem_sitesList_trans {s x : Site} (hx : x ∈ sitesList (s.path ++ [s.node]) [] s.node.children)
    (path earlier : List Node) : ∀ ns : List Node, s ∈ sitesList path earlier ns → x ∈ sitesList path earlier ns
  | [], h => by
    simp only [sitesList, List.not_mem_nil] at h
  | n :: rest, h => by
    simp only [sitesList, List.mem_append] at h ⊢
    rcases h with h | h
    · exact .inl (mem_sites_trans hx path earlier n h)
    · exact .inr (mem_sitesList_trans hx path (earlier ++ [n]) rest h)

end

/-- A child has a place below that of its parent. -/
theorem mem_sites_child {tree n : Node} {s : Site} {before later : List Node} (hs : s ∈ tree.sites [] [])
    (h : s.node.children = before ++ n :: later) : ⟨n, s.path ++ [s.node], before⟩ ∈ tree.sites [] [] := by
  refine mem_sites_trans ?_ [] [] tree hs
  rw [h]
  exact mem_sitesList _ [] before

end Node

/-! ### The scope of a place -/

namespace Scope

/-- The scope below a path, the root first. -/
def below (size : Nat) (path : List Node) : Scope :=
  path.foldl enter (document size)

/-- Whether a node is an at-rule that wraps blocks under a condition. -/
def isConditional (n : Node) : Bool :=
  match n.label with
  | .style (.atRule name _ _ _) => conditionalAtRules.contains name
  | _ => false

theorem below_concat (size : Nat) (path : List Node) (n : Node) :
    below size (path ++ [n]) = (below size path).enter n := by
  simp [below]

/-- The nodes around a place are the document and the path to it. -/
theorem ancestors_below (size : Nat) (path : List Node) :
    (below size path).ancestors = (document size).parent :: path := by
  induction path using List.reverseRecOn with
  | nil => rfl
  | append_singleton path n ih =>
    rw [below_concat]
    simp only [ancestors, enter, List.reverse_cons] at ih ⊢
    rw [ih]
    rfl

theorem selectorStep_eq (n : Node) : selectorStep n = if n.kind == "rule" then 1 else 0 := by
  obtain ⟨label, span, children⟩ := n
  unfold selectorStep Node.kind
  cases label with
  | document => rfl
  | style form => cases form <;> rfl
  | python form =>
    cases form with
    | plain shape => cases shape <;> rfl
    | _ => rfl

theorem selectorDepth_below (size : Nat) (path : List Node) :
    (below size path).selectorDepth = path.countP fun n => n.kind == "rule" := by
  induction path using List.reverseRecOn with
  | nil => rfl
  | append_singleton path n ih =>
    simp only [below_concat, enter, ih, List.countP_append, List.countP_singleton, selectorStep_eq]

theorem wrapperStep_eq (n : Node) : wrapperStep n = if isConditional n then 1 else 0 := by
  unfold wrapperStep isConditional
  split
  · rename_i hlabel
    simp [hlabel]
  · simp_all

theorem wrapperDepth_below (size : Nat) (path : List Node) :
    (below size path).wrapperDepth = path.countP isConditional := by
  induction path using List.reverseRecOn with
  | nil => rfl
  | append_singleton path n ih =>
    simp only [below_concat, enter, ih, List.countP_append, List.countP_singleton, wrapperStep_eq]

end Scope

/-! ### Turns -/

/-- A rule at a node, with the memory it is handed. -/
structure Turn where
  rule : Rule
  node : Node
  context : Context
  memory : Memory

/-- What a rule finds in its turn. -/
def Turn.found (u : Turn) : List Finding :=
  (runRule u.rule u.node u.context u.memory).1

variable (t : Source) (settings : Settings) (rulesFor : String → List Rule)

/-- The memory of an identifier after some rules had their turn at a node. Only the rules of
the identifier change it. -/
def memoryAfter (scope : Scope) (n : Node) (rs : List Rule) (id : String) (m : Memory) : Memory :=
  (rs.filter fun r => r.id == id).foldl (fun m r => (runRule r n (contextFor t settings scope r) m).2) m

/-- The memory of an identifier after some siblings. It is empty before the first. -/
def memoryBelow (scope : Scope) (siblings : List Node) (id : String) : Memory :=
  siblings.foldl (fun m n => memoryAfter t settings scope n (rulesFor n.kind) id m) []

/-- The turns of rules at a node after those of the rules `before`; `memory` holds the memories
that the node is reached with. -/
def turnsFrom (scope : Scope) (n : Node) (memory : String → Memory) (before : List Rule) :
    List Rule → List Turn
  | [] => []
  | r :: rest =>
    { rule := r, node := n, context := contextFor t settings scope r
      memory := memoryAfter t settings scope n before r.id (memory r.id) } ::
      turnsFrom scope n memory (before ++ [r]) rest

/-- The turns at a place. -/
def turnsAt (s : Site) : List Turn :=
  let scope := Scope.below t.size s.path
  turnsFrom t settings scope s.node (memoryBelow t settings rulesFor scope s.earlier) []
    (rulesFor s.node.kind)

/-- What the rules find in their turns. A rule without settings ends the walk. -/
def collect : List Turn → Except Failure (List Finding)
  | [] => .ok []
  | u :: rest =>
    if (RuleId.ofName? u.rule.id).isNone then .error (.unknownRule u.rule.id)
    else
      match collect rest with
      | .error e => .error e
      | .ok more => .ok (u.found ++ more)

variable {t settings rulesFor}

theorem collect_append (us vs : List Turn) :
    collect (us ++ vs) =
      match collect us with
      | .error e => .error e
      | .ok found =>
        match collect vs with
        | .error e => .error e
        | .ok more => .ok (found ++ more) := by
  induction us with
  | nil =>
    simp only [List.nil_append, collect]
    cases collect vs <;> rfl
  | cons u us ih =>
    simp only [List.cons_append, collect, ih]
    split
    · rfl
    · cases collect us with
      | error e => rfl
      | ok found =>
        cases collect vs with
        | error e => rfl
        | ok more => simp

/-- A walk comes to its end exactly when each rule that has a turn has settings. -/
theorem collect_eq_ok_iff {us : List Turn} {found : List Finding} :
    collect us = .ok found ↔
      (∀ u ∈ us, (RuleId.ofName? u.rule.id).isSome) ∧ us.flatMap Turn.found = found := by
  induction us generalizing found with
  | nil => simp [collect]
  | cons u us ih =>
    simp only [collect, List.forall_mem_cons, List.flatMap_cons]
    cases hu : RuleId.ofName? u.rule.id with
    | none => simp
    | some id =>
      cases hrest : collect us with
      | error e =>
        have hno : ¬ ∀ u ∈ us, (RuleId.ofName? u.rule.id).isSome := by
          intro hall
          have hok := ih.2 ⟨hall, rfl⟩
          rw [hrest] at hok
          cases hok
        simp [hno]
      | ok more =>
        obtain ⟨hall, hmore⟩ := ih.1 hrest
        subst hmore
        simpa using fun _ => hall

/-! ### One node -/

theorem memoryAfter_concat (scope : Scope) (n : Node) (before : List Rule) (r : Rule) (id : String) (m : Memory) :
    memoryAfter t settings scope n (before ++ [r]) id m =
      if r.id = id then (runRule r n (contextFor t settings scope r) (memoryAfter t settings scope n before id m)).2
      else memoryAfter t settings scope n before id m := by
  by_cases h : r.id = id
  · simp [memoryAfter, h]
  · simp [memoryAfter, h]

theorem Memories.get_set (ms : Memories) (id id' : String) (m : Memory) :
    (ms.set id m).get id' = if id = id' then m else ms.get id' := by
  by_cases h : id = id'
  · subst h
    rw [Memories.get_set_self, if_pos rfl]
  · rw [Memories.get_set_of_ne _ _ h, if_neg h]

section Node

variable {scope : Scope} {n : Node} {memory : String → Memory}

/-- The memories of a node's rules after one more of them had its turn. -/
theorem get_set_concat {before : List Rule} {ms : Memories} (r : Rule)
    (hms : ∀ id, ms.get id = memoryAfter t settings scope n before id (memory id)) (id : String) :
    (ms.set r.id (runRule r n (contextFor t settings scope r) (ms.get r.id)).2).get id =
      memoryAfter t settings scope n (before ++ [r]) id (memory id) := by
  rw [Memories.get_set, memoryAfter_concat]
  by_cases h : r.id = id
  · subst h
    rw [if_pos rfl, if_pos rfl, hms]
  · rw [if_neg h, if_neg h, hms]

/-- **One node**: the rules for it take their turns. -/
theorem runRules_found (rs before : List Rule) (ms : Memories)
    (hms : ∀ id, ms.get id = memoryAfter t settings scope n before id (memory id)) :
    (runRules t settings scope n rs ms).map Prod.fst = collect (turnsFrom t settings scope n memory before rs) := by
  induction rs generalizing before ms with
  | nil => rfl
  | cons r rest ih =>
    have hrest := ih (before ++ [r]) _ (get_set_concat r hms)
    simp only [runRules, turnsFrom, collect]
    split
    · rfl
    · rw [← hrest, ← hms]
      cases runRules t settings scope n rest _ <;> rfl

/-- **What the rules leave at a node**: for each identifier the memory after its rules. -/
theorem runRules_memories (rs before : List Rule) (ms : Memories)
    (hms : ∀ id, ms.get id = memoryAfter t settings scope n before id (memory id))
    {found : List Finding} {ms' : Memories} (h : runRules t settings scope n rs ms = .ok (found, ms')) (id : String) :
    ms'.get id = memoryAfter t settings scope n (before ++ rs) id (memory id) := by
  induction rs generalizing before ms found with
  | nil =>
    cases h
    rw [List.append_nil]
    exact hms id
  | cons r rest ih =>
    simp only [runRules] at h
    split at h
    · cases h
    · cases hrest : runRules t settings scope n rest
        (ms.set r.id (runRule r n (contextFor t settings scope r) (ms.get r.id)).2) with
      | error e =>
        rw [hrest] at h
        cases h
      | ok rest' =>
        rw [hrest] at h
        cases h
        have := ih (before ++ [r]) _ (get_set_concat r hms) hrest
        rw [this, List.append_assoc]
        rfl

end Node

/-! ### The whole walk -/

/-- The turns that a stack of frames still holds: those at the pending nodes of each frame and
below them, the innermost frame first. -/
inductive Unvisited (t : Source) (settings : Settings) (rulesFor : String → List Rule) :
    List Frame → List Turn → Prop
  | nil : Unvisited t settings rulesFor [] []
  | frame (path earlier : List Node) {pending : List Node} {ms : Memories} {rest : List Frame} {us : List Turn}
      (memories : ∀ id, ms.get id = memoryBelow t settings rulesFor (.below t.size path) earlier id)
      (outer : Unvisited t settings rulesFor rest us) :
      Unvisited t settings rulesFor (⟨.below t.size path, pending, ms⟩ :: rest)
        ((Node.sitesList path earlier pending).flatMap (turnsAt t settings rulesFor) ++ us)

/-- What a frame holds when its first pending node is visited: the turns at that node, those
below it, and those at its later siblings. -/
theorem Unvisited.visit {scope : Scope} {n : Node} {pending : List Node} {ms : Memories} {rest : List Frame}
    {us : List Turn} (h : Unvisited t settings rulesFor (⟨scope, n :: pending, ms⟩ :: rest) us) :
    ∃ here later, us = here ++ later ∧
      (runRules t settings scope n (rulesFor n.kind) ms).map Prod.fst = collect here ∧
      ∀ found ms', runRules t settings scope n (rulesFor n.kind) ms = .ok (found, ms') →
        Unvisited t settings rulesFor (⟨scope.enter n, n.children, []⟩ :: ⟨scope, pending, ms'⟩ :: rest) later := by
  cases h with
  | @frame path earlier _ _ _ us memories outer =>
    refine ⟨turnsAt t settings rulesFor ⟨n, path, earlier⟩,
      (Node.sitesList (path ++ [n]) [] n.children).flatMap (turnsAt t settings rulesFor) ++
        ((Node.sitesList path (earlier ++ [n]) pending).flatMap (turnsAt t settings rulesFor) ++ us),
      ?_, runRules_found _ [] ms memories, fun found ms' hrun => ?_⟩
    · rw [Node.sitesList, Node.sites_eq, List.cons_append, List.flatMap_cons, List.flatMap_append,
        List.append_assoc, List.append_assoc]
    · rw [← Scope.below_concat]
      refine .frame (path ++ [n]) [] (fun _ => rfl) (.frame path (earlier ++ [n]) (fun id => ?_) outer)
      rw [runRules_memories _ [] ms memories hrun id]
      simp [memoryBelow]

/-- **The walk collects the findings of the turns that its stack holds**, by induction on its
steps. -/
theorem walkFrames_eq {frames : List Frame} {us : List Turn} (h : Unvisited t settings rulesFor frames us) :
    walkFrames t settings rulesFor frames = collect us := by
  fun_induction walkFrames t settings rulesFor frames generalizing us with
  | case1 =>
    cases h
    rfl
  | case2 scope ms rest ih =>
    cases h with
    | frame path earlier memories outer => exact ih outer
  | case3 scope n pending ms rest e hrun =>
    obtain ⟨here, later, rfl, hhere, -⟩ := h.visit
    rw [collect_append, ← hhere, hrun]
    rfl
  | case4 scope n pending ms rest found ms' hrun below e hbelow =>
    rename_i ih
    obtain ⟨here, later, rfl, hhere, hlater⟩ := h.visit
    rw [collect_append, ← hhere, hrun, ← ih (hlater _ _ hrun), hbelow]
    rfl
  | case5 scope n pending ms rest found ms' hrun below more hmore =>
    rename_i ih
    obtain ⟨here, later, rfl, hhere, hlater⟩ := h.visit
    rw [collect_append, ← hhere, hrun, ← ih (hlater _ _ hrun), hmore]
    rfl

/-- The turns of a walk over a tree. -/
def turns (t : Source) (settings : Settings) (rulesFor : String → List Rule) (tree : Node) : List Turn :=
  (tree.sites [] []).flatMap (turnsAt t settings rulesFor)

/-- What turns tell when at each place they tell one thing or nothing. -/
theorem flatMap_turns {α : Type} {tree : Node} {f : Turn → List α} {g : Site → α} {p : Site → Bool}
    (h : ∀ s ∈ tree.sites [] [], (turnsAt t settings rulesFor s).flatMap f = if p s then [g s] else []) :
    (turns t settings rulesFor tree).flatMap f = ((tree.sites [] []).filter p).map g := by
  rw [turns, List.flatMap_assoc]
  generalize tree.sites [] [] = sites at h
  induction sites with
  | nil => rfl
  | cons s sites ih =>
    obtain ⟨hs, hsites⟩ := List.forall_mem_cons.1 h
    rw [List.flatMap_cons, ih hsites, hs, List.filter_cons]
    split <;> rfl

/-- The rules that run at a kind of nodes. -/
def rulesAt (language : Language) (rules : List Rule) (kind : String) : List Rule :=
  rules.filter fun r => r.concerns language kind

/-- A walk over a tree collects what the rules find in their turns. -/
theorem matchTree_eq {p : Parsed} {tree : Node} (rules : List Rule) (settings : Settings) (h : p.tree? = some tree) :
    matchTree p rules settings = collect (turns p.text settings (rulesAt p.language rules) tree) := by
  have hus : Unvisited p.text settings (rulesAt p.language rules) [⟨.document p.text.size, [tree], []⟩]
      ((Node.sitesList [] [] [tree]).flatMap (turnsAt p.text settings (rulesAt p.language rules)) ++ []) :=
    .frame [] [] (fun _ => rfl) .nil
  have hsites : Node.sitesList [] [] [tree] = Node.sites [] [] tree := by simp [Node.sitesList]
  rw [hsites, List.append_nil] at hus
  unfold matchTree
  rw [h]
  exact walkFrames_eq hus

/-! ### What a turn is handed -/

theorem turnsFrom_rules {scope : Scope} {n : Node} {memory : String → Memory} (rs before : List Rule) :
    (turnsFrom t settings scope n memory before rs).map Turn.rule = rs := by
  induction rs generalizing before with
  | nil => rfl
  | cons r rest ih => simp [turnsFrom, ih]

/-- A turn tells its place, and its memory is what the rules before it leave. -/
theorem mem_turnsFrom {scope : Scope} {n : Node} {memory : String → Memory} {u : Turn} {rs before : List Rule}
    (h : u ∈ turnsFrom t settings scope n memory before rs) :
    u.node = n ∧ u.context = contextFor t settings scope u.rule ∧
      ∃ first later, rs = first ++ u.rule :: later ∧
        u.memory = memoryAfter t settings scope n (before ++ first) u.rule.id (memory u.rule.id) := by
  induction rs generalizing before with
  | nil => cases h
  | cons r rest ih =>
    rcases List.mem_cons.1 h with rfl | h
    · exact ⟨rfl, rfl, [], rest, rfl, by rw [List.append_nil]⟩
    · obtain ⟨hnode, hcontext, first, later, hrest, hmemory⟩ := ih h
      refine ⟨hnode, hcontext, r :: first, later, by rw [hrest]; rfl, ?_⟩
      rw [hmemory, List.append_assoc]
      rfl

/-- Where the identifiers of rules differ, the only rule of an identifier is the one known. -/
theorem filter_id_eq {rules : List Rule} (hids : (rules.map Rule.id).Nodup) {r : Rule} (hr : r ∈ rules) :
    rules.filter (fun x => x.id == r.id) = [r] := by
  induction rules with
  | nil => cases hr
  | cons x rest ih =>
    rw [List.map_cons, List.nodup_cons] at hids
    obtain ⟨hx, hids⟩ := hids
    rcases List.mem_cons.1 hr with rfl | hr
    · have hrest : rest.filter (fun x => x.id == r.id) = [] := by
        rw [List.filter_eq_nil_iff]
        intro y hy hid
        exact hx (beq_iff_eq.1 hid ▸ List.mem_map_of_mem hy)
      simp [hrest]
    · have hne : x.id ≠ r.id := fun h => hx (h ▸ List.mem_map_of_mem hr)
      simp [hne, ih hids hr]

theorem filter_rulesAt (language : Language) (rules : List Rule) (kind id : String) :
    (rulesAt language rules kind).filter (fun x => x.id == id) =
      (rules.filter fun x => x.id == id).filter fun x => x.concerns language kind := by
  rw [rulesAt, List.filter_filter, List.filter_filter]
  congr 1
  funext x
  exact Bool.and_comm _ _

/-- The memory that one rule leaves at some siblings, by itself. -/
def ownMemory (t : Source) (settings : Settings) (language : Language) (scope : Scope) (r : Rule)
    (siblings : List Node) : Memory :=
  siblings.foldl
    (fun m n =>
      if r.concerns language n.kind then (runRule r n (contextFor t settings scope r) m).2 else m) []

/-- Where the identifiers of rules differ, the memory of an identifier is its rule's own. -/
theorem memoryBelow_eq {rules : List Rule} {language : Language} {r : Rule}
    (hr : rules.filter (fun x => x.id == r.id) = [r]) (scope : Scope) (siblings : List Node) :
    memoryBelow t settings (rulesAt language rules) scope siblings r.id =
      ownMemory t settings language scope r siblings := by
  unfold memoryBelow ownMemory
  congr 1
  funext m n
  rw [memoryAfter, filter_rulesAt, hr]
  by_cases h : r.concerns language n.kind = true
  · simp [h]
  · simp [h]

/-- A rule that is alone with its identifier is handed what it left at the siblings before. -/
theorem memory_of_mem_turnsAt {rules : List Rule} {language : Language} {s : Site} {u : Turn}
    (hu : u ∈ turnsAt t settings (rulesAt language rules) s)
    (hid : rules.filter (fun x => x.id == u.rule.id) = [u.rule]) :
    u.memory = ownMemory t settings language (.below t.size s.path) u.rule s.earlier := by
  obtain ⟨-, -, first, later, hrules, hmemory⟩ := mem_turnsFrom hu
  -- no rule with its identifier has a turn before it
  have hfirst : first.filter (fun x => x.id == u.rule.id) = [] := by
    have hfilter := filter_rulesAt language rules s.node.kind u.rule.id
    rw [hrules, hid, List.filter_append, List.filter_cons_of_pos (by simp)] at hfilter
    have hlen := congrArg List.length hfilter
    have hle := List.length_filter_le (fun x => x.concerns language s.node.kind) [u.rule]
    simp only [List.length_append, List.length_cons, List.length_nil] at hlen hle
    exact List.length_eq_zero_iff.1 (by omega)
  rw [hmemory, List.nil_append, memoryAfter, hfirst, List.foldl_nil, memoryBelow_eq hid]

/-! ### The walk as a whole -/

/-- What a turn at a place is like. -/
structure Turn.Fits (p : Parsed) (rules : List Rule) (settings : Settings) (s : Site) (u : Turn) : Prop where
  node : u.node = s.node
  /-- The nodes around are the document and the path from the root to the parent. -/
  ancestors : u.context.scope.ancestors = (Scope.document p.text.size).parent :: s.path
  /-- The rules on the path are counted. -/
  selectorDepth : u.context.scope.selectorDepth = s.path.countP fun n => n.kind == "rule"
  /-- The conditional at-rules on the path are counted. -/
  wrapperDepth : u.context.scope.wrapperDepth = s.path.countP Scope.isConditional
  /-- The memory is what the rules of the identifier leave at the siblings before and, before
  this turn, at the node. -/
  memory : ∃ first later, rulesAt p.language rules s.node.kind = first ++ u.rule :: later ∧
    u.memory = memoryAfter p.text settings u.context.scope s.node first u.rule.id
      (memoryBelow p.text settings (rulesAt p.language rules) u.context.scope s.earlier u.rule.id)
  /-- That is what the rule itself left at the siblings before, when no other has its identifier. -/
  own : (rules.map Rule.id).Nodup →
    u.memory = ownMemory p.text settings p.language u.context.scope u.rule s.earlier

theorem fits_of_mem_turnsAt {p : Parsed} {rules : List Rule} {s : Site} {u : Turn}
    (hu : u ∈ turnsAt p.text settings (rulesAt p.language rules) s) : u.Fits p rules settings s := by
  obtain ⟨hnode, hcontext, first, later, hrules, hmemory⟩ := mem_turnsFrom hu
  have hscope : u.context.scope = .below p.text.size s.path := by rw [hcontext]; rfl
  have hmem : u.rule ∈ rules := by
    have hturn : u.rule ∈ rulesAt p.language rules s.node.kind := by
      rw [hrules]
      exact List.mem_append_right _ List.mem_cons_self
    exact (List.mem_filter.1 hturn).1
  refine ⟨hnode, ?_, ?_, ?_, ⟨first, later, hrules, ?_⟩, fun hids => ?_⟩
  · rw [hscope, Scope.ancestors_below]
  · rw [hscope, Scope.selectorDepth_below]
  · rw [hscope, Scope.wrapperDepth_below]
  · rw [hscope]
    exact hmemory
  · rw [hscope]
    exact memory_of_mem_turnsAt hu (filter_id_eq hids hmem)

/-- **The walk over a tree is the recursive one.** It collects what the rules find in their turns
at the places of the tree. Each node has one place, in document order, where the rules for its
kind take their turns in the order they are given. -/
theorem matchTree_recursive {p : Parsed} {tree : Node} (rules : List Rule) (settings : Settings)
    (h : p.tree? = some tree) :
    matchTree p rules settings = collect (turns p.text settings (rulesAt p.language rules) tree) ∧
      (tree.sites [] []).map Site.node = tree.walk ∧
      ∀ s ∈ tree.sites [] [], tree.HasSite s ∧
        (turnsAt p.text settings (rulesAt p.language rules) s).map Turn.rule =
          rules.filter (fun r => r.concerns p.language s.node.kind) ∧
        ∀ u ∈ turnsAt p.text settings (rulesAt p.language rules) s, u.Fits p rules settings s := by
  refine ⟨matchTree_eq rules settings h, Node.map_node_sites [] [] tree, fun s hs => ⟨?_, ?_, ?_⟩⟩
  · exact Node.hasSite_of_mem_sites [] [] tree ⟨rfl, List.isChain_singleton tree, rfl⟩ s hs
  · exact turnsFrom_rules _ _
  · exact fun u hu => fits_of_mem_turnsAt hu

/-- A rule that counts the children of a node. -/
def counting : Rule :=
  { propertyOrder with
    info := { propertyOrder.info with kinds := ["rule"] }
    applies := fun _ => .ok true
    check := fun n c m =>
      let count := (m.get? "count").getD 0 + 1
      (.ok [c.violation n.span (toString count)], m.set "count" count) }

/-- The messages of some findings. -/
def messages (found : List Finding) : List String :=
  found.map fun f => f.violation.message

theorem matchTree_recursive_nested : ∃ p tree found,
    parse .scss (.ofString "@media print \x7b a \x7b b \x7b\x7d c \x7b\x7d \x7d d \x7b\x7d \x7d") = .ok p ∧
      p.tree? = some tree ∧ matchTree p [counting] .default = .ok found ∧ messages found = ["1", "1", "2", "2"] ∧
      collect (turns p.text .default (rulesAt p.language [counting]) tree) = .ok found ∧
      (tree.sites [] []).map Site.node = tree.walk ∧
      ∀ s ∈ tree.sites [] [], tree.HasSite s ∧
        (turnsAt p.text .default (rulesAt p.language [counting]) s).map Turn.rule =
          [counting].filter (fun r => r.concerns p.language s.node.kind) ∧
        ∀ u ∈ turnsAt p.text .default (rulesAt p.language [counting]) s, u.Fits p [counting] .default s := by
  set p := parseStylesheet .scss .scss
    (.ofString "@media print \x7b a \x7b b \x7b\x7d c \x7b\x7d \x7d d \x7b\x7d \x7d") with hp
  have hb : (p.tree?.bind fun _ => (matchTree p [counting] .default).toOption.filter fun found =>
      messages found == ["1", "1", "2", "2"]).isSome = true := by
    rw [hp]
    decide +kernel
  obtain ⟨found, hb⟩ := Option.isSome_iff_exists.1 hb
  simp only [Option.bind_eq_some_iff, Option.filter_eq_some_iff, toOption_eq_some, beq_iff_eq] at hb
  obtain ⟨tree, htree, hfound, hmessages⟩ := hb
  have hwalk := matchTree_recursive [counting] .default htree
  rw [hfound] at hwalk
  exact ⟨p, tree, found, rfl, htree, hfound, hmessages, hwalk.1.symm, hwalk.2⟩

/-- Two rules of one identifier share a memory: the second counts on where the first left off,
even at a first child. -/
theorem turnsAt_shared : ∃ tree found s u,
    (parseStylesheet .css .css (.ofString "a\x7b\x7d")).tree? = some tree ∧
      matchTree (parseStylesheet .css .css (.ofString "a\x7b\x7d")) [counting, counting] .default = .ok found ∧
      messages found = ["1", "2"] ∧
      s ∈ tree.sites [] [] ∧ s.earlier = [] ∧
      u ∈ turnsAt (.ofString "a\x7b\x7d") .default (rulesAt .css [counting, counting]) s ∧ u.memory ≠ [] := by
  have hb : ((parseStylesheet .css .css (.ofString "a\x7b\x7d")).tree?.bind fun tree =>
      ((tree.sites [] []).find? fun s => s.path.length == 1).bind fun s =>
        (turnsAt (.ofString "a\x7b\x7d") .default (rulesAt .css [counting, counting]) s)[1]?.filter fun u =>
          s.earlier.isEmpty && !u.memory.isEmpty).isSome = true := by
    decide +kernel
  have hmessages : ((matchTree (parseStylesheet .css .css (.ofString "a\x7b\x7d")) [counting, counting]
      .default).toOption.filter fun found => messages found == ["1", "2"]).isSome = true := by
    decide +kernel
  obtain ⟨u, hb⟩ := Option.isSome_iff_exists.1 hb
  obtain ⟨found, hmessages⟩ := Option.isSome_iff_exists.1 hmessages
  simp only [Option.bind_eq_some_iff, Option.filter_eq_some_iff, Bool.and_eq_true, List.isEmpty_iff,
    Bool.not_eq_true', List.isEmpty_eq_false_iff] at hb
  obtain ⟨tree, htree, s, hs, hu, hearlier, hmemory⟩ := hb
  rw [Option.filter_eq_some_iff, toOption_eq_some, beq_iff_eq] at hmessages
  exact ⟨tree, found, s, u, htree, hmessages.1, hmessages.2, List.mem_of_find?_eq_some hs, hearlier,
    List.mem_of_getElem? hu, hmemory⟩

end HouseStyle
