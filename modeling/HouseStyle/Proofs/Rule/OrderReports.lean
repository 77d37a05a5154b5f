import HouseStyle.Proofs.Fix.Settling
import HouseStyle.Proofs.Rule.Inside
import HouseStyle.Proofs.Rule.Reordering
import HouseStyle.Proofs.Stylesheet.Sequence

/-!
# What is told about the order of a block, and what is offered

The check of the order meets the children of a block one by one, and knows of those before only
the group that it remembers. The edit looks at the whole block. They speak of the same thing.

* `highest`: the highest group among the children before; `recalled_ownMemory`: it is what the rule
  remembers, by induction on these children.
* `found_at`: what is found at a place is told by the siblings before it.
* `not_inRankOrder_iff`: a block is out of order exactly if one of its children is out of place.
* `check_and_fix_agree`: **a child is reported exactly if its group comes before the highest one so
  far, all reports about a block offer the same edit, and there are none exactly if the block is in
  order.**
-/

namespace HouseStyle.PropertyOrder

open Stylesheet (Dialect IsStatement)

variable {d : Dialect} {t : Source} {settings : Settings} {language : Language} {tree : Node} {s : Site}

/-! ### The highest group so far -/

/-- The highest group among some children of a block that take part in the order. -/
def highest (ns : List Node) : Nat :=
  ((ns.filter isMovable).map rankOf).foldl max 0

theorem highest_concat_of_pos {ns : List Node} {n : Node} (h : isMovable n = true) :
    highest (ns ++ [n]) = max (highest ns) (rankOf n) := by
  unfold highest
  rw [List.filter_append, List.filter_cons_of_pos h, List.filter_nil, List.map_append, List.foldl_append]
  rfl

theorem highest_concat_of_neg {ns : List Node} {n : Node} (h : ¬ isMovable n = true) :
    highest (ns ++ [n]) = highest ns := by
  unfold highest
  rw [List.filter_append, List.filter_cons_of_neg h, List.filter_nil, List.append_nil]

/-- A group is before the highest one exactly if it is before one of those that were met. -/
theorem lt_highest_iff {ns : List Node} {k : Nat} : k < highest ns ↔ ∃ a ∈ ns.filter isMovable, k < rankOf a := by
  induction ns using List.reverseRecOn with
  | nil => simp [highest]
  | append_singleton ns n ih =>
    by_cases h : isMovable n = true
    · rw [highest_concat_of_pos h, lt_max_iff, ih, List.filter_append, List.filter_cons_of_pos h, List.filter_nil]
      simp [or_and_right, exists_or]
    · rw [highest_concat_of_neg h, ih, List.filter_append, List.filter_cons_of_neg h, List.filter_nil, List.append_nil]

theorem rank_of_bucket {n : Node} {b : Bucket} (h : bucket? n = some b) : isMovable n = true ∧ rankOf n = b.rank := by
  rw [isMovable, rankOf, h]
  exact ⟨rfl, rfl⟩

/-- The message about a child of a block after one of a later group. -/
def message (n : Node) (highest : Bucket) : String :=
  s!"{describe n} should come before {highest.plural}"

/-- What the rule does at a child of a block. -/
theorem runRule_eq {n : Node} {c : Context} {m : Memory} (hlabel : c.scope.parent.label = .style .block) :
    runRule propertyOrder n c m =
      if isMovable n = true then
        if rankOf n < (recalled m).rank then
          ([findingOf propertyOrder n c (c.violation n.span (message n (recalled m)))], m)
        else ([], m.set highestKey (rankOf n))
      else ([], m) := by
  have happlies : propertyOrder.applies n = .ok (isMovable n) := rfl
  have hcheck : propertyOrder.check n c m = check n c m := rfl
  have hplaced : placed? n c = bucket? n := by
    unfold placed?
    rw [hlabel]
  unfold runRule
  rw [happlies, hcheck]
  unfold check
  rw [hplaced]
  cases hb : bucket? n with
  | none =>
    have hn : isMovable n = false := by rw [isMovable, hb]; rfl
    rw [hn]
    rfl
  | some b =>
    obtain ⟨hn, hrank⟩ := rank_of_bucket hb
    rw [hn, hrank, if_pos rfl]
    by_cases hlt : b.rank < (recalled m).rank
    · simp only [if_pos hlt, if_pos (show b.rank < (Bucket.ofRank ((m.get? highestKey).getD 0)).rank from hlt)]
      rfl
    · simp only [if_neg hlt, if_neg (show ¬ b.rank < (Bucket.ofRank ((m.get? highestKey).getD 0)).rank from hlt)]
      rfl

/-- The rule runs at each child of a block that takes part in the order. -/
theorem concerns_of_movable {n : Node} (hlanguage : language ≠ .python) (h : isMovable n = true) :
    propertyOrder.concerns language n.kind = true := by
  have hfor : propertyOrder.info.languages.contains language = true := by
    cases language with
    | python => exact absurd rfl hlanguage
    | css => rfl
    | scss => rfl
  have hkind : propertyOrder.info.kinds.contains n.kind = true := by
    unfold isMovable bucket? at h
    unfold Node.kind
    split at h
    · rename_i hlabel; rw [hlabel]; rfl
    · rename_i hlabel; rw [hlabel]; rfl
    · rename_i hlabel; rw [hlabel]; rfl
    · cases h
  rw [Rule.concerns, hfor, hkind]
  rfl

/-- **What the rule remembers after some children of a block is the highest group among them**, by
induction on these children. -/
theorem recalled_ownMemory {scope : Scope} (hlabel : scope.parent.label = .style .block)
    (hlanguage : language ≠ .python) (siblings : List Node) :
    (recalled (ownMemory t settings language scope propertyOrder siblings)).rank = highest siblings := by
  induction siblings using List.reverseRecOn with
  | nil => rfl
  | append_singleton siblings n ih =>
    rw [ownMemory, List.foldl_append, ← ownMemory, List.foldl_cons, List.foldl_nil]
    generalize ownMemory t settings language scope propertyOrder siblings = m at ih
    rw [runRule_eq hlabel]
    by_cases hn : isMovable n = true
    · rw [highest_concat_of_pos hn, if_pos (concerns_of_movable hlanguage hn), if_pos hn, ← ih]
      split
      · rename_i hlt
        rw [Nat.max_eq_left (Nat.le_of_lt hlt)]
      · rename_i hle
        obtain ⟨b, hb⟩ := Option.isSome_iff_exists.1 hn
        rw [Nat.max_eq_right (Nat.not_lt.1 hle), (rank_of_bucket hb).2, recalled, Memory.get?_set_self,
          Option.getD_some, ofRank_rank]
    · rw [highest_concat_of_neg hn, if_neg hn, ite_self, ih]

/-! ### What is found at a place -/

/-- Whether a node is a block. -/
def isBlock (n : Node) : Bool :=
  match n.label with
  | .style .block => true
  | _ => false

theorem isBlock_iff {n : Node} : isBlock n = true ↔ n.label = .style .block := by
  unfold isBlock
  split
  · rename_i hlabel
    exact iff_of_true rfl hlabel
  · rename_i hlabel
    exact iff_of_false (nomatch ·) hlabel

/-- Whether the node of a place stands in a block, after a child of a later group. -/
def isOutOfPlace (s : Site) : Bool :=
  s.path.getLast?.any isBlock && isMovable s.node && decide (rankOf s.node < highest s.earlier)

/-- What is found about a child of a block that is out of place. -/
def findingAt (t : Source) (settings : Settings) (s : Site) : Finding :=
  let c := contextFor t settings (.below t.size s.path) propertyOrder
  { rule := propertyOrder, node := s.node, context := c
    violation := c.violation s.node.span (message s.node (.ofRank (highest s.earlier))) }

/-- The parent in the scope of a place is the last node of the path to it. -/
theorem parent_below (size : Nat) (path : List Node) :
    (Scope.below size path).parent = path.getLast?.getD (Scope.document size).parent := by
  induction path using List.reverseRecOn with
  | nil => rfl
  | append_singleton path n ih =>
    rw [Scope.below_concat, List.getLast?_concat]
    rfl

/-- Outside of blocks the rule finds nothing. -/
theorem runRule_outside {n : Node} {c : Context} {m : Memory} (hlabel : c.scope.parent.label ≠ .style .block) :
    (runRule propertyOrder n c m).1 = [] := by
  rcases runRule_propertyOrder n c m with ⟨-, hall⟩ | ⟨hnone, -⟩
  · refine List.eq_nil_iff_forall_not_mem.2 fun f hf => ?_
    obtain ⟨b, hplaced, -⟩ := hall f hf
    exact hlabel (bucket_of_placed hplaced).1
  · exact hnone

/-- **What is found at a place**: one finding about its node if that is out of place, and nothing
else. -/
theorem found_at (hlanguage : language ≠ .python) (hparse : Stylesheet.parse d t.chars = .ok tree)
    (hs : s ∈ tree.sites [] []) :
    (turnsAt t settings (rulesAt language [propertyOrder]) s).flatMap Turn.found =
      if isOutOfPlace s then [findingAt t settings s] else [] := by
  have hrules : rulesAt language [propertyOrder] s.node.kind =
      if propertyOrder.concerns language s.node.kind then [propertyOrder] else [] := by
    rw [rulesAt, List.filter_singleton]
    cases propertyOrder.concerns language s.node.kind <;> rfl
  unfold turnsAt
  simp only [hrules]
  split
  · set c := contextFor t settings (.below t.size s.path) propertyOrder with hc
    have hparent : c.scope.parent = s.path.getLast?.getD (Scope.document t.size).parent := parent_below t.size s.path
    simp only [turnsFrom, List.flatMap_cons, List.flatMap_nil, List.append_nil, Turn.found, ← hc]
    by_cases hblock : c.scope.parent.label = .style .block
    · have hpath : s.path.getLast?.any isBlock = true := by
        cases hlast : s.path.getLast? with
        | none =>
          rw [hparent, hlast] at hblock
          cases hblock
        | some parent =>
          rw [hparent, hlast] at hblock
          exact isBlock_iff.2 hblock
      have hin : s.node.span.stop ≤ t.size :=
        Stylesheet.stop_le_size hparse (Node.mem_walk_iff.2 ⟨s, hs, rfl⟩)
      -- the memory is what the rule left at the siblings before
      have hmemory : memoryAfter t settings (.below t.size s.path) s.node [] propertyOrder.id
          (memoryBelow t settings (rulesAt language [propertyOrder]) (.below t.size s.path) s.earlier
            propertyOrder.id) = ownMemory t settings language c.scope propertyOrder s.earlier :=
        memoryBelow_eq (by simp) _ _
      rw [hmemory]
      have hrecalled := @recalled_ownMemory t settings language c.scope hblock hlanguage s.earlier
      generalize ownMemory t settings language c.scope propertyOrder s.earlier = m at hrecalled
      have hbucket : recalled m = .ofRank (highest s.earlier) := by rw [← hrecalled, ofRank_rank]
      have hfinding : findingOf propertyOrder s.node c (c.violation s.node.span (message s.node (recalled m))) =
          findingAt t settings s := by
        have hstop : (c.violation s.node.span (message s.node (recalled m))).span.stop ≤ c.text.size := hin
        rw [findingOf, if_neg (Nat.not_lt.2 hstop), hbucket]
        rfl
      rw [runRule_eq hblock, hfinding, hrecalled]
      unfold isOutOfPlace
      rw [hpath, Bool.true_and]
      by_cases hn : isMovable s.node = true
      · by_cases hlt : rankOf s.node < highest s.earlier
        · simp [hn, hlt]
        · simp [hn, hlt]
      · simp [hn]
    · have hpath : s.path.getLast?.any isBlock = false := by
        cases hlast : s.path.getLast? with
        | none => rfl
        | some parent =>
          rw [hparent, hlast] at hblock
          exact Bool.eq_false_iff.2 fun h => hblock (isBlock_iff.1 h)
      rw [runRule_outside hblock]
      simp [isOutOfPlace, hpath]
  · rename_i hconcerns
    have hnot : isMovable s.node = false := by
      by_contra h
      exact hconcerns (concerns_of_movable hlanguage (by simpa using h))
    simp [turnsFrom, isOutOfPlace, hnot]

/-! ### Blocks -/

/-- **A block is out of order exactly if one of its children is out of place.** -/
theorem not_inRankOrder_iff {block : Node} : ¬ InRankOrder (movable block) ↔
    ∃ before n later, block.children = before ++ n :: later ∧ isMovable n = true ∧ rankOf n < highest before := by
  constructor
  · intro hout
    by_contra hnone
    refine hout ?_
    have hprefix : ∀ ns rest, block.children = ns ++ rest → InRankOrder (ns.filter isMovable) := by
      intro ns
      induction ns using List.reverseRecOn with
      | nil => exact fun _ _ => .nil
      | append_singleton ns n ih =>
        intro rest hchildren
        rw [List.append_assoc, List.singleton_append] at hchildren
        rw [List.filter_append]
        refine List.pairwise_append.2 ⟨ih _ hchildren, ?_, fun a ha b hb => ?_⟩
        · by_cases hn : isMovable n = true
          · rw [List.filter_cons_of_pos hn]
            exact List.pairwise_singleton _ _
          · rw [List.filter_cons_of_neg hn]
            exact .nil
        · obtain ⟨hb, hn⟩ := List.mem_filter.1 hb
          rw [List.mem_singleton.1 hb] at hn ⊢
          by_contra hlt
          exact hnone ⟨ns, n, rest, hchildren, hn, lt_highest_iff.2 ⟨a, ha, Nat.not_le.1 hlt⟩⟩
    exact hprefix block.children [] (List.append_nil _).symm
  · rintro ⟨before, n, later, hchildren, hn, hlt⟩ hin
    obtain ⟨a, ha, hlt⟩ := lt_highest_iff.1 hlt
    change InRankOrder (block.children.filter isMovable) at hin
    rw [hchildren, List.filter_append, List.filter_cons_of_pos hn] at hin
    exact absurd ((List.pairwise_append.1 hin).2.2 a ha n List.mem_cons_self) (Nat.not_le.2 hlt)

/-- What is offered depends on the text and the block alone. -/
theorem fix_congr {c c' : Context} (htext : c.text = c'.text) (hparent : c.scope.parent = c'.scope.parent)
    (hinfo : c.info = c'.info) : fix c = fix c' := by
  unfold fix
  rw [htext, hparent, hinfo]

/-- **An edit puts a block in order.** It covers the children that take part in the order and what
stands between them. It writes their texts, each once and with a semicolon where one has to be added,
in the order of their groups and as they were within each group; the texts between neighbours stay
in their places. -/
structure Reorders (t : Source) (block : Node) (order : List Node) (e : Edit) : Prop where
  perm : order.Perm (movable block)
  sorted : InRankOrder order
  stable : ∀ k, order.filter (fun m => rankOf m = k) = (movable block).filter fun m => rankOf m = k
  span : ∃ first last, (movable block).head? = some first ∧ (movable block).getLast? = some last ∧
    e.span = .between first.span.start last.span.stop
  replacement : e.replacement.toList = interleave (order.map (statementText t)) (gaps t (movable block))

theorem reorders_of_fix {c : Context} {e : Edit} (h : fix c = some e) :
    Reorders c.text c.scope.parent (ordered c.scope.parent) e := by
  obtain ⟨m, ms, hms, hspan, hreplacement⟩ := fix_shape h
  have hordered : ordered c.scope.parent = byRank (m :: ms) := by rw [← hms]; rfl
  refine ⟨byRank_perm _, byRank_sorted _, byRank_stable _, ⟨m, ms.getLastD m, ?_, ?_, hspan⟩, ?_⟩
  · rw [hms]
    rfl
  · rw [hms, List.getLast?_cons, List.getLastD_eq_getLast?]
  · rw [hms, hordered]
    exact hreplacement

/-! ### The whole text -/

/-- **What is told about a child of a block that is out of place**: it is reported where it stands,
with its own name and the highest group before it, and what mends it is an edit for its block. -/
structure Told (s : Site) (f : Finding) : Prop where
  node : f.node = s.node
  block : s.path.getLast? = some f.context.scope.parent
  span : f.violation.span = s.node.span
  message : f.violation.message = PropertyOrder.message s.node (.ofRank (highest s.earlier))

theorem told_findingAt (h : isOutOfPlace s = true) : Told s (findingAt t settings s) := by
  refine ⟨rfl, ?_, rfl, rfl⟩
  unfold isOutOfPlace at h
  simp only [Bool.and_eq_true] at h
  obtain ⟨parent, hparent, -⟩ := (Option.any_eq_true _ _).1 h.1.1
  change s.path.getLast? = some (Scope.below t.size s.path).parent
  rw [parent_below, hparent]
  rfl

/-- What is found in a whole text by the rule alone. -/
theorem found_eq {p : Parsed} {found : List Finding} (hlanguage : p.language ≠ .python)
    (htree : p.tree? = some tree) (hparse : Stylesheet.parse d p.text.chars = .ok tree)
    (h : matchTree p [propertyOrder] settings = .ok found) :
    found = ((tree.sites [] []).filter isOutOfPlace).map (findingAt p.text settings) := by
  rw [matchTree_eq _ _ htree, collect_eq_ok_iff] at h
  rw [← h.2]
  exact flatMap_turns fun s hs => found_at hlanguage hparse hs

theorem isStatement_of_movable {n : Node} (h : isMovable n = true) : IsStatement n := by
  unfold isMovable bucket? at h
  unfold IsStatement
  split at h
  · rename_i hlabel; rw [hlabel]; trivial
  · rename_i hlabel; rw [hlabel]; trivial
  · rename_i hlabel; rw [hlabel]; trivial
  · cases h

/-- What is found in a text is reported in the order of the places. -/
theorem reported_eq (hparse : Stylesheet.parse d t.chars = .ok tree) (hruns : settings.runs .propertyOrder = true) :
    (aggregate settings
        ((((tree.sites [] []).filter isOutOfPlace).map (findingAt t settings)).map Finding.violation)).violations =
      (((tree.sites [] []).filter isOutOfPlace).map (findingAt t settings)).map fun f =>
        { f.violation with severity := (settings.rule .propertyOrder).severity } := by
  have hstatement : ∀ s ∈ (tree.sites [] []).filter isOutOfPlace, IsStatement s.node := by
    intro s hs
    have hout := (List.mem_filter.1 hs).2
    unfold isOutOfPlace at hout
    simp only [Bool.and_eq_true] at hout
    exact isStatement_of_movable hout.1.2
  have hascends : ((((tree.sites [] []).filter isOutOfPlace).map (findingAt t settings)).map
      Finding.violation).Pairwise fun a b => a.span.start < b.span.start := by
    have hall := Stylesheet.parse_ascends hparse
    rw [← Node.map_node_sites [] [], List.pairwise_map] at hall
    refine List.pairwise_map.2 (List.pairwise_map.2 ((hall.filter _).imp_of_mem fun {a b} ha hb hlt => ?_))
    exact hlt (hstatement a ha) (hstatement b hb)
  rw [violations_of_ascending (fun v hv => ?_) hruns hascends, List.map_map, List.map_map, List.map_map]
  · rfl
  · obtain ⟨f, hf, rfl⟩ := List.mem_map.1 hv
    obtain ⟨s, -, rfl⟩ := List.mem_map.1 hf
    rfl

/-- **Check and fix agree about a text**, where `found` is what is found about the order of its blocks
and `reported` is what is reported about it. -/
structure Agrees (t : Source) (settings : Settings) (tree : Node) (found : List Finding)
    (reported : List Violation) : Prop where
  /-- There is one finding for each child of a block whose group comes before the highest one among
  the siblings before it, in document order, and no other. -/
  told : List.Forall₂ Told ((tree.sites [] []).filter isOutOfPlace) found
  /-- All of them are reported. -/
  reported : reported = found.map fun f => { f.violation with severity := (settings.rule .propertyOrder).severity }
  /-- A block is in order exactly if nothing is found in it. -/
  quiet : ∀ block ∈ Node.walk tree, block.label = .style .block →
    (InRankOrder (movable block) ↔ ∀ f ∈ found, f.context.scope.parent ≠ block)
  /-- All that is found in one block is mended by the same edit, which puts it in order. -/
  edit : ∀ block ∈ Node.walk tree, block.label = .style .block → ¬ InRankOrder (movable block) →
    ∃ order e, Reorders t block order e ∧
      ∀ f ∈ found, f.context.scope.parent = block → f.offer = .ok (some e)

/-- A child of a block that is out of place is found. -/
theorem mem_findingAt {block n : Node} {before later : List Node} (hblock : block ∈ Node.walk tree)
    (hlabel : block.label = .style .block) (hchildren : block.children = before ++ n :: later)
    (hn : isMovable n = true) (hlt : rankOf n < highest before) :
    ∃ s ∈ (tree.sites [] []).filter isOutOfPlace, (findingAt t settings s).context.scope.parent = block := by
  obtain ⟨b, hb, rfl⟩ := Node.mem_walk_iff.1 hblock
  refine ⟨_, List.mem_filter.2 ⟨Node.mem_sites_child hb hchildren, ?_⟩, ?_⟩
  · simp [isOutOfPlace, isBlock_iff.2 hlabel, hn, hlt]
  · change (Scope.below t.size (b.path ++ [b.node])).parent = b.node
    rw [parent_below, List.getLast?_concat]
    rfl

/-- What the rule finds by itself in a text, and what is reported of that. -/
theorem agrees_of_found {found : List Finding} (hlanguage : language ≠ .python)
    (htree : (parseStylesheet language d t).tree? = some tree) (hruns : settings.runs .propertyOrder = true)
    (hfound : matchTree (parseStylesheet language d t) [propertyOrder] settings = .ok found) :
    Agrees t settings tree found (aggregate settings (found.map Finding.violation)).violations := by
  have hparse := parseStylesheet_tree.1 htree
  have hmisplaced := outOfOrder_of_matchTree htree (fun r hr _ => List.mem_singleton.1 hr) hfound
  have heq := found_eq (by rwa [parseStylesheet_language]) htree (by rwa [parseStylesheet_text]) hfound
  rw [parseStylesheet_text] at hmisplaced heq
  subst heq
  refine ⟨?_, reported_eq hparse hruns, fun block hblock hlabel => ⟨fun hin f hf hparent => ?_, fun hquiet => ?_⟩,
    fun block hblock hlabel hout => ?_⟩
  · rw [List.forall₂_map_right_iff, List.forall₂_same]
    exact fun s hs => told_findingAt (List.mem_filter.1 hs).2
  · obtain ⟨s, -, rfl⟩ := List.mem_map.1 hf
    rw [← hparent] at hin
    exact (hmisplaced _ hf rfl).outOfOrder hin
  · by_contra hout
    obtain ⟨before, n, later, hchildren, hn, hlt⟩ := not_inRankOrder_iff.1 hout
    obtain ⟨s, hs, hparent⟩ := @mem_findingAt t settings tree block n before later hblock hlabel hchildren hn hlt
    exact hquiet _ (List.mem_map_of_mem hs) hparent
  · obtain ⟨before, n, later, hchildren, hn, hlt⟩ := not_inRankOrder_iff.1 hout
    obtain ⟨s, hs, rfl⟩ := @mem_findingAt t settings tree block n before later hblock hlabel hchildren hn hlt
    obtain ⟨e, hfix, -⟩ := fix_of_outOfOrder (c := (findingAt t settings s).context) hparse
      (hmisplaced _ (List.mem_map_of_mem hs) rfl)
    refine ⟨_, e, reorders_of_fix hfix, fun f hf hparent => ?_⟩
    obtain ⟨s', hs', rfl⟩ := List.mem_map.1 hf
    -- the text and the block are the same
    have hsame : fix (findingAt t settings s').context = fix (findingAt t settings s).context :=
      fix_congr rfl hparent rfl
    exact congrArg Except.ok (hsame.trans hfix)

/-- **Check and fix agree about the order of blocks.** In a stylesheet a child of a block is reported
exactly if its group comes before the highest group among the siblings before it. What is offered for
it is an edit, the same for all children of the block, and it puts the block in order. Nothing is
reported about a block exactly if that is in order. -/
theorem check_and_fix_agree {p : Parsed} (hlanguage : language ≠ .python) (hparse : parse language t = .ok p)
    (htree : p.tree? = some tree) (hruns : settings.runs .propertyOrder = true) :
    ∃ checked, checkParsed p (enabledRules settings) settings = .ok checked ∧
      Agrees t settings tree (checked.findings.filter fun f => f.rule.id == propertyOrder.id)
        (part propertyOrder.id checked.report.violations) := by
  obtain ⟨d, hd⟩ := exists_dialect hlanguage
  obtain rfl : parseStylesheet language d t = p := Except.ok.inj ((hd t).symm.trans hparse)
  have hseparate := separate_enabledRules settings
  obtain ⟨checked, hchecked, -⟩ := hseparate.reports (parseStylesheet language d t) settings
  obtain ⟨found, hfound, hreport⟩ := report_of_checkParsed (fault?_of_tree? htree) hchecked
  obtain rfl : found = checked.findings := by
    have hfindings := findings_of_checkParsed (fault?_of_tree? htree) hchecked
    rw [hfound] at hfindings
    exact Except.ok.inj hfindings
  refine ⟨checked, hchecked, ?_⟩
  -- the rule finds by itself what it finds among the others
  have hrule : propertyOrder ∈ enabledRules settings :=
    List.mem_map.2 ⟨.propertyOrder, List.mem_filter.2 ⟨RuleId.mem_all _, hruns⟩, rfl⟩
  have hown := matchTree_filter hfound propertyOrder.id
  obtain ⟨own, hown', hpart⟩ :=
    part_of_rules hseparate.own hfound (show isInternalId propertyOrder.id = false by decide)
  rw [rulesOf, filter_id_eq hseparate.ids hrule] at hown hown'
  obtain rfl := Except.ok.inj (hown.symm.trans hown')
  have hagrees := agrees_of_found hlanguage htree hruns hown
  have hnames : part propertyOrder.id ((checked.findings.filter fun f => f.rule.id == propertyOrder.id).map
      Finding.violation) = (checked.findings.filter fun f => f.rule.id == propertyOrder.id).map Finding.violation := by
    refine List.filter_eq_self.2 fun v hv => ?_
    obtain ⟨f, hf, rfl⟩ := List.mem_map.1 hv
    rw [found_eq (by rwa [parseStylesheet_language]) htree
      (by rw [parseStylesheet_text]; exact parseStylesheet_tree.1 htree) hown] at hf
    obtain ⟨s, -, rfl⟩ := List.mem_map.1 hf
    exact beq_self_eq_true _
  rw [hreport, hpart, hnames]
  exact hagrees

/-- A block whose second and fourth child are out of place, and one in it that is in order. -/
theorem check_and_fix_agree_nested : ∃ p tree checked,
    parse .scss (.ofString ".a \x7b @include x; b: c; .d \x7b e: f; @include y \x7d @include z \x7d") = .ok p ∧
      p.tree? = some tree ∧ checkParsed p (enabledRules .default) .default = .ok checked ∧
      ((tree.sites [] []).filter isOutOfPlace).map (fun s => (s.node.span.start, highest s.earlier)) =
        [(17, 1), (47, 2)] ∧
      Agrees (.ofString ".a \x7b @include x; b: c; .d \x7b e: f; @include y \x7d @include z \x7d") .default tree
        (checked.findings.filter fun f => f.rule.id == propertyOrder.id)
        (part propertyOrder.id checked.report.violations) := by
  set t : Source := .ofString ".a \x7b @include x; b: c; .d \x7b e: f; @include y \x7d @include z \x7d" with ht
  have hb : (parseStylesheet .scss .scss t).tree?.any (fun tree =>
      ((tree.sites [] []).filter isOutOfPlace).map (fun s => (s.node.span.start, highest s.earlier)) ==
        [(17, 1), (47, 2)]) = true := by
    rw [ht]
    decide +kernel
  obtain ⟨tree, htree, hplaces⟩ := (Option.any_eq_true _ _).1 hb
  obtain ⟨checked, hchecked, hagrees⟩ :=
    check_and_fix_agree (show Language.scss ≠ .python by decide) rfl htree (show Settings.default.runs _ = true by rfl)
  exact ⟨_, tree, checked, rfl, htree, hchecked, beq_iff_eq.1 hplaces, hagrees⟩

end HouseStyle.PropertyOrder
