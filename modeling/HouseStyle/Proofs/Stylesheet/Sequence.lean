import HouseStyle.Proofs.Stylesheet.Nodes

/-!
# Statements start one after the other

In document order each statement of a stylesheet starts after the one before, also after the one
that it stands in, since a block begins behind the head.

* `Ascends`: the statements among some nodes start one after the other between two places.
* `Reads.ascends`: so do those that are read between two places, by induction on the reading.
* `parse_ascends`: **the statements of a text start one after the other.**
-/

namespace HouseStyle.Stylesheet

open Node (walk walkList)

variable {d : Dialect} {src : Array Char} {low mid high : Nat} {ns ms : List Node}

/-- The statements among some nodes start one after the other, from one place on and before
another one. -/
structure Ascends (low high : Nat) (ns : List Node) : Prop where
  bounds : ∀ n ∈ ns, IsStatement n → low ≤ n.span.start ∧ n.span.start < high
  increasing : ns.Pairwise fun a b => IsStatement a → IsStatement b → a.span.start < b.span.start

theorem Ascends.of_none (h : ∀ n ∈ ns, ¬ IsStatement n) : Ascends low high ns := by
  refine ⟨fun n hn hs => absurd hs (h n hn), List.pairwise_of_forall_mem_list ?_⟩
  exact fun a ha _ _ hs _ => absurd hs (h a ha)

theorem Ascends.single {n : Node} (hlow : low ≤ n.span.start) (hhigh : n.span.start < high) : Ascends low high [n] :=
  ⟨List.forall_mem_singleton.2 fun _ => ⟨hlow, hhigh⟩, List.pairwise_singleton _ _⟩

theorem Ascends.append (hlow : low ≤ mid) (hhigh : mid ≤ high) (h : Ascends low mid ns) (h' : Ascends mid high ms) :
    Ascends low high (ns ++ ms) := by
  constructor
  · intro n hn hs
    rcases List.mem_append.1 hn with hn | hn
    · exact ⟨(h.bounds n hn hs).1, Nat.lt_of_lt_of_le (h.bounds n hn hs).2 hhigh⟩
    · exact ⟨Nat.le_trans hlow (h'.bounds n hn hs).1, (h'.bounds n hn hs).2⟩
  · refine List.pairwise_append.2 ⟨h.increasing, h'.increasing, fun a ha b hb has hbs => ?_⟩
    exact Nat.lt_of_lt_of_le (h.bounds a ha has).2 (h'.bounds b hb hbs).1

theorem Ascends.mono {low' high' : Nat} (h : Ascends low high ns) (hlow : low' ≤ low) (hhigh : high ≤ high') :
    Ascends low' high' ns :=
  ⟨fun n hn hs => ⟨Nat.le_trans hlow (h.bounds n hn hs).1, Nat.lt_of_lt_of_le (h.bounds n hn hs).2 hhigh⟩, h.increasing⟩

theorem IsSelectorPart.not_statement {n : Node} (h : IsSelectorPart n) : ¬ IsStatement n := by
  intro hs
  unfold IsSelectorPart at h
  unfold IsStatement at hs
  split at hs
  · rename_i hlabel; rw [hlabel] at h; exact h
  · rename_i hlabel; rw [hlabel] at h; exact h
  · rename_i hlabel; rw [hlabel] at h; exact h
  · exact hs

/-- What stands in the head of a statement is no statement. -/
theorem headNode_parts_not_statement {start headStop stop : Nat} {block : Option Node} {m : Node}
    (h : headNode src start headStop stop block = .ok m) :
    ∃ parts, m.children = parts ++ block.toList ∧ ∀ x ∈ walkList parts, ¬ IsStatement x := by
  unfold headNode at h
  split at h
  · obtain ⟨name, prelude, mixin, rfl⟩ := atRule_shape h
    exact ⟨[], rfl, List.forall_mem_nil _⟩
  · split at h
    · rename_i b
      obtain ⟨list, hlist, rfl⟩ := rule_shape h
      refine ⟨[list], rfl, fun x hx hs => ?_⟩
      obtain ⟨hshape, hparts⟩ := selectorList_shape hlist
      rw [Node.walkList_cons, Node.walk_eq, List.mem_append, List.mem_cons] at hx
      rcases hx with (rfl | hx) | hx
      · rw [hshape] at hs
        exact hs
      · exact (hparts x hx).not_statement hs
      · cases hx
    · obtain ⟨property, value, important, name, propertyStop, valueStart, rfl⟩ := declaration_shape h
      refine ⟨_, (List.append_nil _).symm, fun x hx hs => ?_⟩
      simp only [nodeOf, walkList, Node.walk, List.append_nil, List.cons_append, List.nil_append, List.mem_cons,
        List.not_mem_nil, or_false] at hx
      rcases hx with rfl | rfl
      · exact hs
      · exact hs

/-- A statement comes first, and then what stands in its block. -/
theorem headNode_ascends {start headStop stop : Nat} {block : Option Node} {m : Node}
    (h : headNode src start headStop stop block = .ok m) (hlow : low ≤ m.span.start) (hmid : m.span.start < mid)
    (hhigh : mid ≤ high)
    (hblock : ∀ b, block = some b → b.label = .style .block ∧ Ascends mid high (walkList b.children)) :
    Ascends low high (walk m) := by
  obtain ⟨parts, hchildren, hparts⟩ := headNode_parts_not_statement h
  rw [Node.walk_eq, hchildren, Node.walkList_append, ← List.singleton_append]
  refine .append (by omega) hhigh (.single hlow hmid) (.append (Nat.le_refl mid) hhigh (.of_none hparts) ?_)
  cases block with
  | none => exact .of_none (List.forall_mem_nil _)
  | some b =>
    obtain ⟨hlabel, hinside⟩ := hblock b rfl
    have hb : ¬ IsStatement b := by
      unfold IsStatement
      rw [hlabel]
      exact id
    rw [Option.toList_some, Node.walkList_cons, Node.walk_eq, walkList, List.append_nil, ← List.singleton_append]
    exact .append (Nat.le_refl mid) hhigh (.of_none (List.forall_mem_singleton.2 hb)) hinside

/-- **Statements that are read between two places start one after the other**, by induction on the
reading. -/
theorem Reads.ascends {depth p r : Nat} {ns : List Node} (h : Reads d src depth p ns r) (hp : p ≤ src.size) :
    Ascends p r (walkList ns) := by
  induction h with
  | done => exact .of_none (List.forall_mem_nil _)
  | semicolon skip char rest ih =>
    have hlt := (Array.getElem?_eq_some_iff.1 char).1
    have hskip := (skipTrivia_bounds skip).1
    exact (ih hlt).mono (by omega) (Nat.le_refl _)
  | @closed depth p q stop r m ns skip starts head node rest ih =>
    have hlt := starts.stop_lt_size head
    have hskip := (skipTrivia_bounds skip).1
    have hhead := (starts.scan_bounds head).1
    have hstart := headNode_start (starts.le_trimEnd head) node
    rw [Node.walkList_cons]
    refine .append (by omega) (rest.bounds hlt).1 ?_ (ih hlt)
    exact headNode_ascends node (by omega) (by omega) (Nat.le_refl _) (by rintro _ ⟨⟩)
  | @unclosed depth p q stop m c skip starts head char node =>
    have hskip := (skipTrivia_bounds skip).1
    have hhead := starts.lt_stop head (by rcases char with rfl | rfl <;> decide)
    have hstart := headNode_start (starts.le_trimEnd head) node
    rw [Node.walkList_cons, walkList, List.append_nil]
    exact headNode_ascends node (by omega) (by omega) (Nat.le_refl _) (by rintro _ ⟨⟩)
  | @nested depth p q brace last close r children ns m skip starts head inner trivia char node rest ihi ih =>
    have hlt := starts.stop_lt_size head
    have hskip := (skipTrivia_bounds skip).1
    have hhead := (starts.scan_bounds head).1
    have hclose := (skipTrivia_bounds trivia).1
    have hend := (Array.getElem?_eq_some_iff.1 char).1
    have hinner := (inner.bounds hlt).1
    have hstart := headNode_start (starts.le_trimEnd head) node
    rw [Node.walkList_cons]
    refine .append (show p ≤ close + 1 by omega) (rest.bounds hend).1 ?_ (ih hend)
    have hstart' : m.span.start < brace + 1 := by omega
    refine headNode_ascends node (by omega) hstart' (by omega) ?_
    rintro _ ⟨⟩
    exact ⟨rfl, (ihi hlt).mono (Nat.le_refl _) (by omega)⟩

/-- **The statements of a text start one after the other**, in document order. -/
theorem parse_ascends {tree : Node} (h : parse d src = .ok tree) :
    (walk tree).Pairwise fun a b => IsStatement a → IsStatement b → a.span.start < b.span.start := by
  obtain ⟨ns, r, hr, -, rfl⟩ := parse_iff.1 h
  rw [Node.walk_eq]
  -- the root is no statement
  exact List.pairwise_cons.2 ⟨fun _ _ hs => hs.elim, (hr.ascends (Nat.zero_le _)).increasing⟩

end HouseStyle.Stylesheet
