import HouseStyle.Tree.Basic

/-!
# Trees at another place

A stretch of text that is copied elsewhere brings its tree along.

* `Node.relocate`: the tree of a stretch that stood at one offset and stands at
  another.
* `Node.Replaced`: a tree with one of its nodes replaced.
-/

namespace HouseStyle

@[ext] theorem Span.ext {s t : Span} (hstart : s.start = t.start) (hstop : s.stop = t.stop) : s = t := by
  cases s; cases t
  cases hstart; cases hstop; rfl

/-- The range at `new` of a stretch that stood at `old`. -/
def Span.relocate (old new : Nat) (s : Span) : Span :=
  { start := new + (s.start - old), stop := new + (s.stop - old)
    start_le_stop := by have := s.start_le_stop; omega }

namespace Span

variable {old new : Nat}

@[simp] theorem relocate_start (s : Span) : (s.relocate old new).start = new + (s.start - old) := rfl

@[simp] theorem relocate_stop (s : Span) : (s.relocate old new).stop = new + (s.stop - old) := rfl

theorem relocate_between (i j : Nat) :
    (between (old + i) (old + j)).relocate old new = between (new + i) (new + j) := by
  ext <;> simp only [relocate_start, relocate_stop, between_start, between_stop] <;> omega

theorem between_relocate {start stop : Nat} (hstart : old ≤ start) (hstop : old ≤ stop) :
    (between start stop).relocate old new = between (new + (start - old)) (new + (stop - old)) := by
  ext <;> simp only [relocate_start, relocate_stop, between_start, between_stop] <;> omega

theorem relocate_self {s : Span} (h : old ≤ s.start) : s.relocate old old = s := by
  have := s.start_le_stop
  ext <;> simp only [relocate_start, relocate_stop] <;> omega

end Span

namespace Node

mutual

/-- The tree at `new` of a stretch that stood at `old`. -/
def relocate (old new : Nat) : Node → Node
  | ⟨label, span, children⟩ => ⟨label, span.relocate old new, relocateList old new children⟩

/-- The trees at `new` of a stretch that stood at `old`. -/
def relocateList (old new : Nat) : List Node → List Node
  | [] => []
  | n :: rest => relocate old new n :: relocateList old new rest

end

/-- A node that covers another range. -/
def cover (start stop : Nat) (n : Node) : Node :=
  { n with span := .between start stop }

variable {old new : Nat}

theorem relocateList_eq_map (ns : List Node) : relocateList old new ns = ns.map (relocate old new) := by
  induction ns with
  | nil => rfl
  | cons n rest ih => rw [relocateList, ih, List.map_cons]

@[simp] theorem relocate_label (n : Node) : (n.relocate old new).label = n.label := by
  cases n; rfl

@[simp] theorem relocate_span (n : Node) : (n.relocate old new).span = n.span.relocate old new := by
  cases n; rfl

@[simp] theorem relocate_children (n : Node) :
    (n.relocate old new).children = relocateList old new n.children := by
  cases n; rfl

@[simp] theorem relocateList_append (ns ms : List Node) :
    relocateList old new (ns ++ ms) = relocateList old new ns ++ relocateList old new ms := by
  rw [relocateList_eq_map, relocateList_eq_map, relocateList_eq_map, List.map_append]

theorem mem_walk_self (n : Node) : n ∈ walk n := by
  cases n
  rw [walk]
  exact List.mem_cons_self

theorem walk_eq (n : Node) : walk n = n :: walkList n.children := by
  cases n
  rw [walk]

theorem walkList_cons (n : Node) (rest : List Node) : walkList (n :: rest) = walk n ++ walkList rest :=
  rfl

theorem walkList_append (ns ms : List Node) : walkList (ns ++ ms) = walkList ns ++ walkList ms := by
  induction ns with
  | nil => rfl
  | cons n rest ih => rw [List.cons_append, walkList, walkList, ih, List.append_assoc]

theorem mem_walkList_of_mem {n : Node} {ns : List Node} (h : n ∈ ns) : n ∈ walkList ns := by
  induction ns with
  | nil => cases h
  | cons m rest ih =>
    rw [walkList, List.mem_append]
    rcases List.mem_cons.1 h with rfl | h
    · exact .inl (mem_walk_self _)
    · exact .inr (ih h)

/-- What stands right below a node is one of the nodes of its tree. -/
theorem mem_walk_of_child {m n : Node} (h : m ∈ n.children) : m ∈ walk n := by
  rw [walk_eq]
  exact List.mem_cons_of_mem _ (mem_walkList_of_mem h)

mutual

theorem relocate_self {base : Nat} (n : Node) (h : ∀ m ∈ walk n, base ≤ m.span.start) :
    n.relocate base base = n := by
  cases n with
  | mk label span children =>
    rw [walk] at h
    rw [relocate, relocateList_self children fun m hm => h m (List.mem_cons_of_mem _ hm),
      Span.relocate_self (h _ List.mem_cons_self)]

theorem relocateList_self {base : Nat} (ns : List Node) (h : ∀ m ∈ walkList ns, base ≤ m.span.start) :
    relocateList base base ns = ns := by
  cases ns with
  | nil => rfl
  | cons n rest =>
    rw [walkList] at h
    rw [relocateList, relocate_self n fun m hm => h m (List.mem_append_left _ hm),
      relocateList_self rest fun m hm => h m (List.mem_append_right _ hm)]

end

mutual

/-- What stands below a node of a tree stands in the tree. -/
theorem mem_walk_trans {m n : Node} (hm : m ∈ walk n) (tree : Node) (hn : n ∈ walk tree) :
    m ∈ walk tree := by
  cases tree with
  | mk label span children =>
    rw [walk, List.mem_cons] at hn
    rcases hn with rfl | hn
    · exact hm
    · rw [walk]
      exact List.mem_cons_of_mem _ (mem_walkList_trans hm children hn)

theorem mem_walkList_trans {m n : Node} (hm : m ∈ walk n) (trees : List Node) (hn : n ∈ walkList trees) :
    m ∈ walkList trees := by
  cases trees with
  | nil => cases hn
  | cons tree rest =>
    rw [walkList, List.mem_append] at hn ⊢
    rcases hn with hn | hn
    · exact .inl (mem_walk_trans hm tree hn)
    · exact .inr (mem_walkList_trans hm rest hn)

end

/-- **A tree with one of its nodes replaced.** What stands after the node moves along
with its end, and the nodes around it grow with it. -/
inductive Replaced (old new : Node) : Node → Node → Prop
  | here : Replaced old new old new
  | inside {label : Label} {span span' : Span} {before after : List Node} {n n' : Node}
      (inner : Replaced old new n n') (start : span'.start = span.start)
      (stop : span'.stop = new.span.stop + (span.stop - old.span.stop)) :
      Replaced old new ⟨label, span, before ++ n :: after⟩
        ⟨label, span', before ++ n' :: relocateList old.span.stop new.span.stop after⟩

end Node

end HouseStyle
