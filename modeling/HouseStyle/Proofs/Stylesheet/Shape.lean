import HouseStyle.Stylesheet.Parser
import HouseStyle.Proofs.Tree.Relocation

/-!
# The shape of a statement

* `atRule_shape`, `declaration_shape`, `rule_shape`: the children of each sort of
  statement.
* `selectorList_shape`: below the selectors of a rule there are only parts of its head.
-/

namespace HouseStyle.Stylesheet

open Node (walkList)

variable {src : Array Char}

/-- All nodes of a tree but its root stand below it. -/
theorem mem_walkList_of_root {n : Node} {start stop : Nat} {ns : List Node}
    (h : n ∈ Node.walk (nodeOf .stylesheet start stop ns)) (hlabel : n.label ≠ .style .stylesheet) :
    n ∈ walkList ns := by
  rw [Node.walk_eq, List.mem_cons] at h
  refine h.resolve_left ?_
  rintro rfl
  exact hlabel rfl

theorem atRule_shape {start headStop stop : Nat} {block : Option Node} {node : Node}
    (h : atRule src start headStop stop block = .ok node) :
    ∃ name prelude mixin,
      node = nodeOf (.atRule name prelude mixin block.isSome) start stop block.toList := by
  simp only [atRule] at h
  split at h
  · cases h
  · cases h
    exact ⟨_, _, _, rfl⟩

theorem declaration_shape {start bodyStop stop : Nat} {node : Node}
    (h : declaration src start bodyStop stop = .ok node) :
    ∃ property value important name propertyStop valueStart,
      node = nodeOf (.declaration property value important) start stop
        [nodeOf (.property name) start propertyStop [], nodeOf (.value value) valueStart bodyStop []] := by
  unfold declaration at h
  split at h
  · cases h
  · cases h
  · cases h
    exact ⟨_, _, _, _, _, _, rfl⟩

theorem rule_shape {start headStop stop : Nat} {block node : Node}
    (h : rule src start headStop stop block = .ok node) :
    ∃ list, selectorList src start headStop = .ok list ∧
      node = nodeOf (.rule (Cursor.text src start headStop)) start stop [list, block] := by
  unfold rule at h
  split at h
  · cases h
  · rename_i list hl
    cases h
    exact ⟨list, hl, rfl⟩

/-- A part of the head of a rule. -/
def IsSelectorPart (n : Node) : Prop :=
  match n.label with
  | .style (.selector _) | .style (.idSelector _ _) | .style (.classSelector _ _) => True
  | _ => False

theorem simpleSelectors_parts {stop pos : Nat} {parts : List Node}
    (h : simpleSelectors src stop pos = .ok parts) : ∀ m ∈ walkList parts, IsSelectorPart m := by
  fun_induction simpleSelectors src stop pos generalizing parts with
  | case1 => cases h
  | case2 _ _ _ _ _ ih => exact ih h
  | case3 => cases h; intro m hm; cases hm
  | case4 _ _ _ _ _ ih => exact ih h
  | case5 => cases h
  | case6 pos hlt hq c hc hne hm nameEnd hle rest hrest =>
    rename_i ih
    cases h
    intro m hmem
    rcases List.mem_append.1 hmem with hm | hm
    · have hleaf : m = simpleSelector src c pos nameEnd := by
        simpa [simpleSelector, nodeOf, Node.walk, walkList] using hm
      subst hleaf
      by_cases hmark : c = '#' <;> simp [IsSelectorPart, simpleSelector, nodeOf, hmark]
    · exact ih hrest m hm
  | case7 _ _ _ _ _ _ _ ih => exact ih h
  | case8 => cases h; intro m hm; cases hm

theorem selectorBetween_parts {start stop : Nat} {found : List Node}
    (h : selectorBetween src start stop = .ok found) : ∀ m ∈ walkList found, IsSelectorPart m := by
  simp only [selectorBetween] at h
  split at h
  · cases h; intro m hm; cases hm
  · split at h
    · cases h
    · rename_i parts hp
      cases h
      intro m hm
      rw [walkList, List.mem_append, nodeOf, Node.walk, List.mem_cons] at hm
      rcases hm with (rfl | hm) | hm
      · exact trivial
      · exact simpleSelectors_parts hp m hm
      · cases hm

theorem selectorsFrom_parts {stop segment depth pos : Nat} {found : List Node}
    (h : selectorsFrom src stop segment depth pos = .ok found) :
    ∀ m ∈ walkList found, IsSelectorPart m := by
  fun_induction selectorsFrom src stop segment depth pos generalizing found with
  | case1 => cases h
  | case2 _ _ _ _ _ _ _ ih => exact ih h
  | case3 => cases h; intro m hm; cases hm
  | case4 _ _ _ _ _ _ _ _ ih => exact ih h
  | case5 _ _ _ _ _ _ _ _ _ ih => exact ih h
  | case6 => cases h
  | case7 => cases h
  | case8 _ _ _ _ _ _ _ _ _ _ here hhere rest hrest ih =>
    cases h
    intro m hm
    rw [Node.walkList_append, List.mem_append] at hm
    rcases hm with hm | hm
    · exact selectorBetween_parts hhere m hm
    · exact ih hrest m hm
  | case9 _ _ _ _ _ _ _ _ _ _ ih => exact ih h
  | case10 => exact selectorBetween_parts h

theorem selectorList_shape {start stop : Nat} {list : Node} (h : selectorList src start stop = .ok list) :
    list = nodeOf .selectorList start stop list.children ∧
      ∀ m ∈ walkList list.children, IsSelectorPart m := by
  unfold selectorList at h
  split at h
  · cases h
  · rename_i found hf
    cases h
    exact ⟨rfl, selectorsFrom_parts hf⟩

end HouseStyle.Stylesheet
