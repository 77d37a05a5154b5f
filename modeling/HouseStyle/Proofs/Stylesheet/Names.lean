import HouseStyle.Proofs.Stylesheet.Lossless
import HouseStyle.Proofs.Text.Pieces

/-!
# Names in a stylesheet

The names of ids, of classes and of at-rules are read as long as their characters belong to names. A line break
is no such character, although a backslash is one and may stand before a line break.

* `forall_mem_text_skipWhile`: the text that a scan passes over is made of what it looks for.
* `Named`: what a node names is made of such characters; the name of an at-rule is told in lower case.
* `named_of_parse`: **so are all names of a stylesheet**, and each of them stands on one line.
-/

namespace HouseStyle.Stylesheet

open Cursor (skipWhile)
open Node (walk walkList)

variable {d : Dialect} {src : Array Char}

/-- The text that a scan passes over is made of what it looks for. -/
theorem forall_mem_text_skipWhile (p : Char → Bool) (stop pos : Nat) :
    ∀ c ∈ (Cursor.text src pos (skipWhile p src stop pos)).toList, p c = true := by
  have hpassed : ∀ i, pos ≤ i → i < skipWhile p src stop pos → (src[i]?).any p = true := by
    fun_induction skipWhile p src stop pos with
    | case1 pos hc ih =>
      intro i hi hlt
      rcases Nat.eq_or_lt_of_le hi with rfl | hi
      · exact hc.2
      · exact ih i hi hlt
    | case2 pos hc => exact fun i hi hlt => absurd hlt (Nat.not_lt.2 hi)
  intro c hc
  rw [Cursor.text, String.toList_ofList, Array.mem_toList_iff, Array.mem_extract_iff_getElem] at hc
  obtain ⟨k, hk, rfl⟩ := hc
  have hany := hpassed (pos + k) (Nat.le_add_right pos k) (by omega)
  rwa [Array.getElem?_eq_getElem (by omega), Option.any_some] at hany

/-- What a node names is made of the characters of names. -/
def Named (n : Node) : Prop :=
  match n.label with
  | .style (.idSelector name _) | .style (.classSelector name _) => ∀ c ∈ name.toList, isNameChar c = true
  | .style (.atRule name _ _ _) => ∃ told : String, name = lower told ∧ ∀ c ∈ told.toList, isNameChar c = true
  | _ => True

theorem oneLine_of_nameChars {name : String} (h : ∀ c ∈ name.toList, isNameChar c = true) : OneLine name :=
  fun hmem => absurd (h _ hmem) (by decide)

/-! ### Parts of a statement -/

theorem simpleSelectors_named {stop pos : Nat} {parts : List Node}
    (h : simpleSelectors src stop pos = .ok parts) : ∀ m ∈ walkList parts, Named m := by
  fun_induction simpleSelectors src stop pos generalizing parts with
  | case1 => cases h
  | case2 _ _ _ _ _ ih => exact ih h
  | case3 => cases h; exact List.forall_mem_nil _
  | case4 _ _ _ _ _ ih => exact ih h
  | case5 => cases h
  | case6 pos hlt hq c hc hne hm nameEnd hle rest hrest =>
    rename_i ih
    cases h
    rw [Node.walkList_cons, List.forall_mem_append]
    refine ⟨List.forall_mem_singleton.2 ?_, ih hrest⟩
    have hname : ∀ c ∈ (Cursor.text src (pos + 1) nameEnd).toList, isNameChar c = true :=
      forall_mem_text_skipWhile isNameChar stop (pos + 1)
    rcases hm.1 with rfl | rfl <;> exact hname
  | case7 _ _ _ _ _ _ _ ih => exact ih h
  | case8 => cases h; exact List.forall_mem_nil _

/-- What stands between two commas names nothing but its ids and classes. -/
theorem selectorBetween_named {start stop : Nat} {found : List Node}
    (h : selectorBetween src start stop = .ok found) : ∀ m ∈ walkList found, Named m := by
  simp only [selectorBetween] at h
  split at h
  · cases h
    exact List.forall_mem_nil _
  · split at h <;> cases h
    rename_i parts hparts
    rw [Node.walkList_cons, walkList, List.append_nil, Node.walk_eq, List.forall_mem_cons]
    exact ⟨trivial, simpleSelectors_named hparts⟩

theorem Splits.named {stop segment : Nat} {found : List Node} (h : Splits src stop segment found) :
    ∀ m ∈ walkList found, Named m := by
  induction h with
  | last le here => exact selectorBetween_named here
  | comma le lt char here next ih =>
    rw [Node.walkList_append, List.forall_mem_append]
    exact ⟨selectorBetween_named here, ih⟩

/-- A statement and what stands in its head are named by characters of names. -/
theorem headNode_named {start headStop stop : Nat} {block : Option Node} {m : Node} (hle : start ≤ headStop)
    (hsize : headStop ≤ src.size) (hblock : ∀ b ∈ block, b.label = .style .block)
    (h : headNode src start headStop stop block = .ok m) :
    Named m ∧ ∀ c ∈ m.children, c.label ≠ .style .block → ∀ x ∈ walk c, Named x := by
  unfold headNode at h
  split at h
  · obtain ⟨nameStop, preludeStart, mixin, rfl, -, rfl⟩ := atRule_cases h
    refine ⟨⟨_, rfl, forall_mem_text_skipWhile _ _ _⟩, fun c hc hne => ?_⟩
    exact absurd (hblock c (Option.mem_toList.1 hc)) hne
  · cases block with
    | some b =>
      obtain ⟨list, hlist, rfl⟩ := rule_shape h
      obtain ⟨found, rfl, hsplits⟩ := splits_of_selectorList hle hsize hlist
      refine ⟨trivial, List.forall_mem_cons.2 ⟨fun _ => ?_, List.forall_mem_singleton.2 fun hne => ?_⟩⟩
      · rw [Node.walk_eq, List.forall_mem_cons]
        exact ⟨trivial, hsplits.named⟩
      · exact absurd (hblock b rfl) hne
    | none =>
      obtain ⟨property, value, important, name, propertyStop, valueStart, rfl⟩ := declaration_shape h
      refine ⟨trivial, List.forall_mem_cons.2 ⟨fun _ => ?_, List.forall_mem_singleton.2 fun _ => ?_⟩⟩
      · exact List.forall_mem_singleton.2 trivial
      · exact List.forall_mem_singleton.2 trivial

theorem Item.named {depth : Nat} {m : Node} (h : Item d src depth m) :
    Named m ∧ ∀ c ∈ m.children, c.label ≠ .style .block → ∀ x ∈ walk c, Named x := by
  cases h with
  | @closed _ stop _ rest starts head node =>
    have hstop := (starts.scan_bounds head).2.1
    exact headNode_named (starts.le_trimEnd head) (Nat.le_trans trimEnd_le hstop) (by rintro _ ⟨⟩) node
  | @unclosed _ stop _ c rest starts head char node =>
    have hstop := (starts.scan_bounds head).2.1
    exact headNode_named (starts.le_trimEnd head) (Nat.le_trans trimEnd_le hstop) (by rintro _ ⟨⟩) node
  | @nested depth brace last close children _ rest starts head inner trivia char node =>
    have hlt := starts.stop_lt_size head
    refine headNode_named (starts.le_trimEnd head) (Nat.le_trans trimEnd_le (Nat.le_of_lt hlt)) ?_ node
    rintro _ ⟨⟩
    rfl

/-! ### All nodes of a tree -/

/-- **The names of a stylesheet are made of characters of names.** -/
theorem named_of_parse {tree n : Node} (h : parse d src = .ok tree) (hn : n ∈ walk tree) : Named n := by
  obtain ⟨ns, r, hr, -, rfl⟩ := parse_iff.1 h
  rw [Node.walk_eq, List.mem_cons] at hn
  rcases hn with rfl | hn
  · exact trivial
  · exact hr.forall_nodes (fun _ _ hm => hm.named) (fun _ _ _ _ _ _ _ _ _ => trivial) n hn

/-- A name in a selector stands on one line. -/
theorem oneLine_of_named {n : Node} (h : Named n) {name : String} {interpolated : Bool}
    (hlabel : n.label = .style (.idSelector name interpolated) ∨ n.label = .style (.classSelector name interpolated)) :
    OneLine name := by
  rcases hlabel with hlabel | hlabel
  · rw [Named, hlabel] at h
    exact oneLine_of_nameChars h
  · rw [Named, hlabel] at h
    exact oneLine_of_nameChars h

/-- The name of an at-rule stands on one line. -/
theorem oneLine_of_named_atRule {n : Node} (h : Named n) {name prelude : String} {mixin : Option String}
    {hasBlock : Bool} (hlabel : n.label = .style (.atRule name prelude mixin hasBlock)) : OneLine name := by
  rw [Named, hlabel] at h
  obtain ⟨told, rfl, htold⟩ := h
  exact oneLine_lower (oneLine_of_nameChars htold)

end HouseStyle.Stylesheet
