import HouseStyle.Proofs.Rule.Ranks
import HouseStyle.Proofs.Text.Replacement

/-!
# Edits that make a stylesheet lighter

Of some edits that are performed at once the first one decides: the text before it stays as it
was, and the others do not add characters that count.

* `Lightens`: an edit makes a text lighter, whatever is done behind it.
* `applyAll_lighter`: so do edits of that sort when they are performed at once.
-/

namespace HouseStyle

open PropertyOrder

variable {t : Source}

/-- An edit adds no characters that count, and makes a text of plain CSS lighter even if what
follows it is replaced too, as long as no characters that count are added there. -/
structure Lightens (t : Source) (e : Edit) : Prop where
  count : solidCount e.replacement.toList ≤ solidCount (t.sliceChars e.span.start e.span.stop)
  lighter : ∀ more, solidCount more ≤ solidCount (t.chars.toList.drop e.span.stop) →
    styleWeight (t.chars.toList.take e.span.start ++ (e.replacement.toList ++ more)).toArray <
      styleWeight t.chars

/-- The characters that count of a text with a span in it. -/
theorem solidCount_text (t : Source) (s : Span) : solidCount t.chars.toList =
    solidCount (t.chars.toList.take s.start) +
      (solidCount (t.sliceChars s.start s.stop) + solidCount (t.chars.toList.drop s.stop)) := by
  rw [← solidCount_append, Source.sliceChars_append_drop s.start_le_stop, ← solidCount_append,
    List.take_append_drop]

/-- An edit that takes characters away which count makes the text lighter. -/
theorem lightens_of_fewer {e : Edit}
    (h : solidCount e.replacement.toList < solidCount (t.sliceChars e.span.start e.span.stop)) : Lightens t e := by
  refine ⟨Nat.le_of_lt h, fun more hmore => weight_lt_of_fewer (rankAt_le _) ?_⟩
  rw [solidCount_text t e.span, List.toList_toArray, solidCount_append, solidCount_append]
  omega

/-- An edit that adds no characters that count need only make texts lighter that do not have
more of them. -/
theorem lightens_of_count {e : Edit}
    (count : solidCount e.replacement.toList ≤ solidCount (t.sliceChars e.span.start e.span.stop))
    (lighter : ∀ (src' : Array Char) (more : List Char),
      src'.toList = t.chars.toList.take e.span.start ++ (e.replacement.toList ++ more) →
      solidCount src'.toList ≤ solidCount t.chars.toList → styleWeight src' < styleWeight t.chars) :
    Lightens t e := by
  refine ⟨count, fun more hmore => lighter _ more List.toList_toArray ?_⟩
  rw [solidCount_text t e.span, List.toList_toArray, solidCount_append, solidCount_append]
  omega

/-- Edits that add no characters that count add none together. -/
theorem solidCount_replacedFrom {edits : List Edit} (hb : edits.Pairwise Edit.Before)
    (h : ∀ e ∈ edits, Lightens t e) : ∀ {start : Nat}, (∀ e ∈ edits, start ≤ e.span.start) →
      solidCount (Edit.replacedFrom t.chars.toList start edits) ≤ solidCount (t.chars.toList.drop start) := by
  induction edits with
  | nil => exact fun _ => Nat.le_refl _
  | cons e rest ih =>
    intro start hstart
    have hcount := (h e List.mem_cons_self).count
    have hrest := ih hb.of_cons (fun x hx => h x (List.mem_cons_of_mem _ hx))
      fun x hx => (List.rel_of_pairwise_cons hb hx).1
    have hgap : t.chars.toList.extract start e.span.start = t.sliceChars start e.span.start :=
      Array.toList_extract.symm
    rw [Edit.replacedFrom, solidCount_append, solidCount_append, hgap,
      ← Source.sliceChars_append_drop (hstart e List.mem_cons_self), solidCount_append,
      ← Source.sliceChars_append_drop e.span.start_le_stop, solidCount_append]
    omega

/-- **Edits that make a text lighter do so together**: the first of them decides. -/
theorem applyAll_lighter {edits : List Edit} {cs : List Char} (hapart : edits.Pairwise Edit.Apart)
    (hi : ∀ e ∈ edits, e.span.stop ≤ t.size) (hne : edits ≠ []) (h : ∀ e ∈ edits, Lightens t e)
    (hcs : Edit.applyAll t.chars.toList edits = .ok cs) : styleWeight cs.toArray < styleWeight t.chars := by
  rw [Edit.applyAll_replaced hapart (by rw [Array.length_toList]; exact hi)] at hcs
  cases hcs
  have hperm := Edit.sorted_perm edits
  have hbefore := Edit.sorted_before hapart
  cases hsorted : Edit.sorted edits with
  | nil =>
    rw [hsorted] at hperm
    exact absurd hperm.symm.eq_nil hne
  | cons e rest =>
    rw [hsorted] at hperm hbefore
    have hl : ∀ x ∈ e :: rest, Lightens t x := fun x hx => h x (hperm.mem_iff.1 hx)
    have hmore := solidCount_replacedFrom hbefore.of_cons (fun x hx => hl x (List.mem_cons_of_mem _ hx))
      fun x hx => (List.rel_of_pairwise_cons hbefore hx).1
    rw [Edit.replacedFrom, List.append_assoc, List.extract_eq_take_drop, Nat.sub_zero, List.drop_zero]
    exact (hl e List.mem_cons_self).lighter _ hmore

end HouseStyle
