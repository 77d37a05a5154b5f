import HouseStyle.Proofs.Text.Selection
import Mathlib.Data.List.Forall2

/-!
# Edits performed at once

Edits are performed one by one, the last one first, and only neighbours in their order
are tested for a conflict. The outcome is that of replacing all spans at once. Edits that put
single characters in the place of stretches leave every other character, so that each place of
the result stood at one of the text before.

* `replacedFrom`: the text with the spans of some edits replaced.
* `applyAll_simultaneous`: two edits that overlap anywhere are refused; else an edit
  that ends past the text is; else the spans are replaced. The order in which the edits
  are given does not matter.
* `originFrom`: where a place of the edited text stood.
* `replacedFrom_place`: a character was kept, or took the place of a stretch.
* `originFrom_length`: the end of the edited text was the end of the text.
* `applyAll_fits`: edits that put as many characters in the place of a stretch as stood there.
-/

namespace HouseStyle

namespace EditError

/-- Whether two edits compete for the same text. -/
def isConflict : EditError → Bool
  | .conflict _ _ => true
  | .outside _ => false

/-- What is told about a refused collection of edits: the kind of error and its wording. -/
def told (e : EditError) : Bool × String :=
  (e.isConflict, e.message)

end EditError

namespace Edit

variable {text : List Char} {edits edits' : List Edit}

/-- The text from an offset on, with the spans of some edits replaced that stand one
after the other. -/
def replacedFrom (text : List Char) : Nat → List Edit → List Char
  | start, [] => text.drop start
  | start, e :: rest =>
    text.extract start e.span.start ++ e.replacement.toList ++ replacedFrom text e.span.stop rest

/-! ### Edits that stand one after the other -/

theorem take_append_extract {start stop : Nat} (h : start ≤ stop) :
    text.take start ++ text.extract start stop = text.take stop := by
  rw [List.extract_eq_take_drop, ← List.take_add, Nat.add_sub_cancel' h]

/-- **The last edit first is all edits at once**, if they stand one after the other: what is
done leaves the text before the edits still to come as it was. -/
theorem applyBackwards_of_before (hb : edits.Pairwise Before) (hi : ∀ e ∈ edits, e.span.stop ≤ text.length) :
    ∀ {start : Nat}, start ≤ text.length → (∀ e ∈ edits, start ≤ e.span.start) →
      applyBackwards text edits = .ok (text.take start ++ replacedFrom text start edits) := by
  induction edits with
  | nil =>
    intro start _ _
    rw [applyBackwards, replacedFrom, List.take_append_drop]
  | cons e rest ih =>
    intro start _ hstart
    have hle := e.span.start_le_stop
    have hin := hi e List.mem_cons_self
    have hafter : ∀ x ∈ rest, e.span.stop ≤ x.span.start :=
      fun x hx => (List.rel_of_pairwise_cons hb hx).1
    have hlen : (text.take e.span.stop).length = e.span.stop := List.length_take_of_le hin
    rw [applyBackwards, ih hb.of_cons (fun x hx => hi x (List.mem_cons_of_mem _ hx)) hin hafter]
    simp only [if_pos hin]
    rw [splice, List.take_append_of_le_length (by omega), List.take_take, Nat.min_eq_left hle,
      List.drop_left' hlen, replacedFrom, ← List.append_assoc, ← List.append_assoc,
      take_append_extract (hstart e List.mem_cons_self)]

theorem applyBackwards_ne_conflict (a b : Edit) : applyBackwards text edits ≠ .error (.conflict a b) := by
  induction edits with
  | nil =>
    intro h
    rw [applyBackwards] at h
    cases h
  | cons e rest ih =>
    intro h
    rw [applyBackwards] at h
    cases hrest : applyBackwards text rest with
    | error err =>
      rw [hrest] at h
      cases h
      exact ih hrest
    | ok done =>
      simp only [hrest] at h
      split at h
      · cases h
      · cases h

/-- An edit that ends past the text is refused, and nothing else is. -/
theorem applyBackwards_outside :
    (∃ s, applyBackwards text edits = .error (.outside s)) ↔ ∃ e ∈ edits, text.length < e.span.stop := by
  induction edits with
  | nil => simp [applyBackwards]
  | cons e rest ih =>
    simp only [List.mem_cons, or_and_right, exists_or, exists_eq_left, ← ih]
    rw [applyBackwards]
    cases hrest : applyBackwards text rest with
    | error err =>
      cases err with
      | conflict a b => exact absurd hrest (applyBackwards_ne_conflict a b)
      | outside s => exact iff_of_true ⟨s, rfl⟩ (.inr ⟨s, rfl⟩)
    | ok done =>
      by_cases he : e.span.stop ≤ text.length
      · simp [if_pos he, Nat.not_lt.2 he]
      · simp [if_neg he, Nat.not_le.1 he]

/-! ### Any collection of edits -/

theorem applyAll_of_apart_eq (h : edits.Pairwise Apart) :
    applyAll text edits = applyBackwards text (sorted edits) := by
  have hs : (sorted edits).Pairwise Apart := (sorted_perm edits).symm.pairwise h fun hab => Apart.symm hab
  simp only [applyAll, firstConflict?_of_apart hs]

/-- Two edits that overlap are found, wherever they stand. -/
theorem exists_firstConflict? (h : ¬ edits.Pairwise Apart) :
    ∃ a b, firstConflict? (sorted edits) = some (a, b) := by
  cases hc : firstConflict? (sorted edits) with
  | some found => exact ⟨found.1, found.2, rfl⟩
  | none =>
    have hs := sorted_pairwise edits
    have hapart := (pairwise_apart_iff hs).2 (pairwise_before_of_firstConflict? hs hc)
    exact absurd ((sorted_perm edits).pairwise hapart fun hab => Apart.symm hab) h

/-- **A collection is refused for a conflict exactly when two of its members overlap.** -/
theorem applyAll_conflict :
    (∃ a b, applyAll text edits = .error (.conflict a b)) ↔ ¬ edits.Pairwise Apart := by
  constructor
  · rintro ⟨a, b, h⟩ hapart
    rw [applyAll_of_apart_eq hapart] at h
    exact applyBackwards_ne_conflict a b h
  · intro h
    obtain ⟨a, b, hc⟩ := exists_firstConflict? h
    refine ⟨a, b, ?_⟩
    simp only [applyAll, hc]

theorem applyAll_outside (h : edits.Pairwise Apart) :
    (∃ s, applyAll text edits = .error (.outside s)) ↔ ∃ e ∈ edits, text.length < e.span.stop := by
  rw [applyAll_of_apart_eq h, applyBackwards_outside]
  exact exists_congr fun e => and_congr_left' (sorted_perm edits).mem_iff

/-- **A collection that is not refused is performed at once.** -/
theorem applyAll_replaced (h : edits.Pairwise Apart) (hi : ∀ e ∈ edits, e.span.stop ≤ text.length) :
    applyAll text edits = .ok (replacedFrom text 0 (sorted edits)) := by
  have hi' : ∀ e ∈ sorted edits, e.span.stop ≤ text.length := fun e he => hi e ((sorted_perm edits).mem_iff.1 he)
  rw [applyAll_of_apart_eq h, applyBackwards_of_before (sorted_before h) hi' (Nat.zero_le _) fun _ _ => Nat.zero_le _,
    List.take_zero, List.nil_append]

/-- **Edits given one after the other are performed at once.** -/
theorem applyAll_of_before (h : edits.Pairwise Before) (hi : ∀ e ∈ edits, e.span.stop ≤ text.length) :
    applyAll text edits = .ok (replacedFrom text 0 edits) := by
  have hsorted : sorted edits = edits :=
    List.mergeSort_of_pairwise (h.imp fun hab => precedesOrEqual_iff.2 hab.place_le)
  rw [applyAll_replaced (h.imp Before.apart) hi, hsorted]

/-- What stands before the first edit stays. -/
theorem replacedFrom_append {pos : Nat} {w rest : List Char} (htext : text.drop pos = w ++ rest)
    (hedits : ∀ e ∈ edits, pos + w.length ≤ e.span.start) :
    replacedFrom text pos edits = w ++ replacedFrom text (pos + w.length) edits := by
  have hrest : text.drop (pos + w.length) = rest := by
    rw [← List.drop_drop, htext, List.drop_left]
  cases edits with
  | nil => rw [replacedFrom, replacedFrom, htext, hrest]
  | cons e edits =>
    have hle := hedits e List.mem_cons_self
    have hextract : text.extract pos e.span.start = w ++ text.extract (pos + w.length) e.span.start := by
      rw [List.extract_eq_take_drop, List.extract_eq_take_drop, htext, hrest, List.take_append,
        List.take_of_length_le (by omega), Nat.sub_sub]
    rw [replacedFrom, replacedFrom, hextract, List.append_assoc, List.append_assoc, List.append_assoc]

/-! ### In any order -/

/-- Edits that do not overlap have but one order. -/
theorem sorted_eq_of_apart (hp : edits'.Perm edits) (h : edits.Pairwise Apart) : sorted edits' = sorted edits := by
  have h' : edits'.Pairwise Apart := hp.symm.pairwise h fun hab => Apart.symm hab
  refine List.Perm.eq_of_pairwise (fun a b _ _ hab hba => ?_) (sorted_before h') (sorted_before h)
    ((sorted_perm edits').trans (hp.trans (sorted_perm edits).symm))
  exact absurd (hab.trans hba).2 (Nat.lt_irrefl _)

theorem forall₂_sorted (hp : edits'.Perm edits) :
    List.Forall₂ (fun a b => a.place = b.place) (sorted edits') (sorted edits) := by
  have hplaces : (sorted edits').map place = (sorted edits).map place := by
    refine List.Perm.eq_of_pairwise (fun a b _ _ hab hba => le_antisymm hab hba) ?_ ?_
      (((sorted_perm edits').trans (hp.trans (sorted_perm edits).symm)).map place)
    · exact List.pairwise_map.2 (sorted_pairwise edits')
    · exact List.pairwise_map.2 (sorted_pairwise edits)
  rw [← List.forall₂_eq_eq_eq, List.forall₂_map_left_iff, List.forall₂_map_right_iff] at hplaces
  exact hplaces

theorem span_of_place {a b : Edit} (h : a.place = b.place) : a.span = b.span ∧ a.rule = b.rule := by
  have h1 : a.span.start = b.span.start := congrArg (fun p => (ofLex p).1) h
  have h2 : a.span.stop = b.span.stop := congrArg (fun p => (ofLex (ofLex p).2).1) h
  have h3 : a.rule = b.rule := congrArg (fun p => (ofLex (ofLex p).2).2) h
  refine ⟨?_, h3⟩
  cases hs : a.span
  cases ht : b.span
  rw [hs, ht] at h1 h2
  cases h1
  cases h2
  rfl

/-- The first conflict is told by the places of the edits. -/
theorem firstConflict?_congr {xs ys : List Edit} (h : List.Forall₂ (fun a b => a.place = b.place) xs ys) :
    Option.Rel (fun c c' => c.1.place = c'.1.place ∧ c.2.place = c'.2.place) (firstConflict? xs)
      (firstConflict? ys) := by
  induction h with
  | nil => exact .none
  | @cons a a' xs ys ha hrest ih =>
    cases hrest with
    | nil => exact .none
    | @cons b b' xs ys hb hrest =>
      rw [firstConflict?, firstConflict?, (span_of_place ha).1, (span_of_place hb).1]
      split
      · exact .some ⟨ha, hb⟩
      · exact ih

theorem conflict_told {a b a' b' : Edit} (ha : a.place = a'.place) (hb : b.place = b'.place) :
    (EditError.conflict a b).told = (EditError.conflict a' b').told := by
  obtain ⟨has, har⟩ := span_of_place ha
  obtain ⟨hbs, hbr⟩ := span_of_place hb
  simp only [EditError.told, EditError.isConflict, EditError.message, label, has, har, hbs, hbr]

/-- **The order in which edits are given does not matter**, neither for the text nor for what
is told about a refusal. -/
theorem applyAll_perm (hp : edits'.Perm edits) :
    (applyAll text edits').mapError EditError.told = (applyAll text edits).mapError EditError.told := by
  by_cases h : edits.Pairwise Apart
  · rw [applyAll_of_apart_eq h, applyAll_of_apart_eq (hp.symm.pairwise h fun hab => Apart.symm hab),
      sorted_eq_of_apart hp h]
  · obtain ⟨a, b, hc⟩ := exists_firstConflict? h
    have hrel := firstConflict?_congr (forall₂_sorted hp)
    rw [hc] at hrel
    cases hc' : firstConflict? (sorted edits') with
    | none =>
      rw [hc'] at hrel
      cases hrel
    | some found =>
      rw [hc'] at hrel
      cases hrel with
      | some hplaces =>
        simp only [applyAll, hc, hc']
        exact congrArg Except.error (conflict_told hplaces.1 hplaces.2)

/-- **Performing edits replaces their spans at once.** The edits are refused for a conflict
exactly when two of them overlap, neighbours or not; if not, they are refused
exactly when one ends past the text; and if not, the result is the text with the spans
replaced. The order in which they are given does not matter. -/
theorem applyAll_simultaneous (text : List Char) (edits : List Edit) :
    ((∃ a b, applyAll text edits = .error (.conflict a b)) ↔ ¬ edits.Pairwise Apart) ∧
      (edits.Pairwise Apart →
        ((∃ s, applyAll text edits = .error (.outside s)) ↔ ∃ e ∈ edits, text.length < e.span.stop)) ∧
      (edits.Pairwise Apart → (∀ e ∈ edits, e.span.stop ≤ text.length) →
        ∃ ordered, ordered.Perm edits ∧
          ordered.Pairwise (fun a b => a.span.stop ≤ b.span.start ∧ a.span.start < b.span.start) ∧
          applyAll text edits = .ok (replacedFrom text 0 ordered)) ∧
      ∀ edits', edits'.Perm edits →
        (applyAll text edits').mapError EditError.told = (applyAll text edits).mapError EditError.told :=
  ⟨applyAll_conflict, applyAll_outside,
    fun h hi => ⟨_, sorted_perm edits, sorted_before h, applyAll_replaced h hi⟩, fun _ => applyAll_perm⟩

/-! ### Where the characters of an edited text stood -/

variable {start : Nat}

/-- The edit puts a single character in the place of a stretch. -/
structure Narrows (c : Char) (e : Edit) : Prop where
  replacement : e.replacement.toList = [c]
  nonempty : e.span.start < e.span.stop

/-- Where a place stood in the text before, when edits that put single characters in the place of
stretches have been performed on the text from an offset on. -/
def originFrom (start : Nat) : List Edit → Nat → Nat
  | [], p => start + p
  | e :: rest, p =>
    if p ≤ e.span.start - start then start + p
    else originFrom e.span.stop rest (p - (e.span.start - start + 1))

theorem length_before (start : Nat) {e : Edit} (hin : e.span.stop ≤ text.length) :
    (text.extract start e.span.start).length = e.span.start - start := by
  have hle := e.span.start_le_stop
  rw [List.extract_eq_take_drop, List.length_take, List.length_drop]
  omega

theorem originFrom_zero (start : Nat) (edits : List Edit) : originFrom start edits 0 = start := by
  cases edits with
  | nil => rfl
  | cons e rest => rw [originFrom, if_pos (Nat.zero_le _), Nat.add_zero]

section

variable {c : Char} (hedits : ∀ e ∈ edits, Narrows c e) (hb : edits.Pairwise Before)
  (hstart : ∀ e ∈ edits, start ≤ e.span.start) (hin : ∀ e ∈ edits, e.span.stop ≤ text.length)

include hedits hb hstart hin

/-- **A place of the edited text** has the character that stood there, or the new one of an edit.
By induction on the edits. -/
theorem replacedFrom_place (p : Nat) :
    (replacedFrom text start edits)[p]? = text[originFrom start edits p]? ∧
        originFrom start edits (p + 1) = originFrom start edits p + 1 ∨
      ∃ e ∈ edits, (replacedFrom text start edits)[p]? = some c ∧
        originFrom start edits p = e.span.start ∧ originFrom start edits (p + 1) = e.span.stop := by
  induction edits generalizing start p with
  | nil => exact .inl ⟨by rw [replacedFrom, List.getElem?_drop, originFrom], rfl⟩
  | cons e rest ih =>
    rw [List.forall_mem_cons] at hedits hstart hin
    rw [List.pairwise_cons] at hb
    have hlen := length_before start hin.1
    rw [replacedFrom, hedits.1.replacement, List.append_assoc]
    rcases Nat.lt_trichotomy p (e.span.start - start) with hlt | rfl | hgt
    · -- before the edit
      refine .inl ⟨?_, ?_⟩
      · rw [List.getElem?_append_left (by omega), List.extract_eq_take_drop, List.getElem?_take_of_lt hlt,
          List.getElem?_drop, originFrom, if_pos (Nat.le_of_lt hlt)]
      · rw [originFrom, originFrom, if_pos (Nat.succ_le_of_lt hlt), if_pos (Nat.le_of_lt hlt), Nat.add_assoc]
    · -- at the edit
      refine .inr ⟨e, List.mem_cons_self, ?_, ?_, ?_⟩
      · rw [List.getElem?_append_right (by omega), hlen, Nat.sub_self]
        rfl
      · rw [originFrom, if_pos (Nat.le_refl _), Nat.add_sub_cancel' hstart.1]
      · rw [originFrom, if_neg (Nat.not_succ_le_self _), Nat.sub_self, originFrom_zero]
    · -- behind the edit
      obtain ⟨k, rfl⟩ := Nat.exists_eq_add_of_lt hgt
      have horigin (j : Nat) : originFrom start (e :: rest) (e.span.start - start + 1 + j) =
          originFrom e.span.stop rest j := by
        rw [originFrom, if_neg (by omega), Nat.add_sub_cancel_left]
      have hchar : (text.extract start e.span.start ++ ([c] ++ replacedFrom text e.span.stop rest))[
          e.span.start - start + 1 + k]? = (replacedFrom text e.span.stop rest)[k]? := by
        rw [← List.append_assoc, List.getElem?_append_right (by rw [List.length_append, hlen]; exact Nat.le_add_right _ _),
          List.length_append, hlen, List.length_singleton, Nat.add_sub_cancel_left]
      rw [show e.span.start - start + k + 1 = e.span.start - start + 1 + k by omega, hchar, horigin,
        Nat.add_assoc, horigin]
      rcases ih hedits.2 hb.2 (fun x hx => (hb.1 x hx).1) hin.2 k with hkept | ⟨x, hx, hzero⟩
      · exact .inl hkept
      · exact .inr ⟨x, List.mem_cons_of_mem _ hx, hzero⟩

/-- Places stay in order. -/
theorem originFrom_lt (p : Nat) : originFrom start edits p < originFrom start edits (p + 1) := by
  rcases replacedFrom_place hedits hb hstart hin p with ⟨-, hsucc⟩ | ⟨e, he, -, hp, hsucc⟩
  · omega
  · have := (hedits e he).nonempty
    omega

theorem originFrom_length (hle : start ≤ text.length) :
    originFrom start edits (replacedFrom text start edits).length = text.length := by
  induction edits generalizing start with
  | nil => rw [replacedFrom, originFrom, List.length_drop, Nat.add_sub_cancel' hle]
  | cons e rest ih =>
    rw [List.forall_mem_cons] at hedits hstart hin
    rw [List.pairwise_cons] at hb
    have hlen := length_before start hin.1
    rw [replacedFrom, hedits.1.replacement, List.length_append, List.length_append, hlen, List.length_singleton,
      originFrom, if_neg (by omega), Nat.add_sub_cancel_left]
    exact ih hedits.2 hb.2 (fun x hx => (hb.1 x hx).1) hin.2 hin.1

end

/-! ### Edits that leave all characters in their places -/

/-- The edit puts as many characters in the place of a stretch as stood there. -/
def Fits (e : Edit) : Prop :=
  e.replacement.toList.length = e.span.stop - e.span.start

section

variable (hfits : ∀ e ∈ edits, Fits e) (hb : edits.Pairwise Before) (hstart : ∀ e ∈ edits, start ≤ e.span.start)
  (hin : ∀ e ∈ edits, e.span.stop ≤ text.length)

include hfits hb hstart hin

/-- **Edits that fit leave all characters in their places**: those of a stretch are replaced one by one, and all
others stay. By induction on the edits. -/
theorem replacedFrom_fits (hle : start ≤ text.length) :
    (replacedFrom text start edits).length = text.length - start ∧ ∀ i, start ≤ i →
      ((∀ e ∈ edits, i < e.span.start ∨ e.span.stop ≤ i) → (replacedFrom text start edits)[i - start]? = text[i]?) ∧
      ∀ e ∈ edits, e.span.start ≤ i → i < e.span.stop →
        (replacedFrom text start edits)[i - start]? = e.replacement.toList[i - e.span.start]? := by
  induction edits generalizing start with
  | nil =>
    refine ⟨by rw [replacedFrom, List.length_drop], fun i hi => ⟨fun _ => ?_, nofun⟩⟩
    rw [replacedFrom, List.getElem?_drop, Nat.add_sub_cancel' hi]
  | cons e rest ih =>
    rw [List.forall_mem_cons] at hfits hstart hin
    rw [List.pairwise_cons] at hb
    have horder := e.span.start_le_stop
    have hbefore := length_before start hin.1
    have hfit : e.replacement.toList.length = e.span.stop - e.span.start := hfits.1
    obtain ⟨hlength, hrest⟩ := ih hfits.2 hb.2 (fun x hx => (hb.1 x hx).1) hin.2 hin.1
    -- what stands behind the first edit
    have hbehind {i : Nat} (hi : e.span.stop ≤ i) :
        (replacedFrom text start (e :: rest))[i - start]? = (replacedFrom text e.span.stop rest)[i - e.span.stop]? := by
      rw [replacedFrom, List.getElem?_append_right (by rw [List.length_append]; omega), List.length_append, hbefore, hfit]
      congr 1
      omega
    -- the first edit
    have hhere {i : Nat} (hi : e.span.start ≤ i) (hi' : i < e.span.stop) :
        (replacedFrom text start (e :: rest))[i - start]? = e.replacement.toList[i - e.span.start]? := by
      rw [replacedFrom, List.append_assoc, List.getElem?_append_right (by omega), List.getElem?_append_left (by omega), hbefore]
      congr 1
      omega
    refine ⟨?_, fun i hi => ⟨fun hout => ?_, List.forall_mem_cons.2 ⟨hhere, fun x hx hxi hxi' => ?_⟩⟩⟩
    · rw [replacedFrom, List.length_append, List.length_append, hbefore, hfit, hlength]
      omega
    · rw [List.forall_mem_cons] at hout
      rcases hout.1 with hlt | hge
      · rw [replacedFrom, List.append_assoc, List.getElem?_append_left (by omega), List.extract_eq_take_drop,
          List.getElem?_take_of_lt (by omega), List.getElem?_drop, Nat.add_sub_cancel' hi]
      · rw [hbehind hge]
        exact (hrest i hge).1 hout.2
    · have hge : e.span.stop ≤ i := Nat.le_trans (hb.1 x hx).1 hxi
      rw [hbehind hge]
      exact (hrest i hge).2 x hx hxi hxi'

end

/-- **Edits that fit are performed in their places**, in whatever order they are given. -/
theorem applyAll_fits {cs : List Char} (hapart : edits.Pairwise Apart) (hfits : ∀ e ∈ edits, Fits e)
    (hin : ∀ e ∈ edits, e.span.stop ≤ text.length) (happly : applyAll text edits = .ok cs) :
    cs.length = text.length ∧ ∀ i : Nat, ((∀ e ∈ edits, i < e.span.start ∨ e.span.stop ≤ i) → cs[i]? = text[i]?) ∧
      ∀ e ∈ edits, e.span.start ≤ i → i < e.span.stop → cs[i]? = e.replacement.toList[i - e.span.start]? := by
  have hmem {e : Edit} : e ∈ sorted edits ↔ e ∈ edits := (sorted_perm edits).mem_iff
  obtain rfl : cs = replacedFrom text 0 (sorted edits) := Except.ok.inj (happly.symm.trans (applyAll_replaced hapart hin))
  obtain ⟨hlength, hplace⟩ := replacedFrom_fits (fun e he => hfits e (hmem.1 he)) (sorted_before hapart)
    (fun _ _ => Nat.zero_le _) (fun e he => hin e (hmem.1 he)) (Nat.zero_le text.length)
  refine ⟨hlength, fun i => ⟨fun hout => ?_, fun e he => (hplace i (Nat.zero_le i)).2 e (hmem.2 he)⟩⟩
  exact (hplace i (Nat.zero_le i)).1 fun e he => hout e (hmem.1 he)

end Edit

end HouseStyle
