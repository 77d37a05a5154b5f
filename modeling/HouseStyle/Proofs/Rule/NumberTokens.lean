import HouseStyle.Proofs.Rule.QuotedZeros
import HouseStyle.Proofs.Stylesheet.Numbers
import HouseStyle.Proofs.Text.Replacement

/-!
# Numbers beside a zero that loses its unit

A zero without its unit is glued to what stands behind the unit. The rule does not take a unit before
a letter, a digit, a percent sign or a hyphen, but it does before a period, with which a fraction can begin.

* `Runs`: how a text is read by the rule, and written again with `0` for the zero lengths that count.
* `Becomes`: what happens to the numbers of the text, `Runs.becomes`.
* `numbers_of_drop`: exactly when only the zero lengths change.
-/

namespace HouseStyle.ZeroLength

open Stylesheet (Dialect)
open Numbers

variable {d : Dialect} {units : List (List Char)} {ss : List (Nat × Nat)} {text cs out rest w : List Char}
  {before : Option Char} {pos : Nat} {s : Surroundings}

/-! ### A zero length is a number -/

/-- Whether all units are words of letters from `a` to `z`. -/
def areLetters (units : List (List Char)) : Bool :=
  units.all fun u => !u.isEmpty && u.all smallLetters.contains

theorem blocksStart_of_isInner {c : Char} (h : isInner c = true) : blocksStart c = true := by
  have hword (h : isWordChar c = true) : blocksStart c = true := by
    rw [blocksStart, h]
    rfl
  simp only [isInner, Bool.or_eq_true, beq_iff_eq] at h
  rcases h with (hdigit | rfl) | hletter
  · exact hword (isWordChar_of_isDigit hdigit)
  · rfl
  · exact hword (isWordChar_of_isLetter hletter)

/-- Where a unit can end, neither a digit nor a unit begins. -/
theorem unmarked_of_blocksEnd (h : ∀ c ∈ rest.head?, blocksEnd c = false) : Unmarked rest := by
  intro c hc
  have hend := h c hc
  simp only [blocksEnd, Bool.or_eq_false_iff, beq_eq_false_iff_ne] at hend
  obtain ⟨⟨hword, hpercent⟩, -⟩ := hend
  refine ⟨Bool.eq_false_iff.2 fun hdigit => ?_, Bool.eq_false_iff.2 fun hletter => ?_, hpercent⟩
  · rw [isWordChar_of_isDigit hdigit] at hword
    cases hword
  · rw [isWordChar_of_isLetter hletter] at hword
    cases hword

/-- **A word that is a zero length**: whatever follows that begins with neither a digit nor a unit, the
word is one number. -/
structure IsLength (w : List Char) : Prop where
  ne_nil : w ≠ []
  inner : ∀ c ∈ w, isInner c = true
  number : ∀ rest, Unmarked rest → numberOf (w ++ rest) = w

theorem isLength_append {zero unit : List Char} (hzero : IsZero zero) (hne : unit ≠ [])
    (hunit : ∀ c ∈ unit, isLetter c = true) : IsLength (zero ++ unit) := by
  obtain ⟨zs, fraction, hzs, hzeros, hfraction, rfl⟩ := hzero
  have hdigit {c : Char} (h : c = '0') : c.isDigit = true := by
    rw [h]
    rfl
  refine ⟨List.append_ne_nil_of_right_ne_nil _ hne, ?_, fun rest hrest => ?_⟩
  · refine List.forall_mem_append.2 ⟨List.forall_mem_append.2 ⟨fun c hc => ?_, fun c hc => ?_⟩, fun c hc => ?_⟩
    · exact isInner_of_digit (hdigit (hzeros c hc))
    · rcases hfraction.zeros c hc with rfl | rfl <;> rfl
    · exact isInner_of_letter (hunit c hc)
  · have hdigits : fraction = [] ∨ ∃ ds, ds ≠ [] ∧ (∀ c ∈ ds, c.isDigit = true) ∧ fraction = '.' :: ds :=
      hfraction.imp_right fun ⟨ds, hds, hall, heq⟩ => ⟨ds, hds, fun c hc => hdigit (hall c hc), heq⟩
    have hnumber : numberOf (zs ++ (fraction ++ (unit ++ rest))) = zs ++ (fraction ++ unit) :=
      numberOf_word hzs (fun c hc => hdigit (hzeros c hc)) hdigits hne hunit fun c hc => (hrest c hc).2.1
    simpa only [List.append_assoc] using hnumber

/-- What the rule takes for a zero length is one, and neither a digit nor a unit follows. -/
theorem isLength_of_length? (hu : areLetters units = true) {n : Nat} (h : length? units cs = some n) :
    ∃ w rest, cs = w ++ rest ∧ n = w.length ∧ IsLength w ∧ Unmarked rest := by
  obtain ⟨zero, tail, k, rfl, hzero, hunit, rfl⟩ := length?_spec h
  obtain ⟨u, hmem, rfl, rest, hword, hend⟩ := unitLength?_spec hunit
  have hletters := List.all_eq_true.1 hu u hmem
  rw [Bool.and_eq_true, Bool.not_eq_true', List.isEmpty_eq_false_iff] at hletters
  obtain ⟨hlen, rfl, hchars⟩ := @of_afterWord? (isLetter · = true) u (fun p hp c hmatch =>
    isLetter_of_matches (List.contains_iff_mem.1 (List.all_eq_true.1 hletters.2 p hp)) hmatch) _ _ hword
  have htake : (tail.take u.length).length = u.length := List.length_take_of_le hlen
  refine ⟨zero ++ tail.take u.length, tail.drop u.length, ?_, ?_, isLength_append hzero ?_ hchars,
    unmarked_of_blocksEnd hend⟩
  · rw [List.append_assoc, List.take_append_drop]
  · rw [List.length_append, htake]
  · exact List.ne_nil_of_length_pos (by rw [htake]; exact List.length_pos_of_ne_nil hletters.1)

theorem IsLength.isNumberChar (h : IsLength w) : ∀ c ∈ w, isNumberChar c = true := by
  intro c hc
  rw [Numbers.isNumberChar, h.inner c hc]
  rfl

/-- No zero length begins right behind one. -/
theorem IsLength.blocks (h : IsLength w) : w.getLast?.any blocksStart = true := by
  rw [List.getLast?_eq_some_getLast h.ne_nil, Option.any_some]
  exact blocksStart_of_isInner (h.inner _ (List.getLast_mem _))

/-! ### Reading and writing -/

/-- **A text as the rule reads it from `pos` on, and as it is written again.** The lengths among `ss` lose
their units. -/
inductive Runs (ss : List (Nat × Nat)) : Option Char → Nat → List Char → List Char → Prop
  | nil {before : Option Char} {pos : Nat} : Runs ss before pos [] []
  | plain {before : Option Char} {pos : Nat} {c : Char} {cs out : List Char} (hss : ∀ b, (pos, b) ∉ ss)
      (h : Runs ss (some c) (pos + 1) cs out) : Runs ss before pos (c :: cs) (c :: out)
  | kept {before : Option Char} {pos : Nat} {w cs out : List Char} (hbefore : before.any blocksStart = false)
      (hw : IsLength w) (hcs : Unmarked cs) (hss : ∀ b, (pos, b) ∉ ss)
      (h : Runs ss w.getLast? (pos + w.length) cs out) : Runs ss before pos (w ++ cs) (w ++ out)
  | dropped {before : Option Char} {pos : Nat} {w cs out : List Char} (hbefore : before.any blocksStart = false)
      (hw : IsLength w) (hcs : Unmarked cs) (hss : (pos, pos + w.length) ∈ ss)
      (h : Runs ss w.getLast? (pos + w.length) cs out) : Runs ss before pos (w ++ cs) ('0' :: out)

/-- The text behind a character behind which no zero length begins agrees with the original as far as a
number reaches. -/
theorem Runs.alike (h : Runs ss before pos cs out) (hbefore : before.any blocksStart = true) : Alike cs out := by
  induction h with
  | nil => exact .nil
  | @plain before pos c cs out hss h ih =>
    by_cases hc : isInner c = true
    · exact .cons (ih (blocksStart_of_isInner hc))
    · exact .stop cs out (Bool.eq_false_iff.2 hc)
  | kept hno | dropped hno =>
    rw [hbefore] at hno
    cases hno

/-- The characters of a number behind its first one are read one by one. -/
theorem Runs.through {w : List Char} : ∀ {c : Char} {pos : Nat} {out : List Char},
    (∀ x ∈ (c :: w).dropLast, isInner x = true) → Runs ss (some c) pos (w ++ rest) out →
      ∃ last out', out = w ++ out' ∧ Runs ss last (pos + w.length) rest out' := by
  induction w with
  | nil => exact fun _ h => ⟨_, _, rfl, h⟩
  | cons c' w ih =>
    intro c pos out hinner h
    rw [List.dropLast_cons_cons, List.forall_mem_cons] at hinner
    have hbefore : (some c).any blocksStart = true := blocksStart_of_isInner hinner.1
    generalize hcs : c' :: w ++ rest = cs at h
    cases h with
    | nil => cases hcs
    | kept hno | dropped hno =>
      rw [hbefore] at hno
      cases hno
    | plain hss h =>
      cases hcs
      obtain ⟨last, out', rfl, hrest⟩ := ih hinner.2 h
      refine ⟨last, out', rfl, ?_⟩
      rwa [List.length_cons, Nat.add_comm _ 1, ← Nat.add_assoc]

/-- A character that is read by itself is written as it is, and so is the number that begins with it. -/
theorem Runs.alike_plain {c : Char} (h : Runs ss (some c) (pos + 1) cs out) : Alike (c :: cs) (c :: out) := by
  by_cases hc : isInner c = true
  · exact .cons (h.alike (blocksStart_of_isInner hc))
  · exact .stop cs out (Bool.eq_false_iff.2 hc)

theorem Runs.number {c : Char} (h : Runs ss (some c) (pos + 1) cs out) (hne : numberOf (c :: cs) ≠ []) :
    ∃ w rest last out', w ≠ [] ∧ c :: cs = w ++ rest ∧ c :: out = w ++ out' ∧ numberOf (w ++ rest) = w ∧
      numberOf (w ++ out') = w ∧ Runs ss last (pos + w.length) rest out' := by
  have hnumber := numberOf_alike h.alike_plain
  have hinner := @inner_of_dropLast (c :: cs)
  obtain ⟨rest, hrest⟩ := numberOf_isPrefix (c :: cs)
  generalize hw : numberOf (c :: cs) = w at hne hnumber hinner hrest
  obtain ⟨c', w, rfl⟩ := List.exists_cons_of_ne_nil hne
  rw [List.cons_append] at hrest
  obtain ⟨rfl, rfl⟩ := List.cons.inj hrest
  obtain ⟨last, out', rfl, hlater⟩ := h.through hinner
  refine ⟨c' :: w, rest, last, out', hne, rfl, rfl, hw, hnumber.symm, ?_⟩
  rwa [List.length_cons, Nat.add_comm _ 1, ← Nat.add_assoc]

/-! ### What happens to the numbers -/

/-- Whether a number is one of the zero lengths that lose their units. -/
def isDropped (ss : List (Nat × Nat)) (t : Nat × List Char) : Bool :=
  ss.contains (t.1, t.1 + t.2.length)

/-- Whether a fraction begins right behind a number. -/
def meetsFraction (text : List Char) (t : Nat × List Char) : Bool :=
  fractionOf (text.drop (t.1 + t.2.length)) != []

/-- The numbers of a text, with `0` for those that lose their units. -/
def withoutUnits (ss : List (Nat × Nat)) (ts : List (Nat × List Char)) : List (List Char) :=
  ts.map fun t => if isDropped ss t then ['0'] else t.2

/-- **What becomes of the numbers of a text**: a zero length that loses its unit is `0`, and takes the
fraction that begins right behind it with it. -/
inductive Becomes (text : List Char) (ss : List (Nat × Nat)) : List (Nat × List Char) → List (List Char) → Prop
  | nil : Becomes text ss [] []
  | kept {t : Nat × List Char} {ts : List (Nat × List Char)} {ws : List (List Char)}
      (hkept : isDropped ss t = false) (h : Becomes text ss ts ws) : Becomes text ss (t :: ts) (t.2 :: ws)
  | dropped {t : Nat × List Char} {ts : List (Nat × List Char)} {ws : List (List Char)}
      (hdropped : isDropped ss t = true) (hfree : meetsFraction text t = false) (h : Becomes text ss ts ws) :
      Becomes text ss (t :: ts) (['0'] :: ws)
  | glued {t : Nat × List Char} {ts : List (Nat × List Char)} {w : List Char} {ws : List (List Char)}
      (hdropped : isDropped ss t = true) (hmeets : meetsFraction text t = true) (h : Becomes text ss ts (w :: ws)) :
      Becomes text ss (t :: ts) (('0' :: w) :: ws)

/-- A number is lost for each zero that takes a fraction with it. -/
theorem Becomes.length {ts : List (Nat × List Char)} {ws : List (List Char)} (h : Becomes text ss ts ws) :
    ts.length = ws.length + ts.countP fun t => isDropped ss t && meetsFraction text t := by
  induction h with
  | nil => rfl
  | kept hkept h ih =>
    rw [List.countP_cons_of_neg (by rw [hkept]; exact Bool.false_ne_true), List.length_cons, List.length_cons]
    omega
  | dropped hdropped hfree h ih =>
    rw [List.countP_cons_of_neg (by rw [hfree, Bool.and_false]; exact Bool.false_ne_true), List.length_cons,
      List.length_cons]
    omega
  | glued hdropped hmeets h ih =>
    rw [List.countP_cons_of_pos (by rw [hdropped, hmeets]; rfl), List.length_cons, List.length_cons]
    rw [List.length_cons] at ih
    omega

/-- **Only the zero lengths change exactly if none of them meets a fraction.** -/
theorem Becomes.eq_iff {ts : List (Nat × List Char)} {ws : List (List Char)} (h : Becomes text ss ts ws) :
    ws = withoutUnits ss ts ↔ ∀ t ∈ ts, isDropped ss t = true → meetsFraction text t = false := by
  constructor
  · rintro heq t ht hdropped
    have hlength := h.length
    rw [heq, withoutUnits, List.length_map] at hlength
    have hnone : ts.countP (fun t => isDropped ss t && meetsFraction text t) = 0 := by omega
    have := List.countP_eq_zero.1 hnone t ht
    rw [hdropped, Bool.true_and] at this
    exact Bool.eq_false_iff.2 this
  · intro hfree
    induction h with
    | nil => rfl
    | kept hkept h ih =>
      rw [withoutUnits, List.map_cons, hkept, ih fun t ht => hfree t (List.mem_cons_of_mem _ ht)]
      rfl
    | dropped hdropped _ h ih =>
      rw [withoutUnits, List.map_cons, hdropped, ih fun t ht => hfree t (List.mem_cons_of_mem _ ht)]
      rfl
    | glued hdropped hmeets h ih =>
      rw [hfree _ List.mem_cons_self hdropped] at hmeets
      cases hmeets

/-- The numbers of a text, without their offsets. -/
def numberTexts (d : Dialect) (p : Spot) (pos : Nat) (cs : List Char) : List (List Char) :=
  (numbersFrom d p pos 0 cs).map Prod.snd

section

variable {p : Spot} {pos' : Nat}

theorem numberTexts_number (hlive : p.isLive = true) (hne : w ≠ []) (hw : numberOf (w ++ rest) = w) :
    numberTexts d p pos (w ++ rest) = w :: numberTexts d p.settle (pos + w.length) rest := by
  rw [numberTexts, numbersFrom_number hlive hne hw]
  rfl

theorem numberTexts_dead (hlive : p.isLive = false) (hne : w ≠ []) (hw : ∀ c ∈ w, isNumberChar c = true) :
    numberTexts d p pos (w ++ rest) = numberTexts d p.settle (pos + w.length) rest := by
  rw [numberTexts, numbersFrom_dead hlive hne hw]
  rfl

theorem isDropped_of_not_mem (hss : ∀ b, (pos, b) ∉ ss) : isDropped ss (pos, w) = false := by
  rw [isDropped, Bool.eq_false_iff]
  exact fun h => hss _ (List.contains_iff_mem.1 h)

theorem drop_of_append (htext : text.drop pos = w ++ cs) : text.drop (pos + w.length) = cs := by
  rw [← List.drop_drop, htext, List.drop_left]

/-- A zero takes the number behind it with it, or stands alone if none begins there. -/
theorem becomes_dropped {ts : List (Nat × List Char)} (hlive : p.isLive = true)
    (hss : (pos, pos + w.length) ∈ ss) (htext : text.drop (pos + w.length) = cs) (halike : Alike cs out)
    (hcs : Unmarked cs) (h : Becomes text ss ts (numberTexts d p.settle (pos' + 1) out)) :
    Becomes text ss ((pos, w) :: ts) (numberTexts d p pos' ('0' :: out)) := by
  have hdropped : isDropped ss (pos, w) = true := List.contains_iff_mem.2 hss
  have hout : Unmarked out := by
    rw [Unmarked, ← halike.head?]
    exact hcs
  have hzero := numberOf_zero hout
  have hmeets : meetsFraction text (pos, w) = (fractionOf out != []) := by
    rw [meetsFraction, htext, fractionOf_alike halike]
  by_cases hfraction : fractionOf out = []
  · rw [hout.numberOf_eq_nil.2 hfraction] at hzero
    have htexts : numberTexts d p pos' (['0'] ++ out) = ['0'] :: numberTexts d p.settle (pos' + 1) out :=
      numberTexts_number hlive (List.cons_ne_nil _ _) hzero
    rw [List.singleton_append] at htexts
    rw [htexts]
    exact .dropped hdropped (by rw [hmeets, hfraction]; rfl) h
  · have hne : numberOf out ≠ [] := fun hnil => hfraction (hout.numberOf_eq_nil.1 hnil)
    obtain ⟨later, hlater⟩ := numberOf_isPrefix out
    generalize hfirst : numberOf out = fraction at hzero hne hlater
    have htexts : numberTexts d p pos' ('0' :: fraction ++ later) =
        ('0' :: fraction) :: numberTexts d p.settle (pos' + 1 + fraction.length) later := by
      rw [numberTexts_number hlive (List.cons_ne_nil _ _) (by rw [List.cons_append, hlater]; exact hzero),
        List.length_cons, Nat.add_assoc, Nat.add_comm 1]
    have hsettled : p.settle.isLive = true := by
      rw [Spot.isLive_settle]
      exact hlive
    rw [← hlater] at hfirst
    rw [← hlater, numberTexts_number hsettled hne hfirst, Spot.settle_settle] at h
    rw [← hlater, ← List.cons_append, htexts]
    exact .glued hdropped (by rw [hmeets]; exact bne_iff_ne.2 hfraction) h

/-- **What becomes of the numbers of a text.** By induction on its length: one character that begins no
zero length, one number, or one zero length at a time. -/
theorem Runs.becomes (h : Runs ss before pos cs out) (htext : text.drop pos = cs) :
    Becomes text ss (numbersFrom d p pos 0 cs) (numberTexts d p pos' out) := by
  induction hn : cs.length using Nat.strong_induction_on generalizing before pos cs out p pos' with
  | _ n ih =>
    subst hn
    cases h with
    | nil => exact .nil
    | @plain _ _ c cs out hss h =>
      by_cases hlive : p.isLive = true ∧ numberOf (c :: cs) ≠ []
      · obtain ⟨w, rest, last, out', hne, hcs, hout, hw, hw', hlater⟩ := h.number hlive.2
        have hpos := List.length_pos_of_ne_nil hne
        rw [hcs] at htext ih ⊢
        rw [hout, numbersFrom_number hlive.1 hne hw, numberTexts_number hlive.1 hne hw']
        refine .kept (isDropped_of_not_mem hss) (ih _ ?_ hlater (drop_of_append htext) rfl)
        rw [List.length_append]
        omega
      · have hnone (h : p.isLive = true) : numberOf (c :: cs) = [] := by
          by_contra hne
          exact hlive ⟨h, hne⟩
        rw [numbersFrom_plain hnone, numberTexts, numbersFrom_plain (by rwa [← numberOf_alike h.alike_plain])]
        exact ih _ (Nat.lt_succ_self _) h (drop_of_append (w := [c]) htext) rfl
    | @kept _ _ w cs out hbefore hw hcs hss h =>
      have hpos := List.length_pos_of_ne_nil hw.ne_nil
      have hih {p : Spot} {pos' : Nat} : Becomes text ss (numbersFrom d p (pos + w.length) 0 cs)
          (numberTexts d p pos' out) :=
        ih _ (by rw [List.length_append]; omega) h (drop_of_append htext) rfl
      have hout : Unmarked out := by
        rw [Unmarked, ← (h.alike hw.blocks).head?]
        exact hcs
      cases hlive : p.isLive with
      | true =>
        rw [numbersFrom_number hlive hw.ne_nil (hw.number _ hcs),
          numberTexts_number hlive hw.ne_nil (hw.number _ hout)]
        exact .kept (isDropped_of_not_mem hss) hih
      | false =>
        rw [numbersFrom_dead hlive hw.ne_nil hw.isNumberChar, numberTexts_dead hlive hw.ne_nil hw.isNumberChar]
        exact hih
    | @dropped _ _ w cs out hbefore hw hcs hss h =>
      have hpos := List.length_pos_of_ne_nil hw.ne_nil
      have hih {p : Spot} {pos' : Nat} : Becomes text ss (numbersFrom d p (pos + w.length) 0 cs)
          (numberTexts d p pos' out) :=
        ih _ (by rw [List.length_append]; omega) h (drop_of_append htext) rfl
      cases hlive : p.isLive with
      | true =>
        rw [numbersFrom_number hlive hw.ne_nil (hw.number _ hcs)]
        exact becomes_dropped hlive hss (drop_of_append htext) (h.alike hw.blocks) hcs hih
      | false =>
        have hzero : numberTexts d p pos' (['0'] ++ out) = numberTexts d p.settle (pos' + 1) out :=
          numberTexts_dead hlive (List.cons_ne_nil _ _) (List.forall_mem_singleton.2 rfl)
        rw [numbersFrom_dead hlive hw.ne_nil hw.isNumberChar, ← List.singleton_append, hzero]
        exact hih

end

/-! ### The edits of the rule -/

/-- The edit that takes a zero length out of a value, by its offsets into it. -/
def dropUnit (m : Nat × Nat) : Edit :=
  { span := .between m.1 m.2, replacement := "0", rule := zeroUnit.info.id }

theorem spansFrom_skip {w : List Char} : ∀ {s : Surroundings} {before : Option Char} {pos : Nat},
    spansFrom units s before pos w.length (w ++ rest) =
      spansFrom units (w.foldl Surroundings.step s) (w.getLast?.or before) (pos + w.length) 0 rest := by
  induction w with
  | nil => exact fun {_ _ _} => rfl
  | cons c w ih =>
    intro s before pos
    rw [List.length_cons, List.cons_append, spansFrom, ih, List.foldl_cons, List.getLast?_cons, Nat.add_assoc,
      Nat.add_comm 1]
    congr 1
    cases w.getLast? <;> rfl

/-- **How the rule reads a text**: it passes over one character, or over one zero length, which counts
or not. -/
theorem spansFrom_cases (hu : areLetters units = true) (s : Surroundings) (before : Option Char) (pos : Nat)
    (c : Char) (cs : List Char) :
    spansFrom units s before pos 0 (c :: cs) = spansFrom units (s.step c) (some c) (pos + 1) 0 cs ∨
      ∃ w rest, before.any blocksStart = false ∧ c :: cs = w ++ rest ∧ IsLength w ∧ Unmarked rest ∧
        spansFrom units s before pos 0 (c :: cs) = (if s.isPlain then [(pos, pos + w.length)] else []) ++
          spansFrom units (w.foldl Surroundings.step s) w.getLast? (pos + w.length) 0 rest := by
  rw [spansFrom]
  by_cases hbefore : before.any blocksStart = true
  · rw [if_pos hbefore]
    exact .inl rfl
  rw [if_neg hbefore]
  cases hlen : length? units (c :: cs) with
  | none => exact .inl rfl
  | some n =>
    obtain ⟨w, rest, hcs, rfl, hw, hrest⟩ := isLength_of_length? hu hlen
    refine .inr ⟨w, rest, Bool.eq_false_iff.2 hbefore, hcs, hw, hrest, ?_⟩
    obtain ⟨c', w, rfl⟩ := List.exists_cons_of_ne_nil hw.ne_nil
    rw [List.cons_append] at hcs
    obtain ⟨rfl, rfl⟩ := List.cons.inj hcs
    have hskip := @spansFrom_skip units rest w (s.step c) (some c) (pos + 1)
    dsimp only
    rw [List.length_cons, Nat.add_sub_cancel, hskip, List.foldl_cons, List.getLast?_cons, Nat.add_assoc,
      Nat.add_comm 1]
    have hlast : w.getLast?.or (some c) = some (w.getLast?.getD c) := by
      cases w.getLast? <;> rfl
    rw [hlast]
    split <;> rfl

/-- **What the edits of the rule do to a text from `pos` on.** -/
structure Drops (text : List Char) (ss : List (Nat × Nat)) (before : Option Char) (pos : Nat) (cs : List Char)
    (edits : List Edit) : Prop where
  ordered : edits.Pairwise Edit.Before
  inside : ∀ e ∈ edits, pos ≤ e.span.start ∧ e.span.stop ≤ text.length
  runs : Runs ss before pos cs (Edit.replacedFrom text pos edits)

theorem Drops.kept {before' : Option Char} {edits : List Edit} (htext : text.drop pos = w ++ rest)
    (hruns : ∀ {out}, Runs ss before (pos + w.length) rest out → Runs ss before' pos (w ++ rest) (w ++ out))
    (h : Drops text ss before (pos + w.length) rest edits) : Drops text ss before' pos (w ++ rest) edits := by
  have hstart : ∀ e ∈ edits, pos + w.length ≤ e.span.start := fun e he => (h.inside e he).1
  refine ⟨h.ordered, fun e he => ⟨Nat.le_trans (Nat.le_add_right _ _) (hstart e he), (h.inside e he).2⟩, ?_⟩
  rw [Edit.replacedFrom_append htext hstart]
  exact hruns h.runs

theorem Drops.dropped {edits : List Edit} (htext : text.drop pos = w ++ rest)
    (hbefore : before.any blocksStart = false) (hw : IsLength w) (hrest : Unmarked rest)
    (hss : (pos, pos + w.length) ∈ ss) (h : Drops text ss w.getLast? (pos + w.length) rest edits) :
    Drops text ss before pos (w ++ rest) (dropUnit (pos, pos + w.length) :: edits) := by
  have hstart : ∀ e ∈ edits, pos + w.length ≤ e.span.start := fun e he => (h.inside e he).1
  have hpos := List.length_pos_of_ne_nil hw.ne_nil
  have hspan : (dropUnit (pos, pos + w.length)).span.start = pos ∧
      (dropUnit (pos, pos + w.length)).span.stop = pos + w.length := by
    rw [dropUnit, Span.between_start, Span.between_stop]
    exact ⟨rfl, Nat.max_eq_right (Nat.le_add_right _ _)⟩
  have hlen : pos + w.length ≤ text.length := by
    have := congrArg List.length htext
    rw [List.length_drop, List.length_append] at this
    omega
  refine ⟨List.pairwise_cons.2 ⟨fun e he => ?_, h.ordered⟩, List.forall_mem_cons.2 ⟨?_, fun e he => ?_⟩, ?_⟩
  · rw [Edit.Before, hspan.1, hspan.2]
    have := hstart e he
    omega
  · rw [hspan.1, hspan.2]
    exact ⟨Nat.le_refl _, hlen⟩
  · exact ⟨Nat.le_trans (Nat.le_add_right _ _) (hstart e he), (h.inside e he).2⟩
  · have hzero : (dropUnit (pos, pos + w.length)).replacement.toList = ['0'] := by simp [dropUnit]
    rw [Edit.replacedFrom, hspan.1, hspan.2, List.extract_eq_take_drop, Nat.sub_self, List.take_zero, hzero]
    exact .dropped hbefore hw hrest hss h.runs

theorem le_of_mem_spansFrom {skip a b : Nat} (h : (a, b) ∈ spansFrom units s before pos skip cs) : pos ≤ a := by
  obtain ⟨i, n, rfl, -, -⟩ := spansFrom_spec h
  exact Nat.le_add_right _ _

/-- By induction on the length of the text: one character or one zero length at a time. -/
theorem drops_spansFrom (hu : areLetters units = true) (htext : text.drop pos = cs)
    (hss : ∀ a b, pos ≤ a → ((a, b) ∈ ss ↔ (a, b) ∈ spansFrom units s before pos 0 cs)) :
    Drops text ss before pos cs ((spansFrom units s before pos 0 cs).map dropUnit) := by
  induction hn : cs.length using Nat.strong_induction_on generalizing s before pos cs with
  | _ n ih =>
    subst hn
    cases cs with
    | nil =>
      refine ⟨.nil, List.forall_mem_nil _, ?_⟩
      rw [spansFrom, List.map_nil, Edit.replacedFrom, htext]
      exact .nil
    | cons c cs =>
      rcases spansFrom_cases hu s before pos c cs with hplain | ⟨w, rest, hbefore, hcs, hw, hrest, hfound⟩
      · rw [hplain] at hss ⊢
        refine Drops.kept (w := [c]) htext (fun hruns => .plain (fun b hb => ?_) hruns) ?_
        · have := le_of_mem_spansFrom ((hss pos b (Nat.le_refl _)).1 hb)
          omega
        · exact ih _ (Nat.lt_succ_self _) (drop_of_append (w := [c]) htext)
            (fun a b ha => hss a b (Nat.le_trans (Nat.le_succ _) ha)) rfl
      · have hpos := List.length_pos_of_ne_nil hw.ne_nil
        rw [hfound] at hss ⊢
        rw [hcs] at htext ih ⊢
        have hafter : ∀ a b, pos + w.length ≤ a → ((a, b) ∈ ss ↔ (a, b) ∈
            spansFrom units (w.foldl Surroundings.step s) w.getLast? (pos + w.length) 0 rest) := by
          intro a b ha
          rw [hss a b (by omega), List.mem_append, or_iff_right]
          intro hhead
          split at hhead
          · cases List.mem_singleton.1 hhead
            omega
          · cases hhead
        have hlater := ih _ (by rw [List.length_append]; omega) (drop_of_append htext) hafter rfl
        split at hss
        · rename_i hcounts
          rw [if_pos hcounts]
          exact hlater.dropped htext hbefore hw hrest ((hss _ _ (Nat.le_refl _)).2 List.mem_cons_self)
        · rename_i hcounts
          rw [if_neg hcounts]
          refine Drops.kept htext (fun hruns => .kept hbefore hw hrest (fun b hb => ?_) hruns) hlater
          have := le_of_mem_spansFrom ((hss pos b (Nat.le_refl _)).1 hb)
          omega

theorem areLetters_default : areLetters (unitsOf (schema .zeroUnit).default) = true := by
  rw [unitsOf_default]
  decide +kernel

/-- **When a zero that loses its unit leaves the other numbers alone.** With the default units the edits
for all zero lengths of a text can be performed at once. Each zero length among its numbers then is `0`,
and takes the fraction that begins right behind it with it. So the numbers are what they were, but for
the zero lengths, exactly if none of these has a fraction right behind it. -/
theorem numbers_of_drop (d : Dialect) (text : List Char) :
    ∃ replaced, Edit.applyAll text ((spans (schema .zeroUnit).default text).map dropUnit) = .ok replaced ∧
      Becomes text (spans (schema .zeroUnit).default text) (numbersFrom d .start 0 0 text)
        (numberTexts d .start 0 replaced) ∧
      (numberTexts d .start 0 replaced =
          withoutUnits (spans (schema .zeroUnit).default text) (numbersFrom d .start 0 0 text) ↔
        ∀ t ∈ numbersFrom d .start 0 0 text, isDropped (spans (schema .zeroUnit).default text) t = true →
          meetsFraction text t = false) := by
  have hdrops : Drops text (spans (schema .zeroUnit).default text) none 0 text
      ((spans (schema .zeroUnit).default text).map dropUnit) :=
    drops_spansFrom areLetters_default rfl fun _ _ _ => Iff.rfl
  have hbecomes : Becomes text (spans (schema .zeroUnit).default text) (numbersFrom d .start 0 0 text)
      (numberTexts d .start 0 _) := hdrops.runs.becomes rfl
  exact ⟨_, Edit.applyAll_of_before hdrops.ordered fun e he => (hdrops.inside e he).2, hbecomes, hbecomes.eq_iff⟩

/-- **A zero without its unit makes one number of two** if a fraction follows, as in the value of a margin
of `0px.5em`. -/
theorem drop_glues_number : ∃ tree n v,
    Stylesheet.parse .css (Source.ofString "a\x7bmargin:0px.5em\x7d").chars = .ok tree ∧ n ∈ Node.walk tree ∧
      isDeclaration n = true ∧ valueOf? n = some (v, "0px.5em".toList) ∧
      spans (schema .zeroUnit).default "0px.5em".toList = [(0, 3)] ∧
      Edit.applyAll "0px.5em".toList ([(0, 3)].map dropUnit) = .ok "0.5em".toList ∧
      withoutUnits [(0, 3)] (numbersFrom .css .start 0 0 "0px.5em".toList) = ["0".toList, ".5em".toList] ∧
      numberTexts .css .start 0 "0.5em".toList = ["0.5em".toList] := by
  have hb : ((Stylesheet.parse .css (Source.ofString "a\x7bmargin:0px.5em\x7d").chars).toOption.bind fun tree =>
      (Node.walk tree).find? fun n => isDeclaration n && (valueOf? n).any fun (v, text) =>
        text == "0px.5em".toList).isSome = true := by
    decide +kernel
  obtain ⟨n, hb⟩ := Option.isSome_iff_exists.1 hb
  simp only [Option.bind_eq_some_iff, toOption_eq_some] at hb
  obtain ⟨tree, htree, hn⟩ := hb
  have hprops := List.find?_some hn
  rw [Bool.and_eq_true] at hprops
  obtain ⟨hd, hvalue⟩ := hprops
  obtain ⟨⟨v, text⟩, hv, htext⟩ := (Option.any_eq_true ..).1 hvalue
  obtain rfl := beq_iff_eq.1 htext
  have hspans : spans (schema .zeroUnit).default "0px.5em".toList = [(0, 3)] := by
    show spansFrom (unitsOf (schema .zeroUnit).default) ⟨0, 0, 0, 0⟩ none 0 0 _ = _
    rw [unitsOf_default]
    decide +kernel
  have happly : Edit.applyAll "0px.5em".toList ([(0, 3)].map dropUnit) = .ok "0.5em".toList := by
    rw [List.map_singleton, Edit.applyAll_singleton (by decide +kernel)]
    exact congrArg _ (by decide +kernel)
  exact ⟨tree, n, v, htree, List.mem_of_find?_eq_some hn, hd, hv, hspans, happly, by decide +kernel, by decide +kernel⟩

end HouseStyle.ZeroLength
