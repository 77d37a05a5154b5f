import HouseStyle.Proofs.Rule.Lightening
import HouseStyle.Proofs.Stylesheet.Shortening
import HouseStyle.Proofs.Stylesheet.Values
import HouseStyle.Rule.BorderNone
import HouseStyle.Rule.ZeroUnit

/-!
# Zeros in the place of values

A zero takes the place of a word or of a number with a unit, which hold more characters that count. These hold
no character that the scanning of a stylesheet looks for, and they stand inside of a value.

* `exists_value`: the value of a declaration is a stretch of the text.
* `mem_spansFrom`: which zero lengths count.
* `BorderNone.lightens_of_fix`, `ZeroLength.lightens_of_fix`: the edits make the text lighter.
* `ValueEdit`: what the rules about values replace, `valueEdit_of_fix` for each of them.
* `Zeroes`: an edit of inert characters.
* `BorderNone.zeroes_of_fix`, `ZeroLength.zeroes_of_fix`: the edits of the rules about values are such.
-/

namespace HouseStyle

open Stylesheet

variable {t : Source}

/-! ### Words -/

/-- The characters that do not count. -/
def weightless : List Char :=
  [' ', '\t', '\r', '\n', '\x0c', ';']

theorem mem_weightless {c : Char} (h : isSolid c = false) : c ∈ weightless := by
  simp only [isSolid, isStyleBlank, Bool.and_eq_false_iff, Bool.not_eq_false', Bool.or_eq_true, beq_iff_eq,
    bne_eq_false_iff_eq] at h
  rcases h with ((((rfl | rfl) | rfl) | rfl) | rfl) | rfl <;> decide

/-- Whether only characters that count match the letters of a word. -/
def isSolidWord (w : List Char) : Bool :=
  w.all fun p => weightless.all fun c => !matchesIgnoringCase p c

/-- Whether the letters of a word are matched by none of some characters. -/
def avoids (signs w : List Char) : Bool :=
  w.all fun p => signs.all fun c => !matchesIgnoringCase p c

/-- What matches a word, letter by letter. -/
theorem of_afterWord? {P : Char → Prop} {w : List Char}
    (hw : ∀ p ∈ w, ∀ c, matchesIgnoringCase p c = true → P c) :
    ∀ {cs rest : List Char}, afterWord? w cs = some rest →
      w.length ≤ cs.length ∧ rest = cs.drop w.length ∧ ∀ c ∈ cs.take w.length, P c := by
  induction w with
  | nil =>
    intro cs rest h
    cases h
    exact ⟨Nat.zero_le _, rfl, List.forall_mem_nil _⟩
  | cons p ps ih =>
    intro cs rest h
    cases cs with
    | nil => cases h
    | cons c cs =>
      rw [afterWord?] at h
      split at h
      · rename_i hmatch
        obtain ⟨hlen, hrest, htake⟩ := ih (fun p hp => hw p (List.mem_cons_of_mem _ hp)) h
        rw [List.length_cons, List.length_cons, List.take_succ_cons, List.forall_mem_cons]
        exact ⟨Nat.succ_le_succ hlen, hrest, hw p List.mem_cons_self c hmatch, htake⟩
      · cases h

/-- What matches a word is none of the characters that its letters are not matched by. -/
theorem not_mem_of_afterWord? {signs w : List Char} (hw : avoids signs w = true) {cs rest : List Char}
    (h : afterWord? w cs = some rest) : w.length ≤ cs.length ∧ ∀ c ∈ cs.take w.length, c ∉ signs := by
  have hspec := @of_afterWord? (· ∉ signs) w (fun p hp c hmatch hc => ?_) _ _ h
  · exact ⟨hspec.1, hspec.2.2⟩
  · have := List.all_eq_true.1 (List.all_eq_true.1 hw p hp) c hc
    rw [hmatch] at this
    cases this

theorem solidCount_take {cs : List Char} {n : Nat} (hn : n ≤ cs.length) (h : ∀ c ∈ cs.take n, isSolid c = true) :
    solidCount (cs.take n) = n :=
  (List.countP_eq_length.2 h).trans (List.length_take_of_le hn)

/-- What matches a word counts as a whole. -/
theorem solidCount_of_afterWord? {w : List Char} (hw : isSolidWord w = true) {cs rest : List Char}
    (h : afterWord? w cs = some rest) : solidCount (cs.take w.length) = w.length := by
  obtain ⟨hlen, hsolid⟩ := @not_mem_of_afterWord? weightless w hw cs rest h
  refine solidCount_take hlen fun c hc => ?_
  by_contra hno
  exact hsolid c hc (mem_weightless (Bool.eq_false_iff.2 hno))

/-! ### Values -/

/-- **A declaration has a value, which is a stretch of the text.** -/
theorem exists_value {d : Dialect} {tree n : Node} (hparse : Stylesheet.parse d t.chars = .ok tree)
    (hn : n ∈ Node.walk tree) (hd : isDeclaration n = true) :
    ∃ v, v ∈ Node.walk tree ∧ v.label.isValue = true ∧ v.span.stop ≤ t.size ∧
      valueOf? n = some (v, t.sliceChars v.span.start v.span.stop) := by
  have hfits := (wellFormed_of_parse hparse hn).fits
  unfold isDeclaration at hd
  split at hd
  · rename_i property value important hlabel
    rw [Fits, hlabel] at hfits
    obtain ⟨p, v, name, hchildren, hp, -, hv⟩ := hfits
    have hpk : p.kind = "property" := by rw [Node.kind, hp]; rfl
    have hvk : v.kind = "value" := by rw [Node.kind, hv]; rfl
    have hchild : n.child? "value" = some v := by simp [Node.child?, hchildren, hpk, hvk]
    have hmem : v ∈ Node.walk tree := by
      refine Node.mem_walk_trans (Node.mem_walk_of_child ?_) tree hn
      rw [hchildren]
      exact List.mem_cons_of_mem _ List.mem_cons_self
    have htext := (wellFormed_of_parse hparse hmem).fits
    rw [Fits, hv] at htext
    refine ⟨v, hmem, by rw [hv]; rfl, Stylesheet.stop_le_size hparse hmem, ?_⟩
    have hslice : value.toList = t.sliceChars v.span.start v.span.stop := by
      rw [htext.1]
      exact String.toList_ofList
    rw [valueOf?, hchild, Option.map_some, hv, ← hslice]
  · cases hd

theorem value_text {d : Dialect} {tree n v : Node} {text : List Char}
    (hparse : Stylesheet.parse d t.chars = .ok tree) (hn : n ∈ Node.walk tree) (hd : isDeclaration n = true)
    (hv : valueOf? n = some (v, text)) : v ∈ Node.walk tree ∧ v.label.isValue = true ∧
      v.span.stop ≤ t.size ∧ text = t.sliceChars v.span.start v.span.stop := by
  obtain ⟨v', hmem, hvalue, hstop, hv'⟩ := exists_value hparse hn hd
  rw [hv] at hv'
  cases hv'
  exact ⟨hmem, hvalue, hstop, rfl⟩

/-- What a value holds from an offset on stands in the text. -/
theorem solidCount_value (v stop a k : Nat) :
    solidCount (((t.sliceChars v stop).drop a).take k) ≤ solidCount (t.sliceChars (v + a) (v + a + k)) := by
  rw [Source.sliceChars, Source.sliceChars, Array.toList_extract, Array.toList_extract,
    List.extract_eq_take_drop, List.extract_eq_take_drop, Nat.add_sub_cancel_left, List.drop_take,
    List.drop_drop, List.take_take, Nat.min_comm, ← List.take_take]
  exact (List.take_sublist _ _).countP_le

/-- A zero takes the place of more than one character that counts. -/
theorem lightens_of_zero {e : Edit} (hreplacement : e.replacement = "0")
    (h : 2 ≤ solidCount (t.sliceChars e.span.start e.span.stop)) : Lightens t e := by
  refine lightens_of_fewer ?_
  rw [hreplacement]
  exact h

/-! ### Removed borders -/

namespace BorderNone

theorem afterWord?_of_isNone {value : List Char} (h : isNone value = true) :
    ∃ rest, afterWord? "none".toList value = some rest := by
  rw [isNone, Bool.and_eq_true] at h
  split at h
  · cases h.2
  · exact ⟨_, by assumption⟩
  · exact ⟨_, by assumption⟩

/-- **A border removed with zero makes the text lighter.** -/
theorem lightens_of_fix {c : Context} {tree n : Node} {e : Edit}
    (hparse : Stylesheet.parse .css c.text.chars = .ok tree) (hn : n ∈ Node.walk tree)
    (hd : isDeclaration n = true) (hfix : fix n c = some e) : Lightens c.text e := by
  unfold fix at hfix
  split at hfix
  · rename_i v text hv
    split at hfix
    · rename_i hnone
      cases hfix
      obtain ⟨-, -, -, rfl⟩ := value_text hparse hn hd hv
      obtain ⟨rest, hword⟩ := afterWord?_of_isNone hnone
      have hcount := solidCount_of_afterWord? (by decide +kernel) hword
      have hle := @solidCount_value c.text v.span.start v.span.stop 0 4
      refine lightens_of_zero rfl ?_
      rw [Span.between_start, Span.between_stop, Nat.max_eq_right (Nat.le_add_right _ _)]
      refine Nat.le_trans ?_ hle
      rw [List.drop_zero, show 4 = "none".toList.length from rfl, hcount]
      decide
    · cases hfix
  · cases hfix

end BorderNone

/-! ### Zero lengths -/

namespace ZeroLength

/-- Whether the letters of all units are matched only by characters that count. -/
def areSolid (units : List (List Char)) : Bool :=
  units.all fun u => !u.isEmpty && isSolidWord u

theorem longest?_spec {attempt : Nat → Option Nat} {n r : Nat} (h : longest? attempt n = some r) :
    ∃ m, 0 < m ∧ m ≤ n ∧ attempt m = some r := by
  induction n with
  | zero => cases h
  | succ n ih =>
    rw [longest?] at h
    split at h
    · rename_i hr
      cases h
      exact ⟨n + 1, Nat.succ_pos n, Nat.le_refl _, hr⟩
    · obtain ⟨m, hpos, hle, hm⟩ := ih h
      exact ⟨m, hpos, Nat.le_succ_of_le hle, hm⟩

/-- A unit ends where it can. -/
theorem unitLength?_spec {units : List (List Char)} {cs : List Char} {k : Nat} (h : unitLength? units cs = some k) :
    ∃ u ∈ units, u.length = k ∧ ∃ rest, afterWord? u cs = some rest ∧ ∀ c ∈ rest.head?, blocksEnd c = false := by
  rw [unitLength?, Option.map_eq_some_iff] at h
  obtain ⟨u, hfind, rfl⟩ := h
  have hword := List.find?_some hfind
  refine ⟨u, List.mem_of_find?_eq_some hfind, rfl, ?_⟩
  split at hword
  · cases hword
  · rename_i hnone
    exact ⟨[], hnone, nofun⟩
  · rename_i c rest hsome
    refine ⟨c :: rest, hsome, ?_⟩
    rintro x ⟨⟩
    rwa [Bool.not_eq_true'] at hword

/-- A unit counts as a whole. -/
theorem unitLength?_solid {units : List (List Char)} (hu : areSolid units = true) {cs : List Char} {k : Nat}
    (h : unitLength? units cs = some k) : 0 < k ∧ solidCount (cs.take k) = k := by
  obtain ⟨u, hmem, rfl, rest, hword, -⟩ := unitLength?_spec h
  have hsolid := List.all_eq_true.1 hu u hmem
  rw [Bool.and_eq_true, Bool.not_eq_true', List.isEmpty_eq_false_iff] at hsolid
  exact ⟨List.length_pos_of_ne_nil hsolid.1, solidCount_of_afterWord? hsolid.2 hword⟩

theorem of_mem_take_takeWhile {p : Char → Bool} {cs : List Char} {n : Nat} (hn : n ≤ (cs.takeWhile p).length) :
    n ≤ cs.length ∧ ∀ c ∈ cs.take n, p c = true := by
  have hprefix := List.takeWhile_prefix (l := cs) p
  refine ⟨Nat.le_trans hn hprefix.length_le, fun c hc => List.mem_takeWhile_imp (l := cs) ?_⟩
  rw [List.prefix_iff_eq_take.1 hprefix]
  exact List.take_subset_take_left cs hn hc

/-- Nothing, or a fraction of zeros. -/
def IsFraction (w : List Char) : Prop :=
  w = [] ∨ ∃ zs, zs ≠ [] ∧ (∀ c ∈ zs, c = '0') ∧ w = '.' :: zs

/-- A zero without its unit: zeros, and an optional fraction of zeros. -/
def IsZero (w : List Char) : Prop :=
  ∃ zs fraction, zs ≠ [] ∧ (∀ c ∈ zs, c = '0') ∧ IsFraction fraction ∧ w = zs ++ fraction

theorem IsFraction.zeros {w : List Char} (h : IsFraction w) : ∀ c ∈ w, c = '0' ∨ c = '.' := by
  rcases h with rfl | ⟨zs, -, hzs, rfl⟩
  · exact List.forall_mem_nil _
  · exact List.forall_mem_cons.2 ⟨.inr rfl, fun c hc => .inl (hzs c hc)⟩

theorem IsZero.zeros {w : List Char} (h : IsZero w) : w ≠ [] ∧ ∀ c ∈ w, c = '0' ∨ c = '.' := by
  obtain ⟨zs, fraction, hne, hzs, hfraction, rfl⟩ := h
  refine ⟨List.append_ne_nil_of_left_ne_nil hne _, ?_⟩
  exact List.forall_mem_append.2 ⟨fun c hc => .inl (hzs c hc), hfraction.zeros⟩

/-- The unit of a zero length stands behind its zeros, or behind a fraction of zeros. -/
theorem tailLength?_spec {units : List (List Char)} {before n : Nat} {cs : List Char}
    (h : tailLength? units before cs = some n) :
    ∃ w tail k, cs = w ++ tail ∧ IsFraction w ∧ unitLength? units tail = some k ∧ n = before + w.length + k := by
  have hplain {w tail text : List Char} (htext : text = w ++ tail)
      (h : (unitLength? units (text.drop (before + w.length - before))).map (before + w.length + ·) = some n) :
      ∃ k, unitLength? units tail = some k ∧ n = before + w.length + k := by
    rw [htext, Nat.add_sub_cancel_left, List.drop_left] at h
    obtain ⟨k, hk, rfl⟩ := Option.map_eq_some_iff.1 h
    exact ⟨k, hk, rfl⟩
  have hnone (h : (unitLength? units (cs.drop (before - before))).map (before + ·) = some n) :
      ∃ w tail k, cs = w ++ tail ∧ IsFraction w ∧ unitLength? units tail = some k ∧
        n = before + w.length + k := by
    obtain ⟨k, hk⟩ := @hplain [] cs cs rfl h
    exact ⟨[], cs, k, rfl, .inl rfl, hk⟩
  simp only [tailLength?] at h
  split at h
  · rename_i rest
    split at h
    · rename_i hr
      cases h
      obtain ⟨z, hpos, hle, hz⟩ := longest?_spec hr
      obtain ⟨hlen, hzeros⟩ := of_mem_take_takeWhile hle
      have hw : ('.' :: rest.take z).length = 1 + z := by
        rw [List.length_cons, List.length_take_of_le hlen, Nat.add_comm]
      have htext : '.' :: rest = ('.' :: rest.take z) ++ rest.drop z := by
        rw [List.cons_append, List.take_append_drop]
      rw [Nat.add_assoc, ← hw] at hz
      obtain ⟨k, hk⟩ := hplain htext hz
      refine ⟨_, _, k, htext, .inr ⟨_, ?_, ?_, rfl⟩, hk⟩
      · exact List.ne_nil_of_length_pos (by rw [List.length_take_of_le hlen]; exact hpos)
      · exact fun c hc => beq_iff_eq.1 (hzeros c hc)
    · exact hnone h
  · exact hnone h

/-- **What a zero length is**: zeros, an optional fraction of zeros, and a unit. -/
theorem length?_spec {units : List (List Char)} {cs : List Char} {n : Nat} (h : length? units cs = some n) :
    ∃ w tail k, cs = w ++ tail ∧ IsZero w ∧ unitLength? units tail = some k ∧ n = w.length + k := by
  obtain ⟨z, hpos, hle, htail⟩ := longest?_spec h
  obtain ⟨hlen, hzeros⟩ := of_mem_take_takeWhile hle
  obtain ⟨w, tail, k, hcs, hw, hunit, rfl⟩ := tailLength?_spec htail
  have hz : (cs.take z).length = z := List.length_take_of_le hlen
  refine ⟨cs.take z ++ w, tail, k, ?_, ⟨_, w, ?_, ?_, hw, rfl⟩, hunit, ?_⟩
  · rw [List.append_assoc, ← hcs, List.take_append_drop]
  · exact List.ne_nil_of_length_pos (by rw [hz]; exact hpos)
  · exact fun c hc => beq_iff_eq.1 (hzeros c hc)
  · rw [List.length_append, hz]

/-- **A zero length has more than one character that counts**: a zero, and its unit. -/
theorem length?_solid {units : List (List Char)} (hu : areSolid units = true) {cs : List Char} {n : Nat}
    (h : length? units cs = some n) : 2 ≤ solidCount (cs.take n) := by
  obtain ⟨w, tail, k, rfl, hw, hunit, rfl⟩ := length?_spec h
  obtain ⟨hk, hcount⟩ := unitLength?_solid hu hunit
  obtain ⟨hne, hzeros⟩ := hw.zeros
  have hzero : solidCount w = w.length := List.countP_eq_length.2 fun c hc => by
    rcases hzeros c hc with rfl | rfl <;> decide
  have hpos := List.length_pos_of_ne_nil hne
  rw [List.take_length_add_append, solidCount_append, hcount, hzero]
  omega

/-- The zero lengths of a text, whatever surrounds them; the arguments are those of `spansFrom`. -/
def lengthsFrom (units : List (List Char)) (before : Option Char) (pos : Nat) :
    Nat → List Char → List (Nat × Nat)
  | _, [] => []
  | skip + 1, c :: rest => lengthsFrom units (some c) (pos + 1) skip rest
  | 0, c :: rest =>
    match if before.any blocksStart then none else length? units (c :: rest) with
    | none => lengthsFrom units (some c) (pos + 1) 0 rest
    | some n => (pos, pos + n) :: lengthsFrom units (some c) (pos + 1) (n - 1) rest

theorem lengthsFrom_spec {units : List (List Char)} {cs : List Char} : ∀ {before : Option Char}
    {pos skip a b : Nat}, (a, b) ∈ lengthsFrom units before pos skip cs →
      ∃ i n, a = pos + i ∧ b = a + n ∧ length? units (cs.drop i) = some n := by
  induction cs with
  | nil =>
    intro before pos skip a b h
    cases skip <;> cases h
  | cons c cs ih =>
    intro before pos skip a b h
    have hlater {skip : Nat} (h : (a, b) ∈ lengthsFrom units (some c) (pos + 1) skip cs) :
        ∃ i n, a = pos + i ∧ b = a + n ∧ length? units ((c :: cs).drop i) = some n := by
      obtain ⟨i, n, rfl, hb, hn⟩ := ih h
      exact ⟨i + 1, n, by omega, hb, hn⟩
    cases skip with
    | succ skip => exact hlater h
    | zero =>
      rw [lengthsFrom] at h
      split at h
      · exact hlater h
      · rename_i n hfound
        have hn : length? units (c :: cs) = some n := by
          split at hfound
          · cases hfound
          · exact hfound
        rcases List.mem_cons.1 h with heq | h
        · cases heq
          exact ⟨0, n, rfl, rfl, hn⟩
        · exact hlater h

/-- **A zero length counts if what stands before it leaves it outside of functions and quotes.** By
induction on the text: the surroundings are those of the characters read so far. -/
theorem mem_spansFrom {units : List (List Char)} {cs : List Char} : ∀ {s : Surroundings} {before : Option Char}
    {pos skip a b : Nat}, (a, b) ∈ spansFrom units s before pos skip cs ↔
      (a, b) ∈ lengthsFrom units before pos skip cs ∧
        ((cs.take (a - pos)).foldl Surroundings.step s).isPlain = true := by
  induction cs with
  | nil =>
    intro s before pos skip a b
    cases skip <;> exact ⟨nofun, fun h => nomatch h.1⟩
  | cons c cs ih =>
    intro s before pos skip a b
    -- a later length stands behind this character too
    have hlater {skip : Nat} : (a, b) ∈ spansFrom units (s.step c) (some c) (pos + 1) skip cs ↔
        (a, b) ∈ lengthsFrom units (some c) (pos + 1) skip cs ∧
          (((c :: cs).take (a - pos)).foldl Surroundings.step s).isPlain = true := by
      rw [ih]
      refine and_congr_right fun h => ?_
      obtain ⟨i, -, rfl, -⟩ := lengthsFrom_spec h
      rw [show pos + 1 + i - pos = i + 1 by omega, List.take_succ_cons, List.foldl_cons,
        Nat.add_sub_cancel_left]
    cases skip with
    | succ skip => exact hlater
    | zero =>
      simp only [spansFrom, lengthsFrom]
      generalize (if before.any blocksStart = true then none else length? units (c :: cs)) = found
      cases found with
      | none => exact hlater
      | some n =>
        -- the length found here stands behind nothing new
        have hhead (heq : (a, b) = (pos, pos + n)) :
            ((c :: cs).take (a - pos)).foldl Surroundings.step s = s := by
          cases heq
          rw [Nat.sub_self]
          rfl
        dsimp only
        split
        · rename_i hplain
          rw [List.mem_cons, List.mem_cons, hlater, or_and_right]
          refine or_congr_left (iff_self_and.2 fun heq => ?_)
          rw [hhead heq]
          exact hplain
        · rename_i hplain
          rw [List.mem_cons, hlater, or_and_right]
          refine (or_iff_right fun h => hplain ?_).symm
          rw [← hhead h.1]
          exact h.2

theorem spansFrom_spec {units : List (List Char)} {cs : List Char} {s : Surroundings} {before : Option Char}
    {pos skip a b : Nat} (h : (a, b) ∈ spansFrom units s before pos skip cs) :
    ∃ i n, a = pos + i ∧ b = a + n ∧ length? units (cs.drop i) = some n :=
  lengthsFrom_spec (mem_spansFrom.1 h).1

theorem areSolid_unitsOf {o : ZeroUnitOptions} (h : areSolid (o.units.map String.toList) = true) :
    areSolid (unitsOf o) = true := by
  refine List.all_eq_true.2 fun u hu => List.all_eq_true.1 h u ?_
  exact (List.mergeSort_perm _ _).mem_iff.1 hu

/-- **A zero without its unit makes the text lighter.** -/
theorem lightens_of_fix {c : Context} {tree n : Node} {v : Violation} {e : Edit}
    (hparse : Stylesheet.parse .css c.text.chars = .ok tree) (hn : n ∈ Node.walk tree)
    (hd : isDeclaration n = true)
    (hu : areSolid ((c.options .zeroUnit).units.map String.toList) = true)
    (hfix : fix v n c = some e) : Lightens c.text e := by
  unfold fix at hfix
  split at hfix
  · rename_i hspan
    cases hfix
    rw [List.contains_iff_mem, spansOf] at hspan
    split at hspan
    · cases hspan
    · rename_i value text hvalue
      obtain ⟨⟨a, b⟩, hmem, hab⟩ := List.mem_map.1 hspan
      obtain ⟨-, -, -, rfl⟩ := value_text hparse hn hd hvalue
      unfold spans at hmem
      split at hmem
      · cases hmem
      · obtain ⟨i, k, ha, rfl, hlen⟩ := spansFrom_spec hmem
        rw [Nat.zero_add] at ha
        subst ha
        have hsolid := length?_solid (areSolid_unitsOf hu) hlen
        refine lightens_of_zero rfl ?_
        simp only [← hab, Span.between_start, Span.between_stop]
        rw [Nat.max_eq_right (by omega), ← Nat.add_assoc]
        exact Nat.le_trans hsolid (solidCount_value _ _ _ _)
  · cases hfix

end ZeroLength

variable {d : Dialect} {tree n v : Node} {text : List Char}

/-! ### Inert words -/

/-- The characters that are not inert. -/
def sensitive : List Char :=
  [' ', '\t', '\r', '\n', '\x0c'] ++ scanSigns

theorem mem_sensitive {c : Char} (h : isInert c = false) : c ∈ sensitive := by
  rw [isInert, Bool.and_eq_false_iff, Bool.not_eq_false', Bool.not_eq_false', List.contains_iff_mem] at h
  refine List.mem_append.2 (h.imp_left fun hblank => ?_)
  simp only [isStyleBlank, Bool.or_eq_true, beq_iff_eq] at hblank
  rcases hblank with (((rfl | rfl) | rfl) | rfl) | rfl <;> decide

theorem isInert_of_not_mem {c : Char} (h : c ∉ sensitive) : isInert c = true := by
  by_contra hno
  exact h (mem_sensitive (Bool.eq_false_iff.2 hno))

/-- Whether the letters of all units are matched by inert characters only. -/
def areInert (units : List (List Char)) : Bool :=
  units.all (avoids sensitive)

/-! ### Edits -/

/-- **An edit puts a zero in the place of inert characters of a value.** -/
structure Zeroes (t : Source) (tree : Node) (e : Edit) : Prop where
  replacement : e.replacement = "0"
  nonempty : e.span.start < e.span.stop
  inert : InertBetween t.chars e.span.start e.span.stop
  value : ∃ v ∈ Node.walk tree, v.label.isValue = true ∧ v.span.start ≤ e.span.start ∧ e.span.stop ≤ v.span.stop

/-- The characters of a stretch of the value of a declaration stand in the text. -/
theorem chars_of_value (hparse : Stylesheet.parse d t.chars = .ok tree) (hn : n ∈ Node.walk tree)
    (hd : isDeclaration n = true) (hv : valueOf? n = some (v, text)) {a k : Nat} (hk : 0 < k)
    (hlen : k ≤ (text.drop a).length) {P : Char → Prop} (hP : ∀ c ∈ (text.drop a).take k, P c) :
    v.span.start + (a + k) ≤ v.span.stop ∧
      ∀ i, v.span.start + a ≤ i → i < v.span.start + (a + k) → ∃ c, t.chars[i]? = some c ∧ P c := by
  obtain ⟨-, -, hsize, rfl⟩ := value_text hparse hn hd hv
  have hstop : a + k ≤ v.span.stop - v.span.start := by
    rw [List.length_drop, Source.sliceChars, Array.length_toList, Array.size_extract] at hlen
    omega
  refine ⟨by omega, fun i hi hlt => ?_⟩
  obtain ⟨j, rfl⟩ := Nat.exists_eq_add_of_le hi
  have hin : v.span.start + a + j < t.chars.size := by
    have hle : v.span.stop ≤ t.chars.size := hsize
    omega
  refine ⟨_, Array.getElem?_eq_getElem hin, hP _ (List.mem_iff_getElem?.2 ⟨j, ?_⟩)⟩
  -- the character of the value is the one of the text
  rw [List.getElem?_take_of_lt (by omega), List.getElem?_drop, Source.sliceChars, Array.getElem?_toList,
    Array.getElem?_extract, if_pos (by omega), ← Nat.add_assoc, Array.getElem?_eq_getElem hin]

/-- **What the rules about values replace**: a stretch of the value of a declaration that holds none of
some characters. -/
structure ValueEdit (signs : List Char) (n v : Node) (text : List Char) (a k : Nat) (e : Edit) : Prop where
  value : valueOf? n = some (v, text)
  span : e.span = .between (v.span.start + a) (v.span.start + (a + k))
  replacement : e.replacement = "0"
  pos : 0 < k
  le : k ≤ (text.drop a).length
  avoids : ∀ c ∈ (text.drop a).take k, c ∉ signs

theorem ValueEdit.bounds {signs : List Char} {a k : Nat} {e : Edit} (h : ValueEdit signs n v text a k e) :
    e.span.start = v.span.start + a ∧ e.span.stop = v.span.start + (a + k) := by
  rw [h.span, Span.between_start, Span.between_stop]
  exact ⟨rfl, Nat.max_eq_right (by omega)⟩

theorem zeroes_of_valueEdit (hparse : Stylesheet.parse d t.chars = .ok tree) (hn : n ∈ Node.walk tree)
    (hd : isDeclaration n = true) {a k : Nat} {e : Edit} (h : ValueEdit sensitive n v text a k e) :
    Zeroes t tree e := by
  obtain ⟨hmem, hvalue, -, -⟩ := value_text hparse hn hd h.value
  obtain ⟨hstop, hinert⟩ := chars_of_value hparse hn hd h.value h.pos h.le
    fun c hc => isInert_of_not_mem (h.avoids c hc)
  obtain ⟨hestart, hestop⟩ := h.bounds
  have hpos := h.pos
  rw [← hestart, ← hestop] at hinert
  exact ⟨h.replacement, by omega, fun i hi hlt => hinert i hi hlt, v, hmem, hvalue, by omega, by omega⟩

namespace BorderNone

/-- The word that the rule replaces. -/
theorem valueEdit_of_fix {signs : List Char} (hsigns : avoids signs "none".toList = true) {c : Context} {e : Edit}
    (hfix : fix n c = some e) : ∃ v text a k, ValueEdit signs n v text a k e := by
  unfold fix at hfix
  split at hfix
  · rename_i v text hv
    split at hfix
    · rename_i hnone
      cases hfix
      obtain ⟨rest, hword⟩ := afterWord?_of_isNone hnone
      obtain ⟨hlen, havoids⟩ := not_mem_of_afterWord? hsigns hword
      exact ⟨v, text, 0, 4, hv, rfl, rfl, by decide, hlen, havoids⟩
    · cases hfix
  · cases hfix

/-- **A border is removed inside of its value.** -/
theorem zeroes_of_fix {c : Context} {e : Edit} (hparse : Stylesheet.parse d c.text.chars = .ok tree)
    (hn : n ∈ Node.walk tree) (hd : isDeclaration n = true) (hfix : fix n c = some e) : Zeroes c.text tree e := by
  obtain ⟨v, text, a, k, h⟩ := @valueEdit_of_fix _ sensitive (by decide +kernel) _ _ hfix
  exact zeroes_of_valueEdit hparse hn hd h

end BorderNone

namespace ZeroLength

/-- A zero length holds none of the characters that its units avoid. -/
theorem length?_avoids {signs : List Char} (hsigns : '0' ∉ signs ∧ '.' ∉ signs) {units : List (List Char)}
    (hu : units.all (avoids signs) = true) {cs : List Char} {k : Nat} (h : length? units cs = some k) :
    0 < k ∧ k ≤ cs.length ∧ ∀ c ∈ cs.take k, c ∉ signs := by
  obtain ⟨w, tail, u, rfl, hw, hunit, rfl⟩ := length?_spec h
  obtain ⟨unit, hmem, rfl, rest, hword, -⟩ := unitLength?_spec hunit
  obtain ⟨hlen, havoids⟩ := not_mem_of_afterWord? (List.all_eq_true.1 hu unit hmem) hword
  obtain ⟨hne, hzeros⟩ := hw.zeros
  have hpos := List.length_pos_of_ne_nil hne
  rw [List.length_append]
  refine ⟨by omega, by omega, ?_⟩
  rw [List.take_length_add_append, List.forall_mem_append]
  refine ⟨fun c hc => ?_, havoids⟩
  rcases hzeros c hc with rfl | rfl
  · exact hsigns.1
  · exact hsigns.2

theorem avoids_unitsOf {signs : List Char} {o : ZeroUnitOptions}
    (h : (o.units.map String.toList).all (avoids signs) = true) : (unitsOf o).all (avoids signs) = true := by
  refine List.all_eq_true.2 fun u hu => List.all_eq_true.1 h u ?_
  exact (List.mergeSort_perm _ _).mem_iff.1 hu

/-- The zero length that the rule replaces. -/
theorem valueEdit_of_fix {signs : List Char} (hsigns : '0' ∉ signs ∧ '.' ∉ signs) {c : Context} {w : Violation}
    {e : Edit} (hu : ((c.options .zeroUnit).units.map String.toList).all (avoids signs) = true)
    (hfix : fix w n c = some e) : ∃ v text a k, ValueEdit signs n v text a k e := by
  unfold fix at hfix
  split at hfix
  · rename_i hspan
    cases hfix
    rw [List.contains_iff_mem, spansOf] at hspan
    split at hspan
    · cases hspan
    · rename_i v text hv
      obtain ⟨⟨a, b⟩, hmem, hab⟩ := List.mem_map.1 hspan
      unfold spans at hmem
      split at hmem
      · cases hmem
      · obtain ⟨i, k, ha, rfl, hlen⟩ := spansFrom_spec hmem
        rw [Nat.zero_add] at ha
        subst ha
        obtain ⟨hk, hle, havoids⟩ := length?_avoids hsigns (avoids_unitsOf hu) hlen
        exact ⟨v, text, a, k, hv, hab.symm, rfl, hk, hle, havoids⟩
  · cases hfix

/-- **A zero loses its unit inside of its value.** -/
theorem zeroes_of_fix {c : Context} {w : Violation} {e : Edit} (hparse : Stylesheet.parse d c.text.chars = .ok tree)
    (hn : n ∈ Node.walk tree) (hd : isDeclaration n = true)
    (hu : areInert ((c.options .zeroUnit).units.map String.toList) = true) (hfix : fix w n c = some e) :
    Zeroes c.text tree e := by
  obtain ⟨v, text, a, k, h⟩ := valueEdit_of_fix (by decide) hu hfix
  exact zeroes_of_valueEdit hparse hn hd h

end ZeroLength

end HouseStyle
