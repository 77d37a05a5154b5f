import HouseStyle.Proofs.Text.Lines
import HouseStyle.Proofs.Text.Replacement

/-!
# Carriage returns and line feeds

A text whose lines end in a carriage return and a line feed keeps ending them so when it is cut between
lines, or anywhere else but inside of a line break, and put together again. So do edits that end outside of
line breaks, and put whole line breaks in the place of others.

* `feedsPaired`, `returnsPaired`: each line feed stands after a carriage return, each carriage return
  before a line feed.
* `Source.CutsBreak`: an offset inside of a line break; lines begin and end elsewhere.
* `feedsPaired_slice`, `returnsPaired_slice`: what is cut out of a text.
* `Source.newline_of_feedsPaired`: such a text repeats the break that it uses.
* `Edit.KeepsFeeds`, `Edit.KeepsReturns`: what one edit has to satisfy.
* `endsWithReturns_applyAll`, `returnsPaired_applyAll`: what all edits of a round lead to.
* `not_mem_applyAll`: a character that neither the text nor the edits hold.
-/

namespace HouseStyle

/-- Whether each line feed stands after a carriage return; `returned` tells whether one stands right
before the text. -/
def feedsPairedFrom (returned : Bool) : List Char → Bool
  | [] => true
  | c :: rest => (c != '\n' || returned) && feedsPairedFrom (c == '\r') rest

/-- Whether each line feed of a text stands after a carriage return. -/
def feedsPaired (cs : List Char) : Bool :=
  feedsPairedFrom false cs

/-- Whether each carriage return of a text stands before a line feed. -/
def returnsPaired : List Char → Bool
  | [] => true
  | c :: rest => (c != '\r' || rest.head? == some '\n') && returnsPaired rest

/-- Whether a text has lines that end, all of them in a carriage return and a line feed. -/
def endsWithReturns (t : Source) : Bool :=
  t.chars.contains '\n' && feedsPaired t.chars.toList

variable {xs ys cs : List Char} {t : Source}

/-! ### What stands around breaks -/

theorem feedsPairedFrom_iff : ∀ {returned : Bool}, feedsPairedFrom returned cs = true ↔
    ∀ front rest, cs = front ++ '\n' :: rest → front = [] ∧ returned = true ∨ front.getLast? = some '\r' := by
  induction cs with
  | nil => simp [feedsPairedFrom]
  | cons c cs ih =>
    intro returned
    rw [feedsPairedFrom, Bool.and_eq_true, Bool.or_eq_true, bne_iff_ne, ih]
    constructor
    · rintro ⟨hhere, hlater⟩ front rest h
      rcases List.cons_eq_append_iff.1 h with ⟨rfl, hcs⟩ | ⟨front, rfl, hcs⟩
      · cases hcs
        exact .inl ⟨rfl, hhere.resolve_left fun hne => hne rfl⟩
      · rcases hlater front rest hcs with ⟨rfl, hc⟩ | hlast
        · exact .inr (congrArg some (beq_iff_eq.1 hc))
        · exact .inr (by rw [List.getLast?_cons, hlast, Option.getD_some])
    · intro h
      refine ⟨?_, fun front rest hcs => ?_⟩
      · by_cases hc : c = '\n'
        · rcases h [] cs (by rw [hc]; rfl) with ⟨-, hreturned⟩ | hlast
          · exact .inr hreturned
          · cases hlast
        · exact .inl hc
      · rcases h (c :: front) rest (by rw [hcs]; rfl) with ⟨hnil, -⟩ | hlast
        · cases hnil
        · cases front with
          | nil => exact .inl ⟨rfl, beq_iff_eq.2 (Option.some.inj hlast)⟩
          | cons x front => exact .inr (by rwa [List.getLast?_cons_cons] at hlast)

theorem feedsPaired_iff :
    feedsPaired cs = true ↔ ∀ front rest, cs = front ++ '\n' :: rest → front.getLast? = some '\r' := by
  rw [feedsPaired, feedsPairedFrom_iff]
  simp only [Bool.false_eq_true, and_false, false_or]

theorem returnsPaired_iff :
    returnsPaired cs = true ↔ ∀ front rest, cs = front ++ '\r' :: rest → rest.head? = some '\n' := by
  induction cs with
  | nil => simp [returnsPaired]
  | cons c cs ih =>
    rw [returnsPaired, Bool.and_eq_true, Bool.or_eq_true, bne_iff_ne, beq_iff_eq, ih]
    constructor
    · rintro ⟨hhere, hlater⟩ front rest h
      rcases List.cons_eq_append_iff.1 h with ⟨rfl, hcs⟩ | ⟨front, rfl, hcs⟩
      · cases hcs
        exact hhere.resolve_left fun hne => hne rfl
      · exact hlater front rest hcs
    · intro h
      refine ⟨?_, fun front rest hcs => h (c :: front) rest (by rw [hcs]; rfl)⟩
      by_cases hc : c = '\r'
      · exact .inr (h [] cs (by rw [hc]; rfl))
      · exact .inl hc

/-! ### Texts put together and cut -/

theorem feedsPaired_append (hx : feedsPaired xs = true) (hy : feedsPaired ys = true) :
    feedsPaired (xs ++ ys) = true := by
  rw [feedsPaired_iff] at hx hy ⊢
  intro front rest h
  rcases List.append_eq_append_iff.1 h with ⟨mid, rfl, hmid⟩ | ⟨mid, rfl, hmid⟩
  · rw [List.getLast?_append, hy mid rest hmid]
    rfl
  · cases mid with
    | nil => cases hy [] rest hmid.symm
    | cons c mid =>
      cases hmid
      exact hx front mid rfl

theorem returnsPaired_append (hx : returnsPaired xs = true) (hy : returnsPaired ys = true) :
    returnsPaired (xs ++ ys) = true := by
  rw [returnsPaired_iff] at hx hy ⊢
  intro front rest h
  rcases List.append_eq_append_iff.1 h with ⟨mid, rfl, hmid⟩ | ⟨mid, rfl, hmid⟩
  · exact hy mid rest hmid
  · cases mid with
    | nil => exact hy [] rest hmid.symm
    | cons c mid =>
      cases hmid
      rw [List.append_eq, List.head?_append, hx front mid rfl]
      rfl

theorem feedsPaired_left (h : feedsPaired (xs ++ ys) = true) : feedsPaired xs = true := by
  rw [feedsPaired_iff] at h ⊢
  rintro front rest rfl
  exact h front (rest ++ ys) (by rw [List.append_assoc]; rfl)

theorem returnsPaired_right (h : returnsPaired (xs ++ ys) = true) : returnsPaired ys = true := by
  rw [returnsPaired_iff] at h ⊢
  rintro front rest rfl
  exact h (xs ++ front) rest (by rw [List.append_assoc])

/-- What comes behind a cut that goes through no break. -/
theorem feedsPaired_right (h : feedsPaired (xs ++ ys) = true)
    (hcut : ¬ (xs.getLast? = some '\r' ∧ ys.head? = some '\n')) : feedsPaired ys = true := by
  rw [feedsPaired_iff] at h ⊢
  rintro front rest rfl
  have hlast := h (xs ++ front) rest (by rw [List.append_assoc])
  cases front with
  | nil => exact absurd ⟨by rwa [List.append_nil] at hlast, rfl⟩ hcut
  | cons c front =>
    rwa [List.getLast?_append, List.getLast?_cons, Option.some_or, ← List.getLast?_cons] at hlast

/-- What comes before a cut that goes through no break. -/
theorem returnsPaired_left (h : returnsPaired (xs ++ ys) = true)
    (hcut : ¬ (xs.getLast? = some '\r' ∧ ys.head? = some '\n')) : returnsPaired xs = true := by
  rw [returnsPaired_iff] at h ⊢
  rintro front rest rfl
  have hhead := h front (rest ++ ys) (by rw [List.append_assoc]; rfl)
  cases rest with
  | nil => exact absurd ⟨List.getLast?_concat, hhead⟩ hcut
  | cons c rest => exact hhead

theorem feedsPaired_of_not_mem (h : '\n' ∉ cs) : feedsPaired cs = true := by
  rw [feedsPaired_iff]
  rintro front rest rfl
  exact absurd (List.mem_append_right _ List.mem_cons_self) h

theorem returnsPaired_of_not_mem (h : '\r' ∉ cs) : returnsPaired cs = true := by
  rw [returnsPaired_iff]
  rintro front rest rfl
  exact absurd (List.mem_append_right _ List.mem_cons_self) h

theorem endsWithReturns_iff :
    endsWithReturns t = true ↔ '\n' ∈ t.chars.toList ∧ feedsPaired t.chars.toList = true := by
  rw [endsWithReturns, Bool.and_eq_true, Array.contains_iff_mem, Array.mem_toList_iff]

/-! ### Offsets inside of a break -/

namespace Source

/-- An offset between the carriage return and the line feed of one break. -/
def CutsBreak (t : Source) (offset : Nat) : Prop :=
  (t.chars.toList.take offset).getLast? = some '\r' ∧ (t.chars.toList.drop offset).head? = some '\n'

theorem cutsBreak_iff {offset : Nat} : t.CutsBreak offset ↔
    ∃ i, offset = i + 1 ∧ t.chars[i]? = some '\r' ∧ t.chars[i + 1]? = some '\n' := by
  rw [CutsBreak, List.head?_drop, Array.getElem?_toList]
  cases offset with
  | zero => simp
  | succ i =>
    constructor
    · rintro ⟨hreturn, hfeed⟩
      refine ⟨i, rfl, ?_, hfeed⟩
      have hlt := (Array.getElem?_eq_some_iff.1 hfeed).1
      rwa [List.getLast?_eq_getElem?, List.length_take_of_le (by rw [Array.length_toList]; omega),
        Nat.add_sub_cancel, List.getElem?_take_of_lt (Nat.lt_succ_self i), Array.getElem?_toList] at hreturn
    · rintro ⟨_, ⟨⟩, hreturn, hfeed⟩
      refine ⟨?_, hfeed⟩
      have hlt := (Array.getElem?_eq_some_iff.1 hfeed).1
      rwa [List.getLast?_eq_getElem?, List.length_take_of_le (by rw [Array.length_toList]; omega),
        Nat.add_sub_cancel, List.getElem?_take_of_lt (Nat.lt_succ_self i), Array.getElem?_toList]

theorem not_cutsBreak_of_next {offset : Nat} (h : t.chars[offset]? ≠ some '\n') : ¬ t.CutsBreak offset := by
  rw [cutsBreak_iff]
  rintro ⟨i, rfl, -, hfeed⟩
  exact h hfeed

theorem not_cutsBreak_of_last {offset : Nat} (h : t.chars[offset - 1]? ≠ some '\r') : ¬ t.CutsBreak offset := by
  rw [cutsBreak_iff]
  rintro ⟨i, rfl, hreturn, -⟩
  exact h hreturn

theorem not_cutsBreak_size : ¬ t.CutsBreak t.size :=
  not_cutsBreak_of_next (by rw [size, Array.getElem?_eq_none (Nat.le_refl _)]; nofun)

end Source

/-- A line begins at the start of the text or after a line feed. -/
theorem char_of_mem_startsAfterBreaks {p : Nat} : ∀ {i : Nat}, p ∈ startsAfterBreaks i cs →
    ∃ k, p = i + k + 1 ∧ cs[k]? = some '\n' := by
  induction cs with
  | nil => exact fun h => nomatch h
  | cons c cs ih =>
    intro i h
    have hlater (h : p ∈ startsAfterBreaks (i + 1) cs) : ∃ k, p = i + k + 1 ∧ (c :: cs)[k]? = some '\n' := by
      obtain ⟨k, rfl, hk⟩ := ih h
      exact ⟨k + 1, by omega, hk⟩
    unfold startsAfterBreaks at h
    split at h
    · rcases List.mem_cons.1 h with rfl | h
      · exact ⟨0, rfl, congrArg some ‹_›⟩
      · exact hlater h
    · exact hlater h

namespace Source

theorem char_of_lineStart {p : Nat} (h : p ∈ t.lineStarts) : p = 0 ∨ 0 < p ∧ t.chars[p - 1]? = some '\n' := by
  rw [t.lineStarts_eq, List.mem_toArray, List.mem_cons] at h
  refine h.imp_right fun h => ?_
  obtain ⟨k, rfl, hk⟩ := char_of_mem_startsAfterBreaks h
  rw [Array.getElem?_toList] at hk
  refine ⟨Nat.succ_pos _, ?_⟩
  rwa [Nat.zero_add, Nat.add_sub_cancel]

/-- A line feed stands before each line but the first. -/
theorem char_before_lineStart {line : Nat} (h : 1 < line) (hcount : line ≤ t.lineCount) :
    t.chars[t.lineStart line - 1]? = some '\n' := by
  have hmem : t.lineStart line ∈ t.lineStarts := by
    have hlt : line - 1 < t.lineStarts.size := Nat.lt_of_lt_of_le (by omega) hcount
    rw [lineStart, lineStart?, Array.getElem?_eq_getElem hlt]
    exact Array.getElem_mem hlt
  rcases char_of_lineStart hmem with hzero | ⟨-, hchar⟩
  · have := t.lineStart_lt Nat.one_pos h hcount
    omega
  · exact hchar

theorem not_cutsBreak_getD (t : Source) (i : Nat) : ¬ t.CutsBreak ((t.lineStarts[i]?).getD t.size) := by
  cases h : t.lineStarts[i]? with
  | none => exact not_cutsBreak_size
  | some p =>
    rcases char_of_lineStart (Array.mem_of_getElem? h) with rfl | ⟨-, hfeed⟩
    · rw [cutsBreak_iff]
      rintro ⟨_, ⟨⟩, -⟩
    · exact not_cutsBreak_of_last (by rw [Option.getD_some, hfeed]; decide)

/-- **Lines begin outside of breaks.** -/
theorem not_cutsBreak_lineStart (t : Source) (line : Nat) : ¬ t.CutsBreak (t.lineStart line) :=
  t.not_cutsBreak_getD _

/-- **Lines end outside of breaks**, with their break or without it. -/
theorem not_cutsBreak_lineEndWithBreak (t : Source) (line : Nat) : ¬ t.CutsBreak (t.lineEndWithBreak line) :=
  t.not_cutsBreak_getD _

theorem not_cutsBreak_lineEnd (t : Source) (line : Nat) : ¬ t.CutsBreak (t.lineEnd line) := by
  unfold lineEnd
  split
  · split
    · rename_i hreturn
      exact not_cutsBreak_of_next (by rw [hreturn.2]; decide)
    · rename_i next _ hreturn
      rw [cutsBreak_iff]
      rintro ⟨i, hi, hchar, -⟩
      refine hreturn ⟨by omega, ?_⟩
      rwa [show next - 2 = i by omega]
  · exact not_cutsBreak_size

/-! ### Parts of a text -/

theorem take_append_slice {start stop : Nat} (h : start ≤ stop) :
    t.chars.toList.take start ++ (t.sliceChars start stop ++ t.chars.toList.drop stop) = t.chars.toList := by
  rw [sliceChars_append_drop h, List.take_append_drop]

theorem sliceChars_of_le {start stop : Nat} (h : stop ≤ start) : t.sliceChars start stop = [] := by
  rw [sliceChars, Array.extract_empty_of_stop_le_start h]

theorem mem_of_mem_sliceChars {start stop : Nat} {c : Char} (h : c ∈ t.sliceChars start stop) :
    c ∈ t.chars.toList := by
  rw [sliceChars, Array.toList_extract] at h
  exact (List.drop_subset _ _ (List.take_subset _ _ h))

theorem feedsPaired_slice {start : Nat} (h : feedsPaired t.chars.toList = true) (hstart : ¬ t.CutsBreak start)
    (stop : Nat) : feedsPaired (t.sliceChars start stop) = true := by
  rcases Nat.le_total start stop with hle | hle
  · rw [← take_append_slice hle] at h
    refine feedsPaired_left (feedsPaired_right h ?_)
    rwa [sliceChars_append_drop hle]
  · rw [sliceChars_of_le hle]
    rfl

theorem returnsPaired_slice {stop : Nat} (h : returnsPaired t.chars.toList = true) (hstop : ¬ t.CutsBreak stop)
    (start : Nat) : returnsPaired (t.sliceChars start stop) = true := by
  rcases Nat.le_total start stop with hle | hle
  · have hfront : t.chars.toList.take start ++ t.sliceChars start stop = t.chars.toList.take stop := by
      rw [sliceChars, Array.toList_extract, Edit.take_append_extract hle]
    refine @returnsPaired_right (t.chars.toList.take start) _ ?_
    rw [hfront]
    exact returnsPaired_left (by rwa [List.take_append_drop]) hstop
  · rw [sliceChars_of_le hle]
    rfl

/-! ### The break of a text -/

theorem return_before {i : Nat} (h : feedsPaired t.chars.toList = true) (hfeed : t.chars[i]? = some '\n') :
    ∃ j, i = j + 1 ∧ t.chars[j]? = some '\r' := by
  obtain ⟨hlt, hchar⟩ := Array.getElem?_eq_some_iff.1 hfeed
  have hlast := feedsPaired_iff.1 h (t.chars.toList.take i) (t.chars.toList.drop (i + 1)) (by
    rw [← hchar, ← Array.getElem_toList, ← List.drop_eq_getElem_cons, List.take_append_drop])
  cases i with
  | zero => cases hlast
  | succ j =>
    refine ⟨j, rfl, ?_⟩
    rwa [List.getLast?_eq_getElem?, List.length_take_of_le (by rw [Array.length_toList]; omega),
      Nat.add_sub_cancel, List.getElem?_take_of_lt (Nat.lt_succ_self j), Array.getElem?_toList] at hlast

theorem startsAfterBreaks_ne_nil (h : '\n' ∈ cs) : ∀ i, startsAfterBreaks i cs ≠ [] := by
  induction cs with
  | nil => cases h
  | cons c cs ih =>
    intro i
    unfold startsAfterBreaks
    split
    · exact List.cons_ne_nil _ _
    · rename_i hc
      exact ih ((List.mem_cons.1 h).resolve_left fun heq => hc heq.symm) _

/-- **A text whose lines end in a carriage return and a line feed repeats that break.** -/
theorem newline_of_endsWithReturns (h : endsWithReturns t = true) : t.newline = "\r\n" := by
  obtain ⟨hmem, hfeeds⟩ := endsWithReturns_iff.1 h
  obtain ⟨next, rest, hstarts⟩ := List.exists_cons_of_ne_nil (startsAfterBreaks_ne_nil hmem 0)
  have hsecond : t.lineStarts[1]? = some next := by
    rw [t.lineStarts_eq, hstarts]
    rfl
  obtain ⟨k, rfl, hfeed⟩ := char_of_mem_startsAfterBreaks (hstarts ▸ List.mem_cons_self : next ∈ _)
  rw [Nat.zero_add] at hsecond
  rw [Array.getElem?_toList] at hfeed
  obtain ⟨j, rfl, hreturn⟩ := return_before hfeeds hfeed
  have hpair : 1 < j + 1 + 1 ∧ t.chars[j + 1 + 1 - 2]? = some '\r' := ⟨by omega, hreturn⟩
  simp only [newline, hsecond, if_pos hpair]

theorem newline_of_not_mem (h : '\r' ∉ t.chars.toList) : t.newline = "\n" := by
  unfold newline
  split
  · rw [if_neg]
    rintro ⟨-, hreturn⟩
    exact h (Array.mem_toList_iff.2 (Array.mem_of_getElem? hreturn))
  · rfl

/-! ### Lines -/

theorem feedsPaired_lineText (h : feedsPaired t.chars.toList = true) (line : Nat) :
    feedsPaired (t.lineText line).toList = true := by
  rw [lineText, slice, String.toList_ofList]
  exact feedsPaired_slice h (t.not_cutsBreak_lineStart line) _

theorem returnsPaired_lineText (h : returnsPaired t.chars.toList = true) (line : Nat) :
    returnsPaired (t.lineText line).toList = true := by
  rw [lineText, slice, String.toList_ofList]
  exact returnsPaired_slice h (t.not_cutsBreak_lineEnd line) _

theorem mem_of_mem_lineText {line : Nat} {c : Char} (h : c ∈ (t.lineText line).toList) : c ∈ t.chars.toList := by
  rw [lineText, slice, String.toList_ofList] at h
  exact mem_of_mem_sliceChars h

end Source

/-! ### Edits that keep line breaks whole -/

namespace Edit

variable {edits : List Edit}

/-- An edit after which line feeds stand after carriage returns if they did before. -/
structure KeepsFeeds (t : Source) (e : Edit) : Prop where
  text : feedsPaired e.replacement.toList = true
  stop : ¬ t.CutsBreak e.span.stop
  /-- Where line feeds are taken away, some are put in their place. -/
  feed : '\n' ∈ t.sliceChars e.span.start e.span.stop → '\n' ∈ e.replacement.toList

/-- An edit after which carriage returns stand before line feeds if they did before. -/
structure KeepsReturns (t : Source) (e : Edit) : Prop where
  text : returnsPaired e.replacement.toList = true
  start : ¬ t.CutsBreak e.span.start

theorem replacedFrom_cons (start : Nat) (e : Edit) (rest : List Edit) :
    replacedFrom t.chars.toList start (e :: rest) = t.sliceChars start e.span.start ++ e.replacement.toList ++
      replacedFrom t.chars.toList e.span.stop rest := by
  rw [replacedFrom, Source.sliceChars, Array.toList_extract]

theorem replacedFrom_feedsPaired (h : feedsPaired t.chars.toList = true) :
    ∀ {start : Nat}, ¬ t.CutsBreak start → (∀ e ∈ edits, e.KeepsFeeds t) →
      feedsPaired (replacedFrom t.chars.toList start edits) = true := by
  induction edits with
  | nil =>
    intro start hstart _
    rw [replacedFrom]
    exact feedsPaired_right (by rwa [List.take_append_drop]) hstart
  | cons e rest ih =>
    intro start hstart hkeeps
    obtain ⟨htext, hstop, -⟩ := hkeeps e List.mem_cons_self
    rw [replacedFrom_cons]
    exact feedsPaired_append (feedsPaired_append (Source.feedsPaired_slice h hstart _) htext)
      (ih hstop fun x hx => hkeeps x (List.mem_cons_of_mem _ hx))

theorem replacedFrom_returnsPaired (h : returnsPaired t.chars.toList = true) :
    ∀ {start : Nat}, (∀ e ∈ edits, e.KeepsReturns t) →
      returnsPaired (replacedFrom t.chars.toList start edits) = true := by
  induction edits with
  | nil =>
    intro start _
    rw [replacedFrom]
    exact @returnsPaired_right (t.chars.toList.take start) _ (by rwa [List.take_append_drop])
  | cons e rest ih =>
    intro start hkeeps
    obtain ⟨htext, hstart⟩ := hkeeps e List.mem_cons_self
    rw [replacedFrom_cons]
    exact returnsPaired_append (returnsPaired_append (Source.returnsPaired_slice h hstart _) htext)
      (ih fun x hx => hkeeps x (List.mem_cons_of_mem _ hx))

/-- Some line feed is left. -/
theorem feed_mem_replacedFrom (hb : edits.Pairwise Before) (hkeeps : ∀ e ∈ edits, e.KeepsFeeds t) :
    ∀ {start : Nat}, (∀ e ∈ edits, start ≤ e.span.start) → '\n' ∈ t.chars.toList.drop start →
      '\n' ∈ replacedFrom t.chars.toList start edits := by
  induction edits with
  | nil => exact fun _ h => h
  | cons e rest ih =>
    intro start hstart h
    rw [← Source.sliceChars_append_drop (hstart e List.mem_cons_self),
      ← Source.sliceChars_append_drop e.span.start_le_stop, List.mem_append, List.mem_append] at h
    rw [replacedFrom_cons, List.mem_append, List.mem_append]
    rcases h with h | h | h
    · exact .inl (.inl h)
    · exact .inl (.inr ((hkeeps e List.mem_cons_self).feed h))
    · refine .inr (ih hb.of_cons (fun x hx => hkeeps x (List.mem_cons_of_mem _ hx)) (fun x hx => ?_) h)
      exact (List.rel_of_pairwise_cons hb hx).1

/-- The characters of a text that was edited are those of the text and of the replacements. -/
theorem mem_replacedFrom {c : Char} : ∀ {start : Nat}, c ∈ replacedFrom t.chars.toList start edits →
    c ∈ t.chars.toList ∨ ∃ e ∈ edits, c ∈ e.replacement.toList := by
  induction edits with
  | nil => exact fun h => .inl (List.drop_subset _ _ h)
  | cons e rest ih =>
    intro start h
    rw [replacedFrom_cons, List.mem_append, List.mem_append] at h
    rcases h with (h | h) | h
    · exact .inl (Source.mem_of_mem_sliceChars h)
    · exact .inr ⟨e, List.mem_cons_self, h⟩
    · exact (ih h).imp_right fun ⟨x, hx, hc⟩ => ⟨x, List.mem_cons_of_mem _ hx, hc⟩

section Applied

variable (hapart : edits.Pairwise Apart) (hin : ∀ e ∈ edits, e.span.stop ≤ t.size)
  (hcs : applyAll t.chars.toList edits = .ok cs)

include hapart hin hcs

theorem eq_replacedFrom : cs = replacedFrom t.chars.toList 0 (sorted edits) :=
  Except.ok.inj (hcs.symm.trans (applyAll_replaced hapart hin))

/-- **Line feeds still stand after carriage returns**, and there still are some. -/
theorem endsWithReturns_applyAll (h : endsWithReturns t = true) (hkeeps : ∀ e ∈ edits, e.KeepsFeeds t) :
    endsWithReturns (.ofChars cs.toArray) = true := by
  obtain ⟨hmem, hfeeds⟩ := endsWithReturns_iff.1 h
  have hsorted : ∀ e ∈ sorted edits, e.KeepsFeeds t := fun e he => hkeeps e ((sorted_perm edits).mem_iff.1 he)
  have hzero : ¬ t.CutsBreak 0 := by
    rintro ⟨hnone, -⟩
    cases hnone
  obtain rfl := eq_replacedFrom hapart hin hcs
  refine endsWithReturns_iff.2 ⟨?_, replacedFrom_feedsPaired hfeeds hzero hsorted⟩
  exact feed_mem_replacedFrom (sorted_before hapart) hsorted (fun _ _ => Nat.zero_le _) hmem

/-- **Carriage returns still stand before line feeds.** -/
theorem returnsPaired_applyAll (h : returnsPaired t.chars.toList = true) (hkeeps : ∀ e ∈ edits, e.KeepsReturns t) :
    returnsPaired cs = true := by
  obtain rfl := eq_replacedFrom hapart hin hcs
  exact replacedFrom_returnsPaired h fun e he => hkeeps e ((sorted_perm edits).mem_iff.1 he)

/-- **There still is no carriage return.** -/
theorem not_mem_applyAll {c : Char} (h : c ∉ t.chars.toList) (hedits : ∀ e ∈ edits, c ∉ e.replacement.toList) :
    c ∉ cs := by
  obtain rfl := eq_replacedFrom hapart hin hcs
  intro hc
  rcases mem_replacedFrom hc with hc | ⟨e, he, hc⟩
  · exact h hc
  · exact hedits e ((sorted_perm edits).mem_iff.1 he) hc

end Applied

end Edit

end HouseStyle
