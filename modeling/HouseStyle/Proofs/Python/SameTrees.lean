import HouseStyle.Proofs.Python.MirroredStatements
import HouseStyle.Proofs.Python.MirroredText
import HouseStyle.Proofs.Python.Trees
import HouseStyle.Proofs.Tree.Sketch

/-!
# Trees of texts that are cut alike

Tokens at the same places are read as the same statements, so a text with other quotes around its literals has the
same tree but for these quotes. Where the grammar and the text count alike, no node is moved afterwards.

* `literals`: what the literals of a tree are told by; `literal?_of_kept`: other quotes do not change that.
* `kind_of_mirrors`, `literals_of_mirrors`: what trees that mirror each other share.
* `parse_eq_ok_iff`: the tree of a module, seen from its tokens; `exists_literalToken`: its literals are tokens.
* `parse_of_kept`: **a text with other quotes has the same tree.**
-/

namespace HouseStyle

namespace Python

open Recognizer

/-! ### Literals -/

/-- What a literal is told by: its letters, in lower case, and what stands between its quotes. -/
def Form.literal? : Form → Option (String × List Char)
  | .simpleString value marker quote =>
    let quoted := value.toList.drop (marker.length + quote.length)
    some (marker, quoted.take (quoted.length - quote.length))
  | _ => none

/-- What a node is told by if it is a literal. -/
def literalOf? (n : Node) : Option (String × List Char) :=
  match n.label with
  | .python form => form.literal?
  | _ => none

/-- The literals of a tree in document order. -/
def literals (tree : Node) : List (String × List Char) :=
  tree.walk.filterMap literalOf?

/-- A quote opens a literal by itself unless two more follow. -/
theorem openingQuote_eq_iff {q : Char} {rest : List Char} : openingQuote (q :: rest) = [q] ↔ rest.take 2 ≠ [q, q] := by
  rw [openingQuote]
  match rest with
  | [] => simp
  | [x] =>
    by_cases hx : x = q <;> simp [hx]
  | x :: y :: rest =>
    by_cases hx : x = q
    · by_cases hy : y = q <;> simp [hx, hy]
    · simp [hx]

/-- The letters of a literal end at its first quote. -/
theorem stringMarker_eq {front rest : List Char} {q : Char} (hfront : ∀ c ∈ front, isDelimiter c = false)
    (hq : isDelimiter q = true) : stringMarker (front ++ q :: rest) = front.map Char.toLower := by
  have hnot (c : Char) : (c != '"' && c != '\'') = !isDelimiter c := (Bool.not_or _ _).symm
  have hletters : ∀ c ∈ front, (c != '"' && c != '\'') = true := fun c hc => by
    rw [hnot, hfront c hc]
    rfl
  rw [stringMarker, List.takeWhile_append_of_pos hletters, List.takeWhile_cons_of_neg (by rw [hnot, hq]; decide),
    List.append_nil]

/-- The letters before the quote of a literal, and what stands between its quotes. -/
theorem literal?_spelling {front rest : List Char} {q : Char} (hfront : ∀ c ∈ front, isDelimiter c = false)
    (hq : isDelimiter q = true) (hrest : rest.take 2 ≠ [q, q]) :
    (literalForm (String.ofList (front ++ q :: rest))).literal? =
      some (String.ofList (front.map Char.toLower), rest.take (rest.length - 1)) := by
  have hdrop : (front ++ q :: rest).drop (front.map Char.toLower).length = q :: rest := by
    rw [List.length_map, List.drop_left]
  have hlength : (String.ofList (front.map Char.toLower)).length + (String.ofList [q]).length = front.length + 1 := by
    rw [String.length_ofList, String.length_ofList, List.length_map, List.length_singleton]
  rw [literalForm]
  simp only [String.toList_ofList, stringMarker_eq hfront hq, hdrop, openingQuote_eq_iff.2 hrest, Form.literal?, hlength]
  rw [← List.drop_drop, List.drop_left, List.drop_one, List.tail_cons, String.length_ofList, List.length_singleton]

section

variable {src src' : Array Char} {t : Token}

/-- A stretch is cut at one of its characters. -/
theorem extract_split {a k b : Nat} {q : Char} (ha : a ≤ k) (hk : k < b) (hq : src[k]? = some q) :
    (src.extract a b).toList = (src.extract a k).toList ++ q :: (src.extract (k + 1) b).toList := by
  obtain ⟨hlt, hget⟩ := Array.getElem?_eq_some_iff.1 hq
  have hcut : src.toList.drop k = q :: src.toList.drop (k + 1) := by
    rw [List.drop_eq_getElem_cons (by simpa using hlt), Array.getElem_toList, hget]
  simp only [Array.toList_extract, List.extract_eq_take_drop]
  rw [show b - a = (k - a) + (b - (k + 1) + 1) by omega, List.take_add, List.drop_drop, Nat.add_sub_cancel' ha, hcut,
    List.take_succ_cons]

/-- What is between two offsets, character by character. -/
theorem getElem?_extract_toList {a b i : Nat} (hi : a + i < b) : (src.extract a b).toList[i]? = src[a + i]? := by
  rw [Array.getElem?_toList, Array.getElem?_extract]
  split
  · rfl
  · rw [Array.getElem?_eq_none (by omega)]

/-- Letters in front of a quote are no quotes. -/
theorem letters_of_extract {a k : Nat} (hletters : ∀ i, a ≤ i → i < k → (src[i]?).any isDelimiter = false) :
    ∀ c ∈ (src.extract a k).toList, isDelimiter c = false := by
  intro c hc
  obtain ⟨i, hi⟩ := List.mem_iff_getElem?.1 hc
  rw [Array.getElem?_toList, Array.getElem?_extract] at hi
  split at hi
  · have := hletters (a + i) (by omega) (by omega)
    rwa [hi, Option.any_some] at this
  · cases hi

/-- A stretch that begins with two quotes. -/
theorem quotes_of_extract {a b : Nat} {q : Char} (h : (src.extract a b).toList.take 2 = [q, q]) :
    a + 1 < b ∧ src[a]? = some q ∧ src[a + 1]? = some q := by
  have hget (i : Nat) (hi : i < 2) : (src.extract a b).toList[i]? = some q := by
    rw [← List.getElem?_take_of_lt hi, h]
    match i, hi with
    | 0, _ => rfl
    | 1, _ => rfl
  have hlt : a + 1 < b := by
    have hlength := (List.getElem?_eq_some_iff.1 (hget 1 (by decide))).1
    rw [Array.length_toList, Array.size_extract] at hlength
    omega
  have hfirst := hget 0 (by decide)
  have hsecond := hget 1 (by decide)
  rw [getElem?_extract_toList (by omega)] at hfirst hsecond
  exact ⟨hlt, hfirst, hsecond⟩

/-- Small letters stay. -/
theorem toLower_toLower (c : Char) : c.toLower.toLower = c.toLower := by
  rcases Nat.lt_or_ge c.toNat 128 with hsmall | hlarge
  · have htable : ((List.range 128).all fun n => (Char.ofNat n).toLower.toLower == (Char.ofNat n).toLower) = true := by
      decide +kernel
    have hc := List.all_eq_true.1 htable c.toNat (List.mem_range.2 hsmall)
    rw [Char.ofNat_toNat] at hc
    exact beq_iff_eq.1 hc
  · rw [toLower_of_large hlarge, toLower_of_large hlarge]

/-- Characters that are no quotes are the same letter. -/
theorem Kin.toLower_eq {c c' : Char} (h : Kin c c') (hc : isDelimiter c = false) : c'.toLower = c.toLower := by
  cases h with
  | same => rfl
  | lower => exact toLower_toLower c
  | quote hquote => exact absurd hquote (by rw [hc]; decide)

/-- **A literal that is kept is told by what it was told by.** -/
theorem literal?_of_kept (h : Respells src src') (hkept : t.Kept src src') (hstop : t.stop ≤ src.size) :
    (literalForm (Cursor.text src' t.start t.stop)).literal? = (literalForm (Cursor.text src t.start t.stop)).literal? := by
  cases hkept with
  | same hsame => rw [Cursor.text, Cursor.text, h.extract_eq hsame]
  | @reclosed k q p _ hclosed =>
    have hlt := hclosed.lt
    have hletters := hclosed.letters
    have hletters' (i : Nat) (hi : t.start ≤ i) (hi' : i < k) : (src'[i]?).any isDelimiter = false := by
      rw [h.isDelimiter_iff, hletters i hi hi']
    have hp : isDelimiter p = true := by
      have := h.isDelimiter_iff k
      rwa [hclosed.opens, hclosed.opened, Option.any_some, Option.any_some, hclosed.isQuote] at this
    -- neither quote is one of three
    have hone : (src.extract (k + 1) t.stop).toList.take 2 ≠ [q, q] := by
      intro hthree
      obtain ⟨-, hsecond, hthird⟩ := quotes_of_extract hthree
      have hsingle := hclosed.single
      simp [tripleQuoteAt, hclosed.opened, hsecond, hthird] at hsingle
    have hone' : (src'.extract (k + 1) t.stop).toList.take 2 ≠ [p, p] := by
      intro hthree
      obtain ⟨hin, hsecond, -⟩ := quotes_of_extract hthree
      exact (hclosed.body (k + 1) (Nat.lt_succ_self k) hin).2 hsecond
    have hfront : (src'.extract t.start k).toList.map Char.toLower = (src.extract t.start k).toList.map Char.toLower := by
      refine List.ext_getElem? fun i => ?_
      rw [List.getElem?_map, List.getElem?_map, Array.getElem?_toList, Array.getElem?_toList, Array.getElem?_extract,
        Array.getElem?_extract, h.size]
      split
      · have hin : t.start + i < src.size := by omega
        obtain ⟨c', hc', hkin⟩ := h.exists_char (Array.getElem?_eq_getElem hin)
        have hletter := hletters (t.start + i) (by omega) (by omega)
        rw [Array.getElem?_eq_getElem hin, Option.any_some] at hletter
        rw [hc', Array.getElem?_eq_getElem hin, Option.map_some, Option.map_some, hkin.toLower_eq hletter]
      · rfl
    have hbody : (src'.extract (k + 1) t.stop).toList.take ((src'.extract (k + 1) t.stop).toList.length - 1) =
        (src.extract (k + 1) t.stop).toList.take ((src.extract (k + 1) t.stop).toList.length - 1) := by
      have hlength : (src'.extract (k + 1) t.stop).toList.length = (src.extract (k + 1) t.stop).toList.length := by
        rw [Array.length_toList, Array.length_toList, Array.size_extract, Array.size_extract, h.size]
      refine List.ext_getElem? fun i => ?_
      rw [hlength]
      by_cases hi : k + 1 + i + 1 < t.stop
      · have hlast : i < (src.extract (k + 1) t.stop).toList.length - 1 := by
          rw [Array.length_toList, Array.size_extract]
          omega
        rw [List.getElem?_take_of_lt hlast, List.getElem?_take_of_lt hlast, getElem?_extract_toList (by omega),
          getElem?_extract_toList (by omega)]
        exact (hclosed.body _ (by omega) hi).1
      · have hlast : ¬ i < (src.extract (k + 1) t.stop).toList.length - 1 := by
          rw [Array.length_toList, Array.size_extract]
          omega
        rw [List.getElem?_take, List.getElem?_take, if_neg hlast, if_neg hlast]
    rw [Cursor.text, Cursor.text, extract_split hclosed.le (by omega) hclosed.opened,
      extract_split hclosed.le (by omega) hclosed.opens,
      literal?_spelling (letters_of_extract hletters) hclosed.isQuote hone,
      literal?_spelling (letters_of_extract hletters') hp hone', hfront, hbody]

end


/-! ### Trees that mirror each other -/

section

variable {D : Drift} {n n' : Node} {ns ns' : List Node}

mutual

/-- The nodes of trees that mirror each other do so one by one. -/
theorem walk_of_mirrors : ∀ {n n' : Node}, Node.Mirrors D n n' → List.Forall₂ (Node.Mirrors D) n.walk n'.walk
  | _, _, .node form start stop children => by
    rw [Node.walk, Node.walk]
    exact .cons (.node form start stop children) (walkList_of_mirrors children)

theorem walkList_of_mirrors : ∀ {ns ns' : List Node}, List.Forall₂ (Node.Mirrors D) ns ns' →
    List.Forall₂ (Node.Mirrors D) (Node.walkList ns) (Node.walkList ns')
  | _, _, .nil => .nil
  | _, _, .cons h hrest => List.rel_append (walk_of_mirrors h) (walkList_of_mirrors hrest)

end

mutual

theorem height_of_mirrors : ∀ {n n' : Node}, Node.Mirrors D n n' → n'.height = n.height
  | _, _, .node _ _ _ children => by rw [Node.height, Node.height, heightList_of_mirrors children]

theorem heightList_of_mirrors : ∀ {ns ns' : List Node}, List.Forall₂ (Node.Mirrors D) ns ns' →
    Node.heightList ns' = Node.heightList ns
  | _, _, .nil => rfl
  | _, _, .cons h hrest => by
    rw [Node.heightList, Node.heightList, height_of_mirrors h, heightList_of_mirrors hrest]

end

theorem kind_of_mirrors (h : Node.Mirrors D n n') : n'.kind = n.kind := by
  cases h with
  | node form => cases form <;> rfl

/-- Another spelling of a literal tells it as well. -/
def TellsLiterals (D : Drift) : Prop :=
  ∀ offset s s', D.respelled offset s s' → (literalForm s').literal? = (literalForm s).literal?

theorem literalOf?_of_mirrors (hD : TellsLiterals D) (h : Node.Mirrors D n n') : literalOf? n' = literalOf? n := by
  cases h with
  | node form =>
    cases form with
    | same => rfl
    | literal hs => exact hD _ _ _ hs

/-- Things that correspond one by one have the same values. -/
theorem map_of_mirrors {β : Type} {f : Node → β} (hf : ∀ n n', Node.Mirrors D n n' → f n' = f n)
    (h : List.Forall₂ (Node.Mirrors D) ns ns') : ns'.map f = ns.map f := by
  induction h with
  | nil => rfl
  | cons h _ ih => rw [List.map_cons, List.map_cons, hf _ _ h, ih]

theorem literals_of_mirrors (hD : TellsLiterals D) (h : List.Forall₂ (Node.Mirrors D) ns ns') :
    ns'.filterMap literalOf? = ns.filterMap literalOf? := by
  induction h with
  | nil => rfl
  | cons h _ ih => rw [List.filterMap_cons, List.filterMap_cons, literalOf?_of_mirrors hD h, ih]

end

/-! ### Texts that are counted as they are -/

section

variable {found : Nat → Option Nat} {stop : Nat}

mutual

/-- Nodes whose ends stay are not moved. -/
theorem relocate_eq (h : ∀ i ≤ stop, found i = some i) (n : Node) (hn : ∀ m ∈ n.walk, m.span.stop ≤ stop) :
    relocate found n = some n := by
  cases n with
  | mk label span children =>
    rw [Node.walk, List.forall_mem_cons] at hn
    have hspan : Span.between span.start span.stop = span := Span.ext rfl (Nat.max_eq_right span.start_le_stop)
    rw [relocate, h _ (Nat.le_trans span.start_le_stop hn.1), h _ hn.1, relocateList_eq h children hn.2]
    dsimp only
    rw [hspan]

theorem relocateList_eq (h : ∀ i ≤ stop, found i = some i) (ns : List Node)
    (hns : ∀ m ∈ Node.walkList ns, m.span.stop ≤ stop) : relocateList found ns = some ns := by
  cases ns with
  | nil => rfl
  | cons n rest =>
    rw [Node.walkList, List.forall_mem_append] at hns
    rw [relocateList, relocate_eq h n hns.1, relocateList_eq h rest hns.2]

end

variable {t t' : Source} {tokens : Array Token} {statements : List Node} {next : Nat} {hle : 0 ≤ next} {tree : Node}

/-- The tree of a module with some statements. -/
def moduleOf (t : Source) (statements : List Node) : Node :=
  { label := .python (.plain .moduleFile), span := { start := 0, stop := t.size, start_le_stop := Nat.zero_le _ },
    children := statements }

/-- **A module is what its tokens are read as**, if the grammar and the text count alike. -/
theorem parse_eq_ok_iff (halike : countsAlike t = true) : parse t = .ok tree ↔
    ∃ tokens statements next, ∃ hle : 0 ≤ next, tokenize t.chars = some tokens ∧
      moduleStatements tokens 0 = .found statements next hle ∧ Node.heightList statements ≤ nestingLimit ∧
      tree = moduleOf t statements := by
  have hcode : (if t.chars.toList.head? = some byteOrderMark then t.chars.toList.tail else t.chars.toList) =
      t.chars.toList := counted_of_alike halike
  have hpaired : returnsPaired t.chars.toList = true := (Bool.and_eq_true_iff.1 halike).2
  have hplace (i : Nat) (hi : i ≤ t.size) : placeOf t (lineColumns 0 0 t.chars.toList).toArray i = some i := by
    have := placeOf_eq hpaired i
    rw [counted_of_alike halike, if_pos (by simpa [Source.size] using hi), placed_of_alike halike] at this
    exact this
  unfold parse
  dsimp only
  rw [hcode, Array.toArray_toList]
  cases htokens : tokenize t.chars with
  | none =>
    constructor
    · intro htree
      cases htree
    · rintro ⟨_, _, _, _, hsome, -⟩
      cases hsome
  | some tokens =>
    dsimp only
    cases hfound : moduleStatements tokens 0 with
    | absent | tooDeep =>
      constructor
      · intro htree
        cases htree
      · rintro ⟨_, _, _, _, hsome, hread, -⟩
        cases hsome
        cases hfound.symm.trans hread
    | found statements next hle =>
      have hstays := relocateList_eq hplace statements fun m hm => (moduleStatements_spelled htokens hfound m hm).inside
      dsimp only
      rw [hstays]
      constructor
      · intro htree
        split at htree
        · cases htree
        · cases htree
          exact ⟨tokens, statements, next, hle, rfl, hfound, by omega, rfl⟩
      · rintro ⟨tokens', statements', next', hle', hsome, hread, hheight, rfl⟩
        cases hsome
        cases hfound.symm.trans hread
        rw [if_neg (by omega)]
        rfl

/-- **A literal of a module is a token** of its text. -/
theorem exists_literalToken (htokens : tokenize t.chars = some tokens)
    (hfound : moduleStatements tokens 0 = .found statements next hle) {n : Node} (hn : n ∈ Node.walkList statements)
    {value marker quote : String} (hlabel : n.label = .python (.simpleString value marker quote)) :
    ∃ x ∈ tokens, x.kind = .string ∧ x.text = value ∧ x.start = n.span.start ∧ x.stop = n.span.stop := by
  -- the row of tokens mirrors itself, and a literal is made of one of its tokens only
  let M : Mirror :=
    { lost := 0
      gained := 0
      respelled := fun offset s s' => s' = s ∧ ∃ x ∈ tokens, x.kind = .string ∧ x.start = offset ∧ x.text = s
      marker := fun h => by rw [h.1]
      before := tokens
      after := tokens
      first := 0
      token := fun i _ => by
        cases hx : tokens[i]? with
        | none => exact .none
        | some x => exact .some ⟨rfl, rfl, rfl, fun _ => rfl, fun hkind => ⟨rfl, x, Array.mem_of_getElem? hx, hkind, rfl, rfl⟩⟩
      behind := fun _ _ => rfl }
  have hanswers := moduleStatements_tracks (M := M) 0 (Nat.le_refl 0)
  unfold TracksAt at hanswers
  change M.Answers (moduleStatements tokens 0) (moduleStatements tokens 0) at hanswers
  rw [hfound] at hanswers
  cases hanswers with
  | found hmirrored =>
    obtain ⟨i, hi, rfl⟩ := List.getElem_of_mem hn
    have hmirrors : Node.Mirrors M.toDrift (Node.walkList statements)[i] (Node.walkList statements)[i] :=
      (List.forall₂_iff_get.1 (walkList_of_mirrors hmirrored)).2 i hi hi
    have hspelled := moduleStatements_spelled htokens hfound _ (List.getElem_mem hi)
    generalize (Node.walkList statements)[i] = n at hmirrors hspelled hlabel
    obtain ⟨x, hx, hkind, htext, hstart⟩ : ∃ x ∈ tokens, x.kind = .string ∧ x.text = value ∧ x.start = n.span.start := by
      cases hmirrors with
      | node form =>
        cases hlabel
        cases form with
        | same hother => cases hother
        | literal hs =>
          obtain ⟨-, x, hx, hkind, hstart, htext⟩ := hs
          exact ⟨x, hx, hkind, htext, hstart⟩
    -- both are as long as the spelling
    have hstands := tokenize_stands htokens x hx
    have hlength := congrArg (fun s => s.toList.length) ((hspelled.text _ hlabel value rfl).trans (htext.symm.trans hstands.text))
    have hinside := hspelled.inside
    have hinside' := hstands.inside
    have hordered := hstands.ordered
    have hordered' := n.span.start_le_stop
    simp only [Cursor.text, String.toList_ofList, Array.length_toList, Array.size_extract] at hlength
    exact ⟨x, hx, hkind, htext, hstart, by omega⟩

end

/-! ### Texts with other quotes -/

/-- Beyond ASCII only the character itself is taken for it. -/
theorem Kin.eq_iff_of_large {c c' x : Char} (h : Kin c c') (hx : 128 ≤ x.toNat) : c' = x ↔ c = x := by
  have hne {d : Char} (hd : d.toNat < 128) : d ≠ x := by
    rintro rfl
    omega
  have hquote {d : Char} (hd : isDelimiter d = true) : d.toNat < 128 := by
    rcases Bool.or_eq_true_iff.1 hd with hd | hd <;> rw [beq_iff_eq.1 hd] <;> decide
  cases h with
  | same => rfl
  | lower =>
    rcases Nat.lt_or_ge c.toNat 128 with hsmall | hlarge
    · have htable : ((List.range 128).all fun n => decide ((Char.ofNat n).toLower.toNat < 128)) = true := by
        decide +kernel
      have hlower := List.all_eq_true.1 htable c.toNat (List.mem_range.2 hsmall)
      rw [Char.ofNat_toNat, decide_eq_true_eq] at hlower
      exact ⟨fun heq => absurd heq (hne hlower), fun heq => absurd heq (hne hsmall)⟩
    · rw [toLower_of_large hlarge]
  | quote hc hc' => exact ⟨fun heq => absurd heq (hne (hquote hc')), fun heq => absurd heq (hne (hquote hc))⟩

section

variable {t t' : Source} {tokens : Array Token} {tree : Node}

/-- Each carriage return stands before a line feed. -/
theorem returnsPaired_iff_getElem? {cs : List Char} :
    returnsPaired cs = true ↔ ∀ i : Nat, cs[i]? = some '\r' → cs[i + 1]? = some '\n' := by
  rw [returnsPaired_iff]
  constructor
  · intro h i hi
    obtain ⟨hlt, hget⟩ := List.getElem?_eq_some_iff.1 hi
    have hcut : cs = cs.take i ++ '\r' :: cs.drop (i + 1) := by
      rw [← hget, ← List.drop_eq_getElem_cons hlt, List.take_append_drop]
    rw [← List.head?_drop]
    exact h _ _ hcut
  · rintro h front rest rfl
    have hnext := h front.length (by rw [List.getElem?_append_right (Nat.le_refl _), Nat.sub_self]; rfl)
    rw [List.getElem?_append_right (Nat.le_add_right _ 1), Nat.add_sub_cancel_left, List.getElem?_cons_succ] at hnext
    rw [List.head?_eq_getElem?]
    exact hnext

/-- Line breaks and a byte-order mark stand where they stood. -/
theorem countsAlike_of_respells (h : Respells t.chars t'.chars) (halike : countsAlike t = true) :
    countsAlike t' = true := by
  have hget (u : Source) (i : Nat) : u.chars.toList[i]? = u.chars[i]? := Array.getElem?_toList
  have hmark : t'.chars.toList.head? = some byteOrderMark ↔ t.chars.toList.head? = some byteOrderMark := by
    rw [List.head?_eq_getElem?, List.head?_eq_getElem?, hget, hget]
    have hkin := h.kin 0
    generalize t.chars[0]? = o at hkin ⊢
    generalize t'.chars[0]? = o' at hkin ⊢
    cases hkin with
    | none => rfl
    | some hkin => rw [Option.some.injEq, Option.some.injEq, hkin.eq_iff_of_large (by decide)]
  simp only [countsAlike, Bool.and_eq_true, bne_iff_ne, ne_eq, returnsPaired_iff_getElem?, hget,
    h.eq_some_iff (show isPlain '\r' = true from rfl), h.eq_some_iff (show isPlain '\n' = true from rfl), hmark] at halike ⊢
  exact halike

/-- **A text with other quotes around its literals has the same tree** but for these quotes, if the literals
can be told from their neighbours. -/
theorem parse_of_kept (halike : countsAlike t = true) (hapart : quotesApart t.chars = true)
    (h : Respells t.chars t'.chars) (htokens : tokenize t.chars = some tokens)
    (hkept : ∀ x ∈ tokens, x.Kept t.chars t'.chars) (htree : parse t = .ok tree) :
    ∃ tree', parse t' = .ok tree' ∧ tree'.walk.map Node.kind = tree.walk.map Node.kind ∧
      literals tree' = literals tree := by
  obtain ⟨tokens₀, statements, next, hle, htokens₀, hfound, hheight, rfl⟩ := (parse_eq_ok_iff halike).1 htree
  cases htokens.symm.trans htokens₀
  have hrun := h.tokenize_eq htokens hkept hapart
  have hstands := tokenize_stands htokens
  let M : Mirror :=
    { lost := 0
      gained := 0
      respelled := fun _ s s' => (literalForm s').literal? = (literalForm s).literal?
      marker := fun h => by simpa [literalForm, Form.literal?] using congrArg (Option.map fun p => p.1.toList) h
      before := tokens
      after := tokens.map (Token.inText t'.chars)
      first := 0
      token := fun i _ => by
        rw [Array.getElem?_map]
        cases hx : tokens[i]? with
        | none => exact .none
        | some x =>
          have hx' := Array.mem_of_getElem? hx
          refine .some ⟨rfl, rfl, rfl, fun hkind => ?_, fun hkind => ?_⟩
          · rw [(hstands x hx').text, Token.inText, tokenAt, Cursor.text, Cursor.text,
              h.extract_eq ((hkept x hx').unchanged hkind)]
          · rw [(hstands x hx').text]
            exact literal?_of_kept h (hkept x hx') (hstands x hx').inside
      behind := fun i _ => by
        cases i with
        | zero => rfl
        | succ i =>
          rw [stopBefore, stopBefore, Array.getElem?_map, Option.map_map]
          rfl }
  have hanswers := moduleStatements_tracks (M := M) 0 (Nat.le_refl 0)
  unfold TracksAt at hanswers
  change M.Answers (moduleStatements tokens 0) (moduleStatements (tokens.map (Token.inText t'.chars)) 0) at hanswers
  rw [hfound] at hanswers
  generalize hfound' : moduleStatements (tokens.map (Token.inText t'.chars)) 0 = o at hanswers
  cases hanswers with
  | @found _ statements' _ _ hmirrored =>
    have hwalk := walkList_of_mirrors hmirrored
    refine ⟨moduleOf t' statements', (parse_eq_ok_iff (countsAlike_of_respells h halike)).2
      ⟨_, statements', next, _, hrun.1, hfound', by rwa [heightList_of_mirrors hmirrored], rfl⟩, ?_, ?_⟩
    · rw [moduleOf, moduleOf, Node.walk, Node.walk, List.map_cons, List.map_cons, map_of_mirrors (fun _ _ => kind_of_mirrors) hwalk]
      rfl
    · rw [literals, literals, moduleOf, moduleOf, Node.walk, Node.walk, List.filterMap_cons, List.filterMap_cons,
        literals_of_mirrors (fun _ _ _ hs => hs) hwalk]
      rfl

end

end Python

end HouseStyle
