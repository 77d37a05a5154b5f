import HouseStyle.Glob.Match
import HouseStyle.Glob.Pattern
import HouseStyle.Proofs.Text.Pieces
import Mathlib.Data.List.Infix

/-!
# What patterns match

A pattern stands for one text only where it holds no wildcard that is read as one. A pattern with a doubled
star has one of a few shapes, and each shape looks at the components of a path in a way of its own.

* `matchesAll_many`: a star stands for any beginning of a text.
* `isMatch_iff_eq`: a literal pattern matches itself and nothing else.
* `isMatch_star`: a star and a literal ending match the texts with that ending.
* `isLiteral_iff`: **the literal patterns are those that match themselves and nothing else.**
* `mem_tailPaths`: the tails of a path are made of its last components.
* `suffix_agrees`: **the test for a suffix says what the general shape says.**
* `isMatch_belowFolders_iff`: **folders between doubled stars are found exactly where there is one of
  them**; several never match.
* `within_matches_iff`: **a folder in front of a doubled star is compared as a text**, and so matched as
  a pattern exactly where it holds no wildcard.
-/

namespace HouseStyle.Wildcard

variable {ps : List Part} {s : CharSet} {c : Char} {pattern text cs : List Char}

/-! ### Parts -/

@[simp]
theorem matchesAll_nil : matchesAll [] text = true ↔ text = [] := by
  simp [matchesAll]

/-- A star stands for any beginning of a text. -/
theorem matchesAll_many :
    matchesAll (.many :: ps) text = true ↔ ∃ rest, rest <:+ text ∧ matchesAll ps rest = true := by
  induction text with
  | nil => simp [matchesAll, List.suffix_nil]
  | cons c cs ih =>
    rw [matchesAll, Bool.or_eq_true, ih]
    constructor
    · rintro (h | ⟨rest, hsuffix, h⟩)
      · exact ⟨c :: cs, List.suffix_rfl, h⟩
      · exact ⟨rest, hsuffix.trans (List.suffix_cons c cs), h⟩
    · rintro ⟨rest, hsuffix, h⟩
      rcases List.suffix_cons_iff.1 hsuffix with rfl | hsuffix
      · exact .inl h
      · exact .inr ⟨rest, hsuffix, h⟩

/-- Any other part stands for the first character of a text. -/
theorem matchesAll_cons {p : Part} (hp : p ≠ .many) :
    matchesAll (p :: ps) text = true ↔
      ∃ c cs, text = c :: cs ∧ p.accepts c = true ∧ matchesAll ps cs = true := by
  cases text with
  | nil => cases p <;> simp_all [matchesAll]
  | cons c cs => cases p <;> simp_all [matchesAll]

theorem matchesAll_exactly :
    matchesAll (.exactly c :: ps) text = true ↔ ∃ cs, text = c :: cs ∧ matchesAll ps cs = true := by
  rw [matchesAll_cons (by simp)]
  simp only [Part.accepts, beq_iff_eq]
  constructor
  · rintro ⟨d, cs, htext, rfl, h⟩
    exact ⟨cs, htext, h⟩
  · rintro ⟨cs, htext, h⟩
    exact ⟨c, cs, htext, rfl, h⟩

/-- Without a star, a pattern matches texts of one length. -/
theorem length_of_matchesAll (hmany : Part.many ∉ ps) (h : matchesAll ps text = true) :
    text.length = ps.length := by
  induction ps generalizing text with
  | nil => simp_all
  | cons p ps ih =>
    rw [List.mem_cons, not_or] at hmany
    obtain ⟨c, cs, rfl, -, h⟩ := (matchesAll_cons (Ne.symm hmany.1)).1 h
    rw [List.length_cons, List.length_cons, ih hmany.2 h]

/-- With a star or a question mark, a pattern that matches a text also matches another one. -/
theorem exists_other (h : matchesAll ps text = true) (hwild : Part.many ∈ ps ∨ Part.one ∈ ps) :
    ∃ other, other ≠ text ∧ matchesAll ps other = true ∧ other ≠ [] ∧
      ∀ c ∈ other, c ∈ text ∨ c = 'a' ∨ c = 'b' := by
  induction ps generalizing text with
  | nil => simp at hwild
  | cons p ps ih =>
    -- after a character that stays, the rest of the text is the one to change
    have later (hp : p ≠ .many) (hwild : Part.many ∈ ps ∨ Part.one ∈ ps) :
        ∃ other, other ≠ text ∧ matchesAll (p :: ps) other = true ∧ other ≠ [] ∧
          ∀ c ∈ other, c ∈ text ∨ c = 'a' ∨ c = 'b' := by
      obtain ⟨c, cs, rfl, hc, h⟩ := (matchesAll_cons hp).1 h
      obtain ⟨other, hother, hmatch, -, hchars⟩ := ih h hwild
      refine ⟨c :: other, by simpa using hother, (matchesAll_cons hp).2 ⟨c, other, rfl, hc, hmatch⟩,
        by simp, fun d hd => ?_⟩
      rcases List.mem_cons.1 hd with rfl | hd
      · exact .inl List.mem_cons_self
      · exact (hchars d hd).imp_left (List.mem_cons_of_mem c)
    cases p with
    | many =>
      obtain ⟨rest, hsuffix, hrest⟩ := matchesAll_many.1 h
      refine ⟨'a' :: text, fun heq => by simpa using congrArg List.length heq,
        matchesAll_many.2 ⟨rest, hsuffix.trans (List.suffix_cons 'a' text), hrest⟩, by simp, ?_⟩
      simp +contextual [or_comm]
    | one =>
      obtain ⟨c, cs, rfl, -, h⟩ := (matchesAll_cons (by simp)).1 h
      have change (d : Char) (hne : d ≠ c) (hd : d = 'a' ∨ d = 'b') :
          ∃ other, other ≠ c :: cs ∧ matchesAll (.one :: ps) other = true ∧ other ≠ [] ∧
            ∀ e ∈ other, e ∈ c :: cs ∨ e = 'a' ∨ e = 'b' := by
        refine ⟨d :: cs, by simpa using hne, (matchesAll_cons (by simp)).2 ⟨d, cs, rfl, rfl, h⟩,
          by simp, fun e he => ?_⟩
        rcases List.mem_cons.1 he with rfl | he
        · exact .inr hd
        · exact .inl (List.mem_cons_of_mem c he)
      by_cases hc : c = 'a'
      · exact change 'b' (by simp [hc]) (.inr rfl)
      · exact change 'a' (Ne.symm hc) (.inl rfl)
    | exactly d => exact later (by simp) (by simpa using hwild)
    | among s => exact later (by simp) (by simpa using hwild)

/-! ### Literal patterns -/

/-- Whether each character of a pattern stands for itself. -/
def IsLiteral (pattern : List Char) : Prop :=
  parse pattern = pattern.map .exactly

instance (pattern : List Char) : Decidable (IsLiteral pattern) :=
  inferInstanceAs (Decidable (parse pattern = pattern.map .exactly))

theorem length_parseFrom_le (skip : Nat) (cs : List Char) :
    (parseFrom skip cs).length ≤ cs.length - skip := by
  fun_induction parseFrom skip cs <;> simp_all
  omega

/-- A character begins a set, or is read alone: as a star, a question mark or itself. -/
theorem parseFrom_cons (c : Char) (rest : List Char) :
    (∃ s n, rest ≠ [] ∧ parseFrom 0 (c :: rest) = .among s :: parseFrom (n + 1) rest) ∨
      ∃ p, (p = .many ∨ p = .one ∨ p = .exactly c) ∧ parseFrom 0 (c :: rest) = p :: parseFrom 0 rest := by
  by_cases hset : c = '[' ∧ (setLength? rest).isSome
  · obtain ⟨rfl, hsome⟩ := hset
    obtain ⟨n, hn⟩ := Option.isSome_iff_exists.1 hsome
    refine .inl ⟨setOf (rest.take n), n, ?_, by simp [parseFrom, hn]⟩
    rintro rfl
    simp [setLength?] at hn
  · refine .inr ?_
    by_cases hstar : c = '*'
    · exact ⟨.many, by simp, by simp [hstar, parseFrom]⟩
    by_cases hmark : c = '?'
    · exact ⟨.one, by simp, by simp [hmark, parseFrom]⟩
    refine ⟨.exactly c, by simp, ?_⟩
    by_cases hbracket : c = '['
    · have hnone : setLength? rest = none := by simpa [hbracket] using hset
      simp [hbracket, parseFrom, hnone]
    · rw [parseFrom] <;> simp_all

/-- A set takes up more characters than the one it stands for. -/
theorem length_parseFrom_lt (h : .among s ∈ parseFrom 0 cs) : (parseFrom 0 cs).length < cs.length := by
  induction cs with
  | nil => simp [parseFrom] at h
  | cons c rest ih =>
    obtain ⟨s, n, hne, heq⟩ | ⟨p, hp, heq⟩ := parseFrom_cons c rest
    · have hle := length_parseFrom_le (n + 1) rest
      have hpos := List.length_pos_iff.2 hne
      rw [heq, List.length_cons, List.length_cons]
      omega
    · have hset : Part.among s ≠ p := by rintro rfl; simp at hp
      rw [heq] at h ⊢
      simpa using ih ((List.mem_cons.1 h).resolve_left hset)

/-- Without a wildcard that is read as one, each character of a pattern stands for itself. -/
theorem isLiteral_of_forall (hmany : Part.many ∉ parse pattern) (hone : Part.one ∉ parse pattern)
    (hset : ∀ s, Part.among s ∉ parse pattern) : IsLiteral pattern := by
  unfold IsLiteral
  unfold parse at *
  induction pattern with
  | nil => rfl
  | cons c rest ih =>
    obtain ⟨s, n, -, heq⟩ | ⟨p, hp, heq⟩ := parseFrom_cons c rest
    · exact absurd (heq ▸ List.mem_cons_self) (hset s)
    · simp only [heq, List.mem_cons, not_or] at hmany hone hset ⊢
      obtain rfl : p = .exactly c := by
        rcases hp with rfl | rfl | rfl
        · exact absurd rfl hmany.1
        · exact absurd rfl hone.1
        · rfl
      rw [List.map_cons, ih hmany.2 hone.2 fun s => (hset s).2]

theorem isLiteral_of_plain (h : ∀ c ∈ pattern, c ≠ '*' ∧ c ≠ '?' ∧ c ≠ '[') : IsLiteral pattern := by
  unfold IsLiteral parse
  induction pattern with
  | nil => rfl
  | cons c rest ih =>
    obtain ⟨hstar, hmark, hbracket⟩ := h c List.mem_cons_self
    have hc : parseFrom 0 (c :: rest) = .exactly c :: parseFrom 0 rest := by rw [parseFrom] <;> simp_all
    rw [hc, ih fun d hd => h d (List.mem_cons_of_mem c hd), List.map_cons]

theorem matchesAll_map_exactly : matchesAll (pattern.map .exactly) text = true ↔ text = pattern := by
  induction pattern generalizing text with
  | nil => simp
  | cons c rest ih => simp [matchesAll_exactly, ih]

/-- A literal pattern matches itself and nothing else. -/
theorem isMatch_iff_eq (h : IsLiteral pattern) : isMatch pattern text = true ↔ text = pattern := by
  rw [isMatch, h, matchesAll_map_exactly]

/-- A star and a literal ending match the texts with that ending. -/
theorem isMatch_star (h : IsLiteral pattern) : isMatch ('*' :: pattern) text = true ↔ pattern <:+ text := by
  have hparse : parse ('*' :: pattern) = .many :: pattern.map .exactly := congrArg (Part.many :: ·) h
  rw [isMatch, hparse, matchesAll_many]
  simp [matchesAll_map_exactly]

/-- A pattern that is not literal disagrees with itself read literally, on a text without slashes
if it has none. -/
theorem exists_disagreement (h : ¬ IsLiteral pattern) (hslash : '/' ∉ pattern) :
    ∃ text, text ≠ [] ∧ '/' ∉ text ∧ ¬ (isMatch pattern text = true ↔ text = pattern) := by
  by_cases hself : isMatch pattern pattern = true
  · have hwild : Part.many ∈ parse pattern ∨ Part.one ∈ parse pattern := by
      by_contra hno
      obtain ⟨hmany, hone⟩ := not_or.1 hno
      refine h (isLiteral_of_forall hmany hone fun s hset => ?_)
      exact (length_parseFrom_lt hset).ne' (length_of_matchesAll hmany hself)
    obtain ⟨other, hne, hmatch, hnil, hchars⟩ := exists_other hself hwild
    refine ⟨other, hnil, fun hmem => ?_, fun hiff => hne (hiff.1 hmatch)⟩
    rcases hchars '/' hmem with hmem | hmem | hmem
    · exact hslash hmem
    · simp at hmem
    · simp at hmem
  · refine ⟨pattern, ?_, hslash, fun hiff => hself (hiff.2 rfl)⟩
    rintro rfl
    exact h rfl

/-- **The literal patterns are those that match themselves and nothing else.** -/
theorem isLiteral_iff (hslash : '/' ∉ pattern) :
    IsLiteral pattern ↔ ∀ text, text ≠ [] → '/' ∉ text → (isMatch pattern text = true ↔ text = pattern) := by
  refine ⟨fun h text _ _ => isMatch_iff_eq h, fun h => ?_⟩
  by_contra hnot
  obtain ⟨text, hne, htext, hdiff⟩ := exists_disagreement hnot hslash
  exact hdiff (h text hne htext)

end HouseStyle.Wildcard

namespace HouseStyle.Glob

open Wildcard (IsLiteral)

variable {path pattern tail top x : List Char} {names comps : List (List Char)}

/-! ### Components -/

/-- The folders that a path goes through: its components but the last. -/
def foldersOf (path : List Char) : List (List Char) :=
  (piecesOf '/' path).dropLast

/-- Whether a path is relative: no component is empty. -/
def IsRelative (path : List Char) : Prop :=
  [] ∉ piecesOf '/' path

instance (path : List Char) : Decidable (IsRelative path) :=
  inferInstanceAs (Decidable ([] ∉ piecesOf '/' path))

theorem slash_notMem_of_mem_foldersOf (h : top ∈ foldersOf path) : '/' ∉ top :=
  notMem_of_mem_piecesOf (List.dropLast_subset _ h)

/-- The components of a path that is put together from some. -/
theorem piecesOf_join (hne : comps ≠ []) (h : ∀ comp ∈ comps, '/' ∉ comp) :
    piecesOf '/' (['/'].intercalate comps) = comps :=
  piecesOf_intercalate hne h

/-- Below a top folder, a path is that folder, a slash and the rest. -/
theorem exists_below_of_foldersOf (h : (foldersOf path).head? = some top) :
    ∃ rest, path = top ++ '/' :: rest := by
  obtain ⟨more, hmore⟩ := List.head?_eq_some_iff.1 h
  obtain ⟨next, rest, hpieces⟩ : ∃ next rest, piecesOf '/' path = top :: next :: rest := by
    rw [foldersOf] at hmore
    match hp : piecesOf '/' path with
    | [] => simp [hp] at hmore
    | [_] => simp [hp] at hmore
    | first :: next :: rest =>
      rw [hp, List.dropLast_cons_of_ne_nil (by simp)] at hmore
      obtain ⟨rfl, -⟩ := List.cons_eq_cons.1 hmore
      exact ⟨next, rest, rfl⟩
  refine ⟨['/'].intercalate (next :: rest), ?_⟩
  rw [← intercalate_piecesOf '/' path, hpieces, List.intercalate_cons_cons]
  simp

/-- The last components are all of them, or the last ones of those after the first. -/
theorem exists_suffix_cons_iff {first whole : List Char} {more : List (List Char)}
    (h : ['/'].intercalate (first :: more) = whole) :
    (∃ comps, comps ≠ [] ∧ comps <:+ first :: more ∧ ['/'].intercalate comps = tail) ↔
      tail = whole ∨ ∃ comps, comps ≠ [] ∧ comps <:+ more ∧ ['/'].intercalate comps = tail := by
  simp only [List.suffix_cons_iff]
  constructor
  · rintro ⟨comps, hne, rfl | hsuffix, htail⟩
    · exact .inl (htail ▸ h)
    · exact .inr ⟨comps, hne, hsuffix, htail⟩
  · rintro (rfl | ⟨comps, hne, hsuffix, htail⟩)
    · exact ⟨first :: more, List.cons_ne_nil first more, .inl rfl, h⟩
    · exact ⟨comps, hne, .inr hsuffix, htail⟩

/-- The tails of a path are made of its last components. -/
theorem mem_tailPaths :
    tail ∈ tailPaths path ↔
      ∃ comps, comps ≠ [] ∧ comps <:+ piecesOf '/' path ∧ ['/'].intercalate comps = tail := by
  -- the tails behind the slashes are made of the components after the first
  have hgo (path : List Char) : tail ∈ tailPaths.go path ↔
      ∃ comps, comps ≠ [] ∧ comps <:+ (piecesOf '/' path).tail ∧ ['/'].intercalate comps = tail := by
    induction path with
    | nil => simp +contextual [tailPaths.go, piecesOf]
    | cons c rest ih =>
      have hrest := intercalate_piecesOf '/' rest
      obtain ⟨first, more, hp⟩ := List.exists_cons_of_ne_nil (piecesOf_ne_nil '/' rest)
      rw [hp] at ih hrest
      rw [tailPaths.go, piecesOf, hp]
      by_cases hc : c = '/'
      · rw [if_pos hc, if_pos hc, List.mem_cons, ih, List.tail_cons, List.tail_cons, exists_suffix_cons_iff hrest]
      · rw [if_neg hc, if_neg hc, ih]
        rfl
  have hwhole := intercalate_piecesOf '/' path
  obtain ⟨first, more, hp⟩ := List.exists_cons_of_ne_nil (piecesOf_ne_nil '/' path)
  rw [hp] at hwhole
  rw [tailPaths, List.mem_cons, hgo, hp, List.tail_cons, exists_suffix_cons_iff hwhole]

theorem matchesTail_iff :
    matchesTail pattern path = true ↔
      ∃ comps, comps ≠ [] ∧ comps <:+ piecesOf '/' path ∧
        Wildcard.isMatch pattern (['/'].intercalate comps) = true := by
  rw [matchesTail, List.any_eq_true]
  constructor
  · rintro ⟨tail, hmem, hmatch⟩
    obtain ⟨comps, hne, hsuffix, rfl⟩ := mem_tailPaths.1 hmem
    exact ⟨comps, hne, hsuffix, hmatch⟩
  · rintro ⟨comps, hne, hsuffix, hmatch⟩
    exact ⟨_, mem_tailPaths.2 ⟨comps, hne, hsuffix, rfl⟩, hmatch⟩

/-- The tails of a path are endings of it. -/
theorem suffix_of_mem_tailPaths (h : tail ∈ tailPaths path) : tail <:+ path := by
  have hgo (path : List Char) (h : tail ∈ tailPaths.go path) : tail <:+ path := by
    induction path with
    | nil => simp [tailPaths.go] at h
    | cons c rest ih =>
      rw [tailPaths.go] at h
      split at h
      · rcases List.mem_cons.1 h with rfl | h
        · exact List.suffix_cons c _
        · exact (ih h).trans (List.suffix_cons c rest)
      · exact (ih h).trans (List.suffix_cons c rest)
  rcases List.mem_cons.1 h with rfl | h
  · exact List.suffix_rfl
  · exact hgo path h

/-- Anywhere a name that begins with a dot: a component does. -/
theorem isMatch_dotted (path : List Char) :
    isMatch "**/.*".toList path = true ↔ ∃ comp ∈ piecesOf '/' path, comp.head? = some '.' := by
  have hdot (text : List Char) : Wildcard.isMatch ".*".toList text = true ↔ text.head? = some '.' := by
    have hparse : Wildcard.parse ".*".toList = [.exactly '.', .many] := by decide
    rw [Wildcard.isMatch, hparse, Wildcard.matchesAll_exactly, List.head?_eq_some_iff]
    simp [Wildcard.matchesAll_many, List.nil_suffix]
  have hshape : shapeOf "**/.*".toList = .anywhere ".*".toList := by decide
  have hmatch : isMatch "**/.*".toList path = matchesTail ".*".toList path := by
    rw [isMatch, if_pos (by decide), hshape, Shape.isMatch]
  rw [hmatch, matchesTail_iff]
  simp only [hdot]
  -- a joined path begins as its first component does
  have hhead (first : List Char) (more : List (List Char)) :
      (['/'].intercalate (first :: more)).head? = some '.' ↔ first.head? = some '.' := by
    cases more with
    | nil => simp
    | cons next others => cases first <;> simp [List.intercalate_cons_cons]
  constructor
  · rintro ⟨comps, hne, hsuffix, h⟩
    obtain ⟨first, more, rfl⟩ := List.exists_cons_of_ne_nil hne
    exact ⟨first, hsuffix.subset List.mem_cons_self, (hhead first more).1 h⟩
  · rintro ⟨comp, hmem, h⟩
    obtain ⟨before, more, hpieces⟩ := List.append_of_mem hmem
    exact ⟨comp :: more, by simp, hpieces ▸ List.suffix_append before _, (hhead comp more).2 h⟩

/-! ### Plain names -/

theorem isPlainName_iff :
    isPlainName x = true ↔ ∀ c ∈ x, c ≠ '*' ∧ c ≠ '?' ∧ c ≠ '[' ∧ c ≠ '/' := by
  simp [isPlainName, and_assoc]

theorem slash_notMem_of_plain (h : isPlainName x = true) : '/' ∉ x :=
  fun hmem => (isPlainName_iff.1 h '/' hmem).2.2.2 rfl

theorem noWildcard_of_plain (h : isPlainName x = true) : ∀ c ∈ x, c ≠ '*' ∧ c ≠ '?' ∧ c ≠ '[' := by
  intro c hc
  obtain ⟨hstar, hmark, hset, -⟩ := isPlainName_iff.1 h c hc
  exact ⟨hstar, hmark, hset⟩

/-! ### Suffixes -/

theorem shapeOf_suffix (hx : isPlainName x = true) : shapeOf ("**/*.".toList ++ x) = .suffix ('.' :: x) := by
  simp [shapeOf, hx]

theorem isMatch_suffix (hx : isPlainName x = true) (path : List Char) :
    isMatch ("**/*.".toList ++ x) path = ('.' :: x).isSuffixOf path := by
  have hstars : occursIn "**".toList ("**/*.".toList ++ x) = true := occursIn_iff.2 ⟨[], "/*.".toList ++ x, rfl⟩
  rw [isMatch, if_pos hstars, shapeOf_suffix hx]
  rfl

/-- **The test for a suffix says what the general shape says.** A doubled star, a slash and a
star with a plain suffix match the paths that end in the suffix; these are the paths some tail of
which matches the star and the suffix. -/
theorem suffix_agrees (hx : isPlainName x = true) (path : List Char) :
    shapeOf ("**/*.".toList ++ x) = .suffix ('.' :: x) ∧
      isMatch ("**/*.".toList ++ x) path = ('.' :: x).isSuffixOf path ∧
      ('.' :: x).isSuffixOf path = matchesTail ("*.".toList ++ x) path ∧
      (matchesTail ("*.".toList ++ x) path = true ↔
        ∃ comps, comps ≠ [] ∧ comps <:+ piecesOf '/' path ∧
          Wildcard.isMatch ("*.".toList ++ x) (['/'].intercalate comps) = true) := by
  refine ⟨shapeOf_suffix hx, isMatch_suffix hx path, ?_, matchesTail_iff⟩
  have hliteral : IsLiteral ('.' :: x) := by
    refine Wildcard.isLiteral_of_plain fun c hc => ?_
    rcases List.mem_cons.1 hc with rfl | hc
    · decide
    · exact noWildcard_of_plain hx c hc
  rw [Bool.eq_iff_iff, List.isSuffixOf_iff_suffix, matchesTail, List.any_eq_true]
  constructor
  · exact fun h => ⟨path, List.mem_cons_self, (Wildcard.isMatch_star hliteral).2 h⟩
  · rintro ⟨tail, hmem, h⟩
    exact ((Wildcard.isMatch_star hliteral).1 h).trans (suffix_of_mem_tailPaths hmem)

theorem suffix_agrees_css : isPlainName "css".toList = true ∧
    ('.' :: "css".toList).isSuffixOf "a.b/.css".toList = matchesTail ("*.".toList ++ "css".toList) "a.b/.css".toList :=
  ⟨by decide, (suffix_agrees (by decide) "a.b/.css".toList).2.2.1⟩

/-! ### Folders between doubled stars -/

/-- The pattern of the paths below some folders that follow each other. -/
def belowFolders (names : List (List Char)) : List Char :=
  "**/".toList ++ ['/'].intercalate names ++ "/**".toList

theorem dropEnd_append (before after : List Char) : dropEnd after.length (before ++ after) = before := by
  simp [dropEnd]

/-- What joined plain names are made of. -/
theorem mem_join {c : Char} (h : ∀ n ∈ names, isPlainName n = true) (hc : c ∈ ['/'].intercalate names) :
    c ≠ '*' ∧ c ≠ '?' ∧ c ≠ '[' := by
  induction names with
  | nil => simp at hc
  | cons n more ih =>
    have hn : c ∈ n → c ≠ '*' ∧ c ≠ '?' ∧ c ≠ '[' := noWildcard_of_plain (h n List.mem_cons_self) c
    cases more with
    | nil => exact hn (by simpa using hc)
    | cons next others =>
      rw [List.intercalate_cons_cons, List.mem_append, List.mem_append] at hc
      rcases hc with (hc | hc) | hc
      · exact hn hc
      · obtain rfl : c = '/' := by simpa using hc
        decide
      · exact ih (fun m hm => h m (List.mem_cons_of_mem n hm)) hc

theorem shapeOf_belowFolders (h : ∀ n ∈ names, isPlainName n = true) :
    shapeOf (belowFolders names) = .folder (['/'].intercalate names) := by
  have hstar : "**/*.".toList.isPrefixOf (belowFolders names) = false := by
    rw [← Bool.not_eq_true, List.isPrefixOf_iff_prefix]
    intro hprefix
    cases hjoin : ['/'].intercalate names with
    | nil => simp [belowFolders, hjoin] at hprefix
    | cons c rest =>
      have hc := (mem_join h (hjoin ▸ List.mem_cons_self : c ∈ ['/'].intercalate names)).1
      simp [belowFolders, hjoin, hc.symm] at hprefix
  have hleading : "**/".toList.isPrefixOf (belowFolders names) = true := by
    rw [List.isPrefixOf_iff_prefix, belowFolders, List.append_assoc]
    exact List.prefix_append _ _
  have htrailing : "/**".toList.isSuffixOf (belowFolders names) = true := by
    rw [List.isSuffixOf_iff_suffix, belowFolders]
    exact List.suffix_append _ _
  have hdrop : (dropEnd 3 (belowFolders names)).drop 3 = ['/'].intercalate names := by
    have hend : dropEnd 3 (belowFolders names) = "**/".toList ++ ['/'].intercalate names := dropEnd_append _ _
    rw [hend]
    rfl
  simp only [shapeOf, hstar, hleading, htrailing, hdrop, Bool.false_and, Bool.and_true, Bool.false_eq_true,
    if_false, if_true]

/-- Folders between doubled stars are found where there is one of them, as a component. -/
theorem isMatch_belowFolders (hne : names ≠ []) (h : ∀ n ∈ names, isPlainName n = true) (path : List Char) :
    isMatch (belowFolders names) path = true ↔ names.length = 1 ∧ names <:+: foldersOf path := by
  have hstars : occursIn "**".toList (belowFolders names) = true :=
    occursIn_iff.2 ⟨[], "/".toList ++ ['/'].intercalate names ++ "/**".toList, rfl⟩
  have hmem : isMatch (belowFolders names) path = true ↔ ['/'].intercalate names ∈ foldersOf path := by
    rw [isMatch, if_pos hstars, shapeOf_belowFolders h, Shape.isMatch, List.any_eq_true]
    simp only [Wildcard.isMatch_iff_eq (Wildcard.isLiteral_of_plain fun c hc => mem_join h hc)]
    exact ⟨fun ⟨_, hmem, heq⟩ => heq ▸ hmem, fun hmem => ⟨_, hmem, rfl⟩⟩
  rw [hmem]
  match names, hne with
  | [name], _ => simp [List.singleton_infix_iff]
  | first :: next :: others, _ =>
    -- a component holds no slash, and the joined names do
    refine ⟨fun hmem => absurd ?_ (slash_notMem_of_mem_foldersOf hmem), fun hone => by simp at hone⟩
    simp [List.intercalate_cons_cons]

/-- **Folders between doubled stars are found exactly where there is one of them.** A pattern with one
name matches the paths that go through a folder of that name; with several names it matches no path,
and so misses those that go through these folders. -/
theorem isMatch_belowFolders_iff (hne : names ≠ []) (h : ∀ n ∈ names, n ≠ [] ∧ isPlainName n = true) :
    (∀ path, isMatch (belowFolders names) path = true ↔ names.length = 1 ∧ names <:+: foldersOf path) ∧
      ((∀ path, IsRelative path → (isMatch (belowFolders names) path = true ↔ names <:+: foldersOf path)) ↔
        names.length = 1) := by
  have hmatch := isMatch_belowFolders hne fun n hn => (h n hn).2
  refine ⟨hmatch, fun hall => ?_, fun hone path _ => by simp [hmatch, hone]⟩
  -- a file in the innermost of the folders goes through all of them
  let path := ['/'].intercalate (names ++ ["f".toList])
  have hpieces : piecesOf '/' path = names ++ ["f".toList] := by
    refine piecesOf_join (by simp) fun n hn => ?_
    rcases List.mem_append.1 hn with hn | hn
    · exact slash_notMem_of_plain (h n hn).2
    · obtain rfl : n = "f".toList := by simpa using hn
      decide
  have hrelative : IsRelative path := by
    rw [IsRelative, hpieces]
    intro hmem
    rcases List.mem_append.1 hmem with hmem | hmem
    · exact (h [] hmem).1 rfl
    · simp at hmem
  have hfolders : foldersOf path = names := by rw [foldersOf, hpieces, List.dropLast_concat]
  exact ((hmatch path).1 ((hall path hrelative).2 (hfolders ▸ List.infix_rfl))).1

theorem isMatch_belowFolders_migrations :
    isMatch (belowFolders ["migrations".toList]) "app/migrations/a.py".toList = true :=
  ((isMatch_belowFolders_iff (by decide) (by decide)).1 _).2 ⟨rfl, by decide⟩

/-- A file in two folders that follow each other, which the pattern with both names misses. -/
theorem belowFolders_misses :
    IsRelative "a/b/c.css".toList ∧ ["a".toList, "b".toList] <:+: foldersOf "a/b/c.css".toList ∧
      isMatch (belowFolders ["a".toList, "b".toList]) "a/b/c.css".toList = false := by
  refine ⟨by decide, by decide, ?_⟩
  rw [← Bool.not_eq_true, isMatch_belowFolders (by decide) (by decide)]
  decide

/-! ### A folder before a doubled star -/

theorem count_slash_within (hslash : '/' ∉ pattern) : (pattern ++ "/**".toList).count '/' = 1 := by
  rw [List.count_append, List.count_eq_zero_of_not_mem hslash]
  rfl

/-- What is before a doubled star at the end is a folder, if that is the only doubled star. -/
theorem shapeOf_within (hstars : occursIn "**".toList pattern = false) (hslash : '/' ∉ pattern) :
    shapeOf (pattern ++ "/**".toList) = .within pattern := by
  have hleading : "**/".toList.isPrefixOf (pattern ++ "/**".toList) = false := by
    rw [← Bool.not_eq_true, List.isPrefixOf_iff_prefix]
    intro hprefix
    match pattern with
    | [] => simp at hprefix
    | [c] => simp at hprefix
    | c :: d :: rest =>
      obtain ⟨rfl, rfl, -⟩ : '*' = c ∧ '*' = d ∧ _ := by simpa using hprefix
      exact Bool.false_ne_true (hstars.symm.trans (occursIn_iff.2 ⟨[], rest, rfl⟩))
  have hstar : "**/*.".toList.isPrefixOf (pattern ++ "/**".toList) = false := by
    rw [← Bool.not_eq_true, List.isPrefixOf_iff_prefix] at hleading ⊢
    exact fun hprefix => hleading (List.IsPrefix.trans (by decide) hprefix)
  have hcut : cutAt? "/**/".toList (pattern ++ "/**".toList) = none := by
    rw [cutAt?_eq_none_iff]
    intro hinfix
    have hle := hinfix.sublist.count_le '/'
    rw [count_slash_within hslash] at hle
    exact absurd hle (by decide)
  have htrailing : "/**".toList.isSuffixOf (pattern ++ "/**".toList) = true := by
    rw [List.isSuffixOf_iff_suffix]
    exact List.suffix_append _ _
  have hdrop : dropEnd 3 (pattern ++ "/**".toList) = pattern := dropEnd_append _ _
  simp only [shapeOf, hstar, hleading, hcut, htrailing, hdrop, Bool.false_and, Bool.false_eq_true, if_false,
    if_true]

/-- A folder in front of a doubled star is compared as a text, with the top folder or with the whole
path. -/
theorem isMatch_within (hstars : occursIn "**".toList pattern = false) (hslash : '/' ∉ pattern)
    (path : List Char) :
    isMatch (pattern ++ "/**".toList) path = true ↔ (foldersOf path).head? = some pattern ∨ path = pattern := by
  have hdoubled : occursIn "**".toList (pattern ++ "/**".toList) = true :=
    occursIn_iff.2 ⟨pattern ++ "/".toList, [], by simp⟩
  rw [isMatch, if_pos hdoubled, shapeOf_within hstars hslash, Shape.isMatch, Bool.or_eq_true,
    List.isPrefixOf_iff_prefix, beq_iff_eq]
  refine or_congr_left ⟨?_, fun h => ?_⟩
  · rintro ⟨rest, rfl⟩
    rw [foldersOf, List.append_assoc, List.singleton_append, piecesOf_append_cons, piecesOf_of_notMem hslash,
      List.singleton_append, List.dropLast_cons_of_ne_nil (piecesOf_ne_nil '/' rest), List.head?_cons]
  · obtain ⟨rest, rfl⟩ := exists_below_of_foldersOf h
    exact ⟨rest, by simp⟩

/-- Below a folder, what is before a doubled star is compared with the top folder. -/
theorem isMatch_within_top (hstars : occursIn "**".toList pattern = false) (hslash : '/' ∉ pattern)
    (path top : List Char) (htop : (foldersOf path).head? = some top) :
    isMatch (pattern ++ "/**".toList) path = true ↔ top = pattern := by
  rw [isMatch_within hstars hslash, htop, Option.some_inj, or_iff_left]
  rintro rfl
  obtain ⟨rest, hrest⟩ := exists_below_of_foldersOf htop
  exact hslash (hrest ▸ List.mem_append_right top List.mem_cons_self)

/-- **A folder in front of a doubled star is matched as a pattern exactly where it is a literal one.** -/
theorem within_matches_iff (hstars : occursIn "**".toList pattern = false) (hslash : '/' ∉ pattern) :
    (∀ path top, IsRelative path → (foldersOf path).head? = some top →
        (isMatch (pattern ++ "/**".toList) path = true ↔ Wildcard.isMatch pattern top = true)) ↔
      IsLiteral pattern := by
  have hmatch := isMatch_within_top hstars hslash
  refine ⟨fun h => (Wildcard.isLiteral_iff hslash).2 fun top hne htop => ?_, fun h path top _ htop => ?_⟩
  · -- a file right below the folder
    have hpieces : piecesOf '/' (top ++ '/' :: "f".toList) = [top, "f".toList] := by
      rw [piecesOf_append_cons, piecesOf_of_notMem htop]
      rfl
    have hrelative : IsRelative (top ++ '/' :: "f".toList) := by
      rw [IsRelative, hpieces]
      simpa using hne.symm
    have hhead : (foldersOf (top ++ '/' :: "f".toList)).head? = some top := by
      rw [foldersOf, hpieces]
      rfl
    rw [← h _ _ hrelative hhead, hmatch _ _ hhead]
  · rw [hmatch path top htop, Wildcard.isMatch_iff_eq h]

end HouseStyle.Glob
