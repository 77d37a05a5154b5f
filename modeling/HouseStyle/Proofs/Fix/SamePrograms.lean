import HouseStyle.Proofs.Fix.LineEndings
import HouseStyle.Proofs.Python.SameTrees

/-!
# New quotes leave the program

The rule of quotes puts other quotes around literals, each where it stood and as long as it was. So all other
characters stay in their places, the tokens are the same ones, and so are the trees of all texts that a run tries.
A literal is given its quotes without a look at its neighbours, though: where an empty literal and the next one stand
side by side, the new quotes can be read as one longer quote.

* `Recloses`, `recloses_of_fix`: one literal.
* `kept_of_applyAll`: all literals of a round.
* `IsProgram.round`, `fixText_keepsProgram`: **one round and a whole run.**
* `fixText_joins_literals`: a sum of strings becomes one string.
-/

namespace HouseStyle

namespace Quotes

open Python

variable {t : Source} {tokens : Array Token} {x : Token} {e : Edit} {n : Node} {c : Context} {es : List Edit}
  {src src' : Array Char} {k : Nat} {q p : Char} {tree : Node}

/-! ### One literal -/

/-- A literal whose quote stood at `k`, between other quotes. -/
def between (src : Array Char) (start k stop : Nat) (p : Char) : List Char :=
  (src.extract start k).toList.map Char.toLower ++ p :: (src.extract (k + 1) (stop - 1)).toList ++ [p]

/-- **An edit that gives other quotes to a literal.** -/
structure Recloses (src : Array Char) (x : Token) (e : Edit) (k : Nat) (q p : Char) : Prop where
  kind : x.kind = .string
  start : e.span.start = x.start
  stop : e.span.stop = x.stop
  le : x.start ≤ k
  lt : k + 1 < x.stop
  inside : x.stop ≤ src.size
  letters : ∀ i, x.start ≤ i → i < k → (src[i]?).any isDelimiter = false
  isQuote : isDelimiter q = true
  opened : src[k]? = some q
  closed : src[x.stop - 1]? = some q
  single : tripleQuoteAt src q k = false
  preferred : isDelimiter p = true
  body : p ∉ (src.extract (k + 1) (x.stop - 1)).toList
  replacement : e.replacement.toList = between src x.start k x.stop p

theorem between_length {start stop : Nat} (hle : start ≤ k) (hlt : k + 1 < stop) (hinside : stop ≤ src.size) :
    (between src start k stop p).length = stop - start := by
  simp only [between, List.length_append, List.length_map, List.length_cons, Array.length_toList, Array.size_extract,
    List.length_nil]
  omega

namespace Recloses

variable (h : Recloses src x e k q p)

include h

theorem fits : e.Fits := by
  rw [Edit.Fits, h.replacement, between_length h.le h.lt h.inside, h.start, h.stop]

/-- Before the quote stand the letters, in lower case. -/
theorem letter {i : Nat} (hle : x.start ≤ i) (hlt : i < k) :
    e.replacement.toList[i - x.start]? = (src[i]?).map Char.toLower := by
  have hinside := h.inside
  have hk := h.lt
  rw [h.replacement, between, List.append_assoc, List.getElem?_append_left, List.getElem?_map,
    getElem?_extract_toList (by omega), Nat.add_sub_cancel' hle]
  rw [List.length_map, Array.length_toList, Array.size_extract]
  omega

theorem behind {i : Nat} (hle : k ≤ i) :
    e.replacement.toList[i - x.start]? = (p :: ((src.extract (k + 1) (x.stop - 1)).toList ++ [p]))[i - k]? := by
  have hinside := h.inside
  have hk := h.lt
  have hstart := h.le
  have hlength : ((src.extract x.start k).toList.map Char.toLower).length = k - x.start := by
    rw [List.length_map, Array.length_toList, Array.size_extract]
    omega
  rw [h.replacement, between, List.append_assoc, List.cons_append, List.getElem?_append_right (by omega), hlength]
  congr 1
  omega

theorem first : e.replacement.toList[k - x.start]? = some p := by
  rw [h.behind (Nat.le_refl k), Nat.sub_self]
  rfl

/-- Between the quotes nothing changes. -/
theorem inner {i : Nat} (hle : k < i) (hlt : i + 1 < x.stop) : e.replacement.toList[i - x.start]? = src[i]? := by
  have hinside := h.inside
  obtain ⟨d, rfl⟩ : ∃ d, i = k + 1 + d := ⟨i - (k + 1), by omega⟩
  rw [h.behind (by omega), show k + 1 + d - k = d + 1 by omega, List.getElem?_cons_succ, List.getElem?_append_left,
    getElem?_extract_toList (by omega)]
  rw [Array.length_toList, Array.size_extract]
  omega

theorem last : e.replacement.toList[x.stop - 1 - x.start]? = some p := by
  have hinside := h.inside
  have hk := h.lt
  have hlength : (src.extract (k + 1) (x.stop - 1)).toList.length = x.stop - 1 - (k + 1) := by
    rw [Array.length_toList, Array.size_extract]
    omega
  rw [h.behind (by omega), show x.stop - 1 - k = x.stop - 1 - (k + 1) + 1 by omega, List.getElem?_cons_succ,
    List.getElem?_append_right (by omega), hlength, Nat.sub_self]
  rfl

/-- The lexer takes each character for the one that stood there. -/
theorem kin (i : Nat) (hle : x.start ≤ i) (hlt : i < x.stop) :
    Option.Rel Kin src[i]? e.replacement.toList[i - x.start]? := by
  rcases Nat.lt_or_ge i k with hbefore | hge
  · rw [h.letter hle hbefore]
    cases src[i]? with
    | none => exact .none
    | some c => exact .some (.lower c)
  rcases Nat.eq_or_lt_of_le hge with rfl | hgt
  · rw [h.first, h.opened]
    exact .some (.quote h.isQuote h.preferred)
  rcases Nat.lt_or_ge (i + 1) x.stop with hin | hend
  · rw [h.inner hgt hin]
    cases src[i]? with
    | none => exact .none
    | some c => exact .some (.same c)
  · obtain rfl : i = x.stop - 1 := by omega
    rw [h.last, h.closed]
    exact .some (.quote h.isQuote h.preferred)

/-- Where the edit is performed, the literal stands between other quotes. -/
theorem reclosed (hplace : ∀ i, x.start ≤ i → i < x.stop → src'[i]? = e.replacement.toList[i - x.start]?) :
    Reclosed src src' x.start x.stop k q p where
  le := h.le
  lt := h.lt
  letters := h.letters
  isQuote := h.isQuote
  opened := h.opened
  opens := (hplace k h.le (Nat.lt_of_succ_lt h.lt)).trans h.first
  closes := by
    have hle := h.le
    have hlt := h.lt
    exact (hplace _ (by omega) (by omega)).trans h.last
  body i hgt hin := by
    have hle := h.le
    rw [hplace i (by omega) (by omega), h.inner hgt hin]
    refine ⟨rfl, fun hp => h.body ?_⟩
    refine List.mem_iff_getElem?.2 ⟨i - (k + 1), ?_⟩
    rw [getElem?_extract_toList (by omega), Nat.add_sub_cancel' hgt, hp]
  single := h.single

end Recloses

/-- A literal with one quote goes on behind it, and no two more of them follow. -/
theorem single_of_opening {stop : Nat} (hends : stringEnd? src q k = some stop)
    (hone : openingQuote (q :: (src.extract (k + 1) stop).toList) = [q]) :
    k + 1 < stop ∧ tripleQuoteAt src q k = false := by
  rw [openingQuote_eq_iff] at hone
  unfold stringEnd? at hends
  split at hends
  · -- the literal is long enough for three quotes to be seen
    have hlong := stringTail?_lt hends
    rw [if_pos rfl] at hlong
    have hthree : tripleQuoteAt src q k = true := ‹_›
    simp only [tripleQuoteAt, Bool.and_eq_true, beq_iff_eq] at hthree
    refine absurd (List.ext_getElem? fun i => ?_) hone
    rcases i with _ | _ | i
    · rw [List.getElem?_take_of_lt (by decide), getElem?_extract_toList (by omega)]
      exact hthree.1.2
    · rw [List.getElem?_take_of_lt (by decide), getElem?_extract_toList (by omega)]
      exact hthree.2
    · rw [List.getElem?_take_eq_none (by omega)]
      rfl
  · have hlong := stringTail?_lt hends
    rw [if_neg (by decide)] at hlong
    exact ⟨hlong, Bool.eq_false_iff.2 ‹_›⟩

/-- A stretch without its last character. -/
theorem dropLast_extract (src : Array Char) (a : Nat) {b : Nat} (hb : b ≤ src.size) :
    (src.extract a b).toList.dropLast = (src.extract a (b - 1)).toList := by
  rw [List.dropLast_eq_take, Array.length_toList, Array.size_extract, Nat.min_eq_left hb, Array.toList_extract,
    Array.toList_extract, List.extract_eq_take_drop, List.extract_eq_take_drop, List.take_take]
  congr 1
  omega

/-- **The edit of the rule gives other quotes to a literal of the text.** -/
theorem recloses_of_fix (halike : countsAlike t = true) (htree : Python.parse t = .ok tree)
    (htokens : tokenize t.chars = some tokens) (hn : n ∈ tree.walk) (hsingle : quoteStyle.applies n = .ok true)
    (hfix : fix n c = some e) : ∃ x ∈ tokens, ∃ k q p, Recloses t.chars x e k q p := by
  unfold fix at hfix
  split at hfix
  · cases hfix
  obtain ⟨text, htext, rfl⟩ := Option.map_eq_some_iff.1 hfix
  obtain ⟨value, marker, quote, hlabel⟩ := literal_of_swapped htext
  obtain ⟨tokens₀, statements, next, hle, htokens₀, hfound, -, rfl⟩ := (parse_eq_ok_iff halike).1 htree
  cases htokens.symm.trans htokens₀
  rw [moduleOf, Node.walk] at hn
  rcases List.mem_cons.1 hn with rfl | hn
  · cases hlabel
  -- the literal is a token, which begins with letters and a quote
  obtain ⟨x, hx, hkind, hvalue, hstart, hstop⟩ := exists_literalToken htokens hfound hn hlabel
  have hliteral := (moduleStatements_spelled htokens hfound n hn).literal _ _ _ hlabel
  have hstands := tokenize_stands htokens x hx
  obtain ⟨k, q, hopens⟩ := hstands.opened hkind
  have hletters (i : Nat) (hi : x.start ≤ i) (hi' : i < k) : (t.chars[i]?).any isDelimiter = false :=
    Respells.any_isDelimiter_eq_false.2 (hopens.letters i hi hi')
  have hquote : isDelimiter q = true := by
    rcases hopens.isQuote with rfl | rfl <;> rfl
  obtain ⟨hlt, hsize, hlast⟩ := stringEnd?_spec hopens.ends
  have hspelled : value.toList = (t.chars.extract x.start k).toList ++ q :: (t.chars.extract (k + 1) x.stop).toList := by
    rw [← hvalue, hstands.text, Cursor.text, String.toList_ofList, extract_split hopens.le hlt hopens.opening]
  -- the rule sees the same letters and the same quote
  obtain ⟨front, q', tail, hopened, hne, hbody, hspelling⟩ :=
    swapped_shape hliteral hlabel (length_of_applies hlabel hsingle) htext
  have hmarker : marker.toList = (t.chars.extract x.start k).toList.map Char.toLower := by
    rw [hliteral.marker_eq, String.toList_ofList, hspelled, stringMarker_eq (letters_of_extract hletters) hquote]
  obtain ⟨rfl, hrest⟩ := List.append_inj (hopened.value.symm.trans hspelled)
    (by rw [hopened.length, hmarker, List.length_map])
  obtain ⟨rfl, rfl⟩ := List.cons.inj hrest
  have hone : openingQuote (q' :: (t.chars.extract (k + 1) x.stop).toList) = [q'] := by
    have := congrArg String.toList (hliteral.quote_eq.symm.trans hopened.quote)
    rw [String.toList_ofList, ← String.length_toList, ← hopened.length, hopened.value, List.drop_left] at this
    exact this.trans (String.toList_singleton q')
  obtain ⟨hin, hthree⟩ := single_of_opening hopens.ends hone
  have hinner := dropLast_extract t.chars (k + 1) hsize
  rw [hinner] at hbody hspelling
  have hpreferred : isDelimiter (character (c.options .quoteStyle).preferred) = true := by
    rcases isQuote_character (c.options .quoteStyle).preferred with heq | heq <;> rw [heq] <;> rfl
  refine ⟨x, hx, k, q', _, hkind, hstart.symm, hstop.symm, hopens.le, hin, hsize, hletters, hquote, hopens.opening,
    hlast, hthree, hpreferred, hbody, ?_⟩
  rw [hspelling, hopened.marker, between]

/-! ### All literals of a round -/

/-- **Other quotes for some literals keep all tokens**: the literal that an edit replaces is kept, and the other
tokens stand apart from it. -/
theorem kept_of_applyAll {cs : List Char} (htokens : InRow 0 t.size tokens.toList) (hapart : es.Pairwise Edit.Apart)
    (hes : ∀ e ∈ es, ∃ y ∈ tokens, ∃ k q p, Recloses t.chars y e k q p) (happly : Edit.applyAll t.chars.toList es = .ok cs) :
    Respells t.chars cs.toArray ∧ ∀ y ∈ tokens, y.Kept t.chars cs.toArray := by
  have hfits (e : Edit) (he : e ∈ es) : e.Fits := by
    obtain ⟨y, -, k, q, p, hy⟩ := hes e he
    exact hy.fits
  have hin (e : Edit) (he : e ∈ es) : e.span.stop ≤ t.chars.toList.length := by
    obtain ⟨y, hmem, k, q, p, hy⟩ := hes e he
    rw [hy.stop]
    exact htokens.le_last y (Array.mem_toList_iff.2 hmem)
  obtain ⟨hlength, hplace⟩ := Edit.applyAll_fits hapart hfits hin happly
  have hget (i : Nat) : cs.toArray[i]? = cs[i]? := List.getElem?_toArray
  simp only [Array.getElem?_toList, ← hget] at hplace
  refine ⟨⟨?_, fun i => ?_⟩, fun y hy => ?_⟩
  · rw [List.size_toArray, hlength, Array.length_toList]
  · by_cases hedited : ∃ e ∈ es, e.span.start ≤ i ∧ i < e.span.stop
    · obtain ⟨e, he, hle, hlt⟩ := hedited
      obtain ⟨y, -, k, q, p, hy⟩ := hes e he
      have hchar := (hplace i).2 e he hle hlt
      rw [hy.start] at hle hchar
      rw [hy.stop] at hlt
      rw [hchar]
      exact hy.kin i hle hlt
    · rw [(hplace i).1 fun e he => by
        by_contra hnot
        rw [not_or, Nat.not_lt, Nat.not_le] at hnot
        exact hedited ⟨e, he, hnot⟩]
      cases t.chars[i]? with
      | none => exact .none
      | some c => exact .some (.same c)
  · by_cases hedited : ∃ e ∈ es, ∃ k q p, Recloses t.chars y e k q p
    · obtain ⟨e, he, k, q, p, hy⟩ := hedited
      refine .reclosed hy.kind (hy.reclosed fun i hle hlt => ?_)
      rw [(hplace i).2 e he (hy.start ▸ hle) (hy.stop ▸ hlt), hy.start]
    · refine .same fun i hle hlt => (hplace i).1 fun e he => ?_
      obtain ⟨z, hz, k, q, p, hedit⟩ := hes e he
      rw [hedit.start, hedit.stop]
      rcases htokens.eq_or_apart (Array.mem_toList_iff.2 hz) (Array.mem_toList_iff.2 hy) with rfl | hbefore | hbehind
      · exact absurd ⟨e, he, k, q, p, hedit⟩ hedited
      · exact .inr (Nat.le_trans hbefore hle)
      · exact .inl (Nat.lt_of_lt_of_le hlt hbehind)

/-! ### Runs -/

variable {u : Source} {settings : Settings}

/-- **A text is the program of a tree but for quotes**: it counts as the grammar does, its literals can be told from
their neighbours, and its tree has the same kinds of nodes and the same literals. -/
structure IsProgram (tree : Node) (u : Source) : Prop where
  alike : countsAlike u = true
  apart : quotesApart u.chars = true
  parses : ∃ tree', Python.parse u = .ok tree' ∧ tree'.walk.map Node.kind = tree.walk.map Node.kind ∧
    literals tree' = literals tree

/-- **One round leaves the program**, whichever literals it gives other quotes. -/
theorem IsProgram.round {cs : List Char} (h : IsProgram tree u) (hapart : es.Pairwise Edit.Apart)
    (hes : ∀ e ∈ es, ∀ tree' tokens, Python.parse u = .ok tree' → tokenize u.chars = some tokens →
      ∃ x ∈ tokens, ∃ k q p, Recloses u.chars x e k q p)
    (happly : Edit.applyAll u.chars.toList es = .ok cs) : IsProgram tree (.ofChars cs.toArray) := by
  obtain ⟨tree', htree', hkinds, hliterals⟩ := h.parses
  obtain ⟨tokens, -, -, -, htokens, -⟩ := (parse_eq_ok_iff h.alike).1 htree'
  obtain ⟨hrespells, hkept⟩ : Respells u.chars (Source.ofChars cs.toArray).chars ∧
      ∀ x ∈ tokens, x.Kept u.chars (Source.ofChars cs.toArray).chars := kept_of_applyAll (tokenize_inRow htokens) hapart
    (fun e he => hes e he tree' tokens htree' htokens) happly
  obtain ⟨tree'', htree'', hkinds', hliterals'⟩ := parse_of_kept h.alike h.apart hrespells htokens hkept htree'
  exact ⟨countsAlike_of_respells hrespells h.alike, (hrespells.tokenize_eq htokens hkept h.apart).2,
    tree'', htree'', hkinds'.trans hkinds, hliterals'.trans hliterals⟩

theorem parse_of_tree? {p : Parsed} (hp : parse .python u = .ok p) (htree : p.tree? = some tree) :
    Python.parse u = .ok tree := by
  simp only [HouseStyle.parse, parseModule] at hp
  split at hp
  · cases hp
    cases htree
    assumption
  · cases hp
    cases htree
  · cases hp

/-- **Every text that a run of the rule tries is the same program**, by induction on the rounds. -/
theorem isProgram_of_tried (honly : ∀ id, settings.runs id = true → id = .quoteStyle) (ht : IsProgram tree t) {n : Nat}
    (h : Tried .python (enabledRules settings) settings t n u) : IsProgram tree u := by
  induction h with
  | start => exact ht
  | @round n u p c cs _ _ parsed hfault checked _ result ih =>
    refine ih.round (Edit.select_apart _) (fun e he tree' tokens htree' htokens => ?_) result
    obtain ⟨tree'', htree''⟩ := exists_tree hfault
    obtain ⟨f, hrule, hin, hoffer⟩ := foundIn_of_selected mem_allRules_of_enabled parsed htree'' checked he
    cases htree'.symm.trans (parse_of_tree? parsed htree'')
    have hrule : f.rule = quoteStyle := by
      obtain ⟨id, hid, hrule⟩ := List.mem_map.1 hrule
      rw [← hrule, honly id (List.mem_filter.1 hid).2]
      rfl
    have happlies := hin.applies
    rw [Finding.offer, hrule] at hoffer
    rw [hrule] at happlies
    have hsingle : quoteStyle.applies f.node = .ok true := by simpa [quoteStyle] using happlies
    exact recloses_of_fix ih.alike htree' htokens hin.node hsingle (Except.ok.inj hoffer)

/-- **Giving quotes to literals leaves the program.** -/
theorem fixText_keepsProgram (path : String) (settings : Settings) (honly : ∀ id, settings.runs id = true → id = .quoteStyle)
    (halike : countsAlike t = true) (hapart : quotesApart t.chars = true) (htree : Python.parse t = .ok tree) :
    ∃ o tree', fixText path .python (enabledRules settings) settings t = .ok o ∧ Python.parse o.text = .ok tree' ∧
      tree'.walk.map Node.kind = tree.walk.map Node.kind ∧ literals tree' = literals tree := by
  have ht : IsProgram tree t := ⟨halike, hapart, tree, htree, rfl, rfl⟩
  obtain ⟨o, n, ho, htried⟩ := exists_outcome path mem_allRules_of_enabled fun _ n u htried =>
    (Bool.and_eq_true_iff.1 (isProgram_of_tried honly ht htried).alike).2
  obtain ⟨tree', htree', hkinds, hliterals⟩ := (isProgram_of_tried honly ht htried).parses
  exact ⟨o, tree', ho, htree', hkinds, hliterals⟩

/-- Letters before a quote, and a literal in a format string. -/
theorem fixText_keepsProgram_nested : ∃ tree o tree',
    (∀ id, alone.runs id = true → id = .quoteStyle) ∧ countsAlike (.ofString "x = B\"a\" + f'\x7by[\"k\"]\x7d'\n") = true ∧
      quotesApart (Source.ofString "x = B\"a\" + f'\x7by[\"k\"]\x7d'\n").chars = true ∧
      Python.parse (.ofString "x = B\"a\" + f'\x7by[\"k\"]\x7d'\n") = .ok tree ∧
      fixText "a.py" .python (enabledRules alone) alone (.ofString "x = B\"a\" + f'\x7by[\"k\"]\x7d'\n") = .ok o ∧
      Python.parse o.text = .ok tree' ∧ tree'.walk.map Node.kind = tree.walk.map Node.kind ∧
      literals tree' = literals tree := by
  have honly : ∀ id, alone.runs id = true → id = .quoteStyle := by
    intro id
    cases id <;> decide
  have halike : countsAlike (.ofString "x = B\"a\" + f'\x7by[\"k\"]\x7d'\n") = true := by decide +kernel
  have hapart : quotesApart (Source.ofString "x = B\"a\" + f'\x7by[\"k\"]\x7d'\n").chars = true := by decide +kernel
  have hparses : (Python.parse (.ofString "x = B\"a\" + f'\x7by[\"k\"]\x7d'\n")).toOption.isSome = true := by
    decide +kernel
  obtain ⟨tree, htree⟩ := Option.isSome_iff_exists.1 hparses
  rw [toOption_eq_some] at htree
  obtain ⟨o, tree', ho, htree', hkinds, hliterals⟩ := fixText_keepsProgram "a.py" alone honly halike hapart htree
  exact ⟨tree, o, tree', honly, halike, hapart, htree, ho, htree', hkinds, hliterals⟩

/-- The kinds of the nodes of a text in document order, if the text has a tree. -/
def kindsOf (language : Language) (t : Source) : Option (List String) :=
  (parse language t).toOption.bind fun p => p.tree?.map fun tree => tree.walk.map Node.kind

/-- In `x = ""'a' + 'b'''` the quotes of the first literal and those of its neighbour become the
opening of a longer literal, which takes in the sum. -/
theorem fixText_joins_literals : ∃ kinds o,
    kindsOf .python (.ofString "x = \"\"'a' + 'b'''\n") = some kinds ∧
      fixText "a.py" .python (enabledRules alone) alone (.ofString "x = \"\"'a' + 'b'''\n") = .ok o ∧
      o.text = .ofString "x = '''a' + 'b'''\n" ∧ kindsOf .python o.text ≠ some kinds := by
  set t : Source := .ofString "x = \"\"'a' + 'b'''\n" with ht
  set t' : Source := .ofString "x = '''a' + 'b'''\n" with ht'
  have hknown : ∀ r ∈ enabledRules alone, (RuleId.ofName? r.id).isSome := by decide
  have hkinds : (kindsOf .python t).isSome = true := by
    rw [ht]
    decide +kernel
  have hother : kindsOf .python t' ≠ kindsOf .python t := by
    rw [ht, ht']
    decide +kernel
  have hb : ((loneEdit? .python (enabledRules alone) alone t).filter fun e =>
      (t.edited e).chars == t'.chars).isSome = true := by
    rw [ht, ht']
    decide +kernel
  have hsilent : ((parse .python t').toOption.filter fun p => p.fault?.isNone &&
      (matchTree p (enabledRules alone) alone).toOption.any List.isEmpty).isSome = true := by
    rw [ht']
    decide +kernel
  obtain ⟨kinds, hkinds⟩ := Option.isSome_iff_exists.1 hkinds
  obtain ⟨e, he, hedited⟩ := exists_loneEdit hb
  obtain ⟨p, hsilent⟩ := Option.isSome_iff_exists.1 hsilent
  simp only [Option.filter_eq_some_iff, toOption_eq_some, Bool.and_eq_true, Option.isNone_iff_eq_none,
    Option.any_eq_true, List.isEmpty_iff] at hsilent
  obtain ⟨hp, hfault, found, hfound, rfl⟩ := hsilent
  rw [hkinds] at hother
  -- the edit is performed, and nothing is found in the new text
  have hstep := fixedText_step "a.py" hknown he (by rw [hedited]; exact ⟨p, hp, hfault⟩) 9
  rw [hedited, fixedText_silent "a.py" hp hfault hfound] at hstep
  obtain ⟨o, ho, hotext⟩ := exists_of_fixedText hstep
  refine ⟨kinds, o, hkinds, ho, hotext, ?_⟩
  rw [hotext]
  exact hother

end Quotes

end HouseStyle
