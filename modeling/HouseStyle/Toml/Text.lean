/-!
# TOML texts and keys

The strings of a TOML document: basic ones with escapes, literal ones without, and
both over several lines. A key is bare or a string, and keys join by dots. The
functions here read from the characters after the opening quote and answer what
was read and the rest.

* `text?` reads a string of any kind.
* `key?` reads a dotted key.
-/

namespace HouseStyle.Toml

/-- What was read from a text and the rest of it, unless the text is malformed. -/
abbrev Step (α : Type) := Option (α × List Char)

/-- A blank inside a line. -/
def isSpace (c : Char) : Bool :=
  c == ' ' || c == '\t'

/-- A blank or a line break. -/
def isSpaceOrBreak (c : Char) : Bool :=
  isSpace c || c == '\n'

/-- The rest of a text after blanks. -/
def skipSpace (cs : List Char) : List Char :=
  cs.dropWhile isSpace

/-- A character that no comment and no string on one line holds. -/
def isForbidden (c : Char) : Bool :=
  (decide (c.toNat < 32) && c != '\t') || c.toNat == 127

/-- A character that no string over several lines holds. -/
def isForbiddenInLines (c : Char) : Bool :=
  isForbidden c && c != '\n'

/-! ### Escapes -/

/-- The character that a letter stands for after a backslash. -/
def simpleEscape? : Char → Option Char
  | 'b' => some '\x08'
  | 't' => some '\t'
  | 'n' => some '\n'
  | 'f' => some '\x0c'
  | 'r' => some '\r'
  | '"' => some '"'
  | '\\' => some '\\'
  | _ => none

/-- The value of a hexadecimal digit. -/
def hexValue? (c : Char) : Option Nat :=
  if c.isDigit then some (c.toNat - 48)
  else if 'a' ≤ c ∧ c ≤ 'f' then some (c.toNat - 87)
  else if 'A' ≤ c ∧ c ≤ 'F' then some (c.toNat - 55)
  else none

/-- The number that hexadecimal digits write. -/
def hexNumber? (digits : List Char) : Option Nat :=
  digits.foldlM (fun n c => (hexValue? c).map (16 * n + ·)) 0

/-- The character of a code point, unless it is a surrogate or too large. -/
def scalar? (n : Nat) : Option Char :=
  if n < 0xD800 ∨ (0xDFFF < n ∧ n < 0x110000) then some (Char.ofNat n) else none

/-- The character whose code point is written with so many hexadecimal digits. -/
def codePoint? (width : Nat) (cs : List Char) : Step Char :=
  let digits := cs.take width
  if digits.length = width then
    ((hexNumber? digits).bind scalar?).map fun c => (c, cs.drop width)
  else none

/-- The character that an escape stands for, after its backslash. -/
def escape? : List Char → Step Char
  | [] => none
  | 'u' :: rest => codePoint? 4 rest
  | 'U' :: rest => codePoint? 8 rest
  | c :: rest => (simpleEscape? c).map fun e => (e, rest)

theorem length_of_codePoint? {width : Nat} {cs rest : List Char} {c : Char}
    (h : codePoint? width cs = some (c, rest)) : rest.length ≤ cs.length := by
  simp only [codePoint?] at h
  split at h
  · obtain ⟨_, _, he⟩ := Option.map_eq_some_iff.1 h
    have : rest = cs.drop width := (congrArg Prod.snd he).symm
    simp [this]
  · simp at h

theorem length_of_escape? {cs rest : List Char} {c : Char} (h : escape? cs = some (c, rest)) :
    rest.length < cs.length := by
  unfold escape? at h
  split at h
  · simp at h
  · have := length_of_codePoint? h
    simp only [List.length_cons]
    omega
  · have := length_of_codePoint? h
    simp only [List.length_cons]
    omega
  · obtain ⟨_, _, he⟩ := Option.map_eq_some_iff.1 h
    have : _ = rest := congrArg Prod.snd he
    simp [← this]

/-- The rest of a text after a backslash at the end of a line: blanks, a line break
and all blanks and line breaks after it. -/
def lineContinuation? (cs : List Char) : Option (List Char) :=
  match skipSpace cs with
  | '\n' :: rest => some (rest.dropWhile isSpaceOrBreak)
  | _ => none

theorem length_of_lineContinuation? {cs rest : List Char} (h : lineContinuation? cs = some rest) :
    rest.length < cs.length := by
  have drop_le (p : Char → Bool) (l : List Char) : (l.dropWhile p).length ≤ l.length :=
    (List.dropWhile_sublist p).length_le
  unfold lineContinuation? at h
  split at h
  · rename_i tail hs
    have hskip := drop_le isSpace cs
    have htail := drop_le isSpaceOrBreak tail
    rw [show cs.dropWhile isSpace = '\n' :: tail from hs] at hskip
    obtain rfl := Option.some.inj h
    simp only [List.length_cons] at hskip
    omega
  · simp at h

/-! ### Strings -/

/-- A basic string on one line; `read` are its characters so far, last one first. -/
def basicText? (read : List Char) (cs : List Char) : Step String :=
  match cs with
  | [] => none
  | '"' :: rest => some (String.ofList read.reverse, rest)
  | '\\' :: rest =>
    match h : escape? rest with
    | none => none
    | some (c, rest') =>
      have := length_of_escape? h
      basicText? (c :: read) rest'
  | c :: rest => if isForbidden c then none else basicText? (c :: read) rest
termination_by cs.length

/-- A literal string on one line. -/
def literalText? (cs : List Char) : Step String :=
  let body := cs.takeWhile (· != '\'')
  match cs.dropWhile (· != '\'') with
  | _ :: rest => if body.any isForbidden then none else some (String.ofList body, rest)
  | [] => none

/-- Up to two further quotes right after the end of a string over several lines,
which belong to it. -/
def trailingQuotes (quote : Char) (read : List Char) : List Char → String × List Char
  | a :: b :: rest =>
    if a = quote ∧ b = quote then (String.ofList (quote :: quote :: read).reverse, rest)
    else if a = quote then (String.ofList (quote :: read).reverse, b :: rest)
    else (String.ofList read.reverse, a :: b :: rest)
  | [a] =>
    if a = quote then (String.ofList (quote :: read).reverse, [])
    else (String.ofList read.reverse, [a])
  | [] => (String.ofList read.reverse, [])

/-- A basic string over several lines; `read` are its characters so far, last one
first. -/
def basicLines? (read : List Char) (cs : List Char) : Step String :=
  match cs with
  | [] => none
  | '"' :: '"' :: '"' :: rest => some (trailingQuotes '"' read rest)
  | '\\' :: rest =>
    if (rest.head?).any isSpaceOrBreak then
      match h : lineContinuation? rest with
      | none => none
      | some rest' =>
        have := length_of_lineContinuation? h
        basicLines? read rest'
    else
      match h : escape? rest with
      | none => none
      | some (c, rest') =>
        have := length_of_escape? h
        basicLines? (c :: read) rest'
  | c :: rest => if isForbiddenInLines c then none else basicLines? (c :: read) rest
termination_by cs.length

/-- A literal string over several lines; `read` are its characters so far, last one
first. -/
def literalLines? (read : List Char) : List Char → Step String
  | [] => none
  | '\'' :: '\'' :: '\'' :: rest => some (trailingQuotes '\'' read rest)
  | c :: rest => if isForbiddenInLines c then none else literalLines? (c :: read) rest

/-- A text without the line break at its start. -/
def dropFirstBreak : List Char → List Char
  | '\n' :: rest => rest
  | cs => cs

/-- A string of any kind, from its opening quote on. -/
def text? : List Char → Step String
  | '"' :: '"' :: '"' :: rest => basicLines? [] (dropFirstBreak rest)
  | '\'' :: '\'' :: '\'' :: rest => literalLines? [] (dropFirstBreak rest)
  | '"' :: rest => basicText? [] rest
  | '\'' :: rest => literalText? rest
  | _ => none

/-! ### Keys -/

/-- A character of a bare key. -/
def isBareKeyChar (c : Char) : Bool :=
  c.isAlphanum || c == '-' || c == '_'

/-- A bare key or a string on one line. -/
def keyPart? (cs : List Char) : Step String :=
  match cs with
  | [] => none
  | '"' :: rest => basicText? [] rest
  | '\'' :: rest => literalText? rest
  | c :: _ =>
    if isBareKeyChar c then
      some (String.ofList (cs.takeWhile isBareKeyChar), cs.dropWhile isBareKeyChar)
    else none

/-- The parts of a dotted key, of which there are at most `limit`, and the rest
after blanks. -/
def keyParts? : Nat → List Char → Step (List String)
  | 0, _ => none
  | limit + 1, cs =>
    match keyPart? cs with
    | none => none
    | some (part, rest) =>
      match skipSpace rest with
      | '.' :: rest' => (keyParts? limit (skipSpace rest')).map fun (parts, r) => (part :: parts, r)
      | rest' => some ([part], rest')

/-- A dotted key and the rest after blanks. -/
def key? (cs : List Char) : Step (List String) :=
  keyParts? (cs.length + 1) cs

end HouseStyle.Toml
