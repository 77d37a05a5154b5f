import HouseStyle.Python.Identifier
import HouseStyle.Python.Token
import HouseStyle.Text.Cursor

/-!
# Cutting Python text into tokens

The lexer walks over the text by offset. It keeps the stack of indentations, the
brackets that are open and the format strings it is inside of. Inside brackets a
line break is white space. A carriage return, alone or before a line feed, ends a
line as well as a line feed does.

* `tokenize` cuts a whole text, or refuses it: an unclosed string, a bracket that
  does not match, a wrong indentation, a malformed number or name, a stray
  character.
-/

namespace HouseStyle.Python

open Cursor (skipWhile)

/-- A format string that the lexer is inside of: its quote, the brackets open in
it, and how many of them have reached their format specification. -/
structure FormatString where
  quote : Char
  triple : Bool
  raw : Bool
  brackets : Nat
  specs : Nat

namespace FormatString

/-- Whether the next character belongs to an expression. -/
def inExpression (f : FormatString) : Bool :=
  decide (f.specs < f.brackets)

/-- Whether the next character belongs to a format specification. -/
def inSpec (f : FormatString) : Bool :=
  !f.inExpression && decide (0 < f.specs)

/-- One more bracket is open. -/
def enter (f : FormatString) : FormatString :=
  { f with brackets := f.brackets + 1 }

/-- One bracket less is open. -/
def leave (f : FormatString) : FormatString :=
  let brackets := f.brackets - 1
  { f with brackets, specs := if brackets = 0 then 0 else f.specs }

/-- The number of characters of the closing quote. -/
def quoteLength (f : FormatString) : Nat :=
  if f.triple then 3 else 1

end FormatString

/-- Whether the same quote stands at three offsets from `pos` on. -/
def tripleQuoteAt (src : Array Char) (quote : Char) (pos : Nat) : Bool :=
  src[pos]? == some quote && src[pos + 1]? == some quote && src[pos + 2]? == some quote

/-- Whether the closing quote of a format string stands at `pos`. -/
def FormatString.closesAt (f : FormatString) (src : Array Char) (pos : Nat) : Bool :=
  if f.triple then tripleQuoteAt src f.quote pos else src[pos]? == some f.quote

/-- The offset after the line break at `pos`, if one stands there. -/
def breakEnd? (src : Array Char) (pos : Nat) : Option Nat :=
  match src[pos]? with
  | some '\n' => some (pos + 1)
  | some '\r' => some (if src[pos + 1]? = some '\n' then pos + 2 else pos + 1)
  | _ => none

/-- Where the lexer stands. -/
structure LexerState where
  pos : Nat
  /-- The next character is the first of its line. -/
  fresh : Bool
  /-- The current line holds no statement so far. -/
  blank : Bool
  /-- The indentations of the open blocks, counted with wide and with narrow
  tabs, innermost first. -/
  indents : List (Nat × Nat)
  /-- The open brackets, innermost first. -/
  brackets : List Char
  /-- The open format strings, innermost first. -/
  formats : List FormatString

/-- The lexer at the start of a text. -/
def LexerState.initial : LexerState :=
  { pos := 0, fresh := true, blank := true, indents := [], brackets := [], formats := [] }

/-- What one step of the lexer yields: tokens, and the state to go on from unless
the text is at its end. -/
abbrev LexerStep := Option (List Token × Option LexerState)

/-- A token of the text. -/
def tokenAt (src : Array Char) (kind : TokenKind) (start stop : Nat) : Token :=
  { kind, text := Cursor.text src start stop, start, stop }

/-! ### Indentation -/

/-- The width of the white space from `pos` on, in columns of wide and of narrow
tabs, and the offset after it. A form feed starts the count anew. -/
def measureIndent (src : Array Char) : Nat → Nat → Nat → Nat → Nat × Nat × Nat
  | 0, pos, wide, narrow => (pos, wide, narrow)
  | fuel + 1, pos, wide, narrow =>
    match src[pos]? with
    | some ' ' => measureIndent src fuel (pos + 1) (wide + 1) (narrow + 1)
    | some '\t' => measureIndent src fuel (pos + 1) ((wide / 8 + 1) * 8) (narrow + 1)
    | some '\x0c' => measureIndent src fuel (pos + 1) 0 0
    | _ => (pos, wide, narrow)

/-- The tokens that close the blocks indented deeper than `wide`, and the
indentations left. A line must return to an indentation that is open. -/
def closeBlocks (pos wide narrow : Nat) : List (Nat × Nat) → Option (List Token × List (Nat × Nat))
  | [] => if wide = 0 ∧ narrow = 0 then some ([], []) else none
  | (w, n) :: rest =>
    if wide < w then
      (closeBlocks pos wide narrow rest).map fun (tokens, left) =>
        (⟨.dedent, "", pos, pos⟩ :: tokens, left)
    else if wide = w ∧ narrow = n then some ([], (w, n) :: rest)
    else none

/-- Reads the white space that begins a line. Unless the line is blank or lies
inside brackets, it may open a block or close some. -/
def startLine (src : Array Char) (s : LexerState) : Option (List Token × LexerState) :=
  let (pos, wide, narrow) := measureIndent src (src.size - s.pos) s.pos 0 0
  let blank := src[pos]?.isNone || src[pos]? == some '#' || (breakEnd? src pos).isSome
  let s := { s with pos, fresh := false, blank }
  if blank || !s.brackets.isEmpty then some ([], s)
  else
    let (w, n) := s.indents.headD (0, 0)
    if w < wide then
      if n < narrow then
        some ([⟨.indent, "", pos, pos⟩], { s with indents := (wide, narrow) :: s.indents })
      else none
    else
      (closeBlocks pos wide narrow s.indents).map fun (tokens, indents) =>
        (tokens, { s with indents })

/-! ### Numbers -/

/-- Whether a character is a digit of a base. -/
def isDigitOf (base : Nat) (c : Char) : Bool :=
  if base = 16 then c.isDigit || ('a' ≤ c && c ≤ 'f') || ('A' ≤ c && c ≤ 'F')
  else decide ('0' ≤ c) && decide (c.toNat < 48 + base)

/-- The offset after digits of a base, single underscores between them allowed. -/
def digitsEnd (src : Array Char) (base : Nat) : Nat → Nat → Nat
  | 0, pos => pos
  | fuel + 1, pos =>
    if (src[pos]?).any (isDigitOf base) then digitsEnd src base fuel (pos + 1)
    else if src[pos]? = some '_' ∧ (src[pos + 1]?).any (isDigitOf base) then
      digitsEnd src base fuel (pos + 2)
    else pos

/-- The offset after the decimal digits from `pos` on. -/
def decimalEnd (src : Array Char) (pos : Nat) : Nat :=
  if (src[pos]?).any Char.isDigit then digitsEnd src 10 (src.size - pos) pos else pos

/-- The offset after the exponent at `pos`, or `pos`. -/
def exponentEnd (src : Array Char) (pos : Nat) : Nat :=
  if src[pos]? = some 'e' ∨ src[pos]? = some 'E' then
    let start := if src[pos + 1]? = some '+' ∨ src[pos + 1]? = some '-' then pos + 2 else pos + 1
    if (src[start]?).any Char.isDigit then decimalEnd src start else pos
  else pos

/-- The offset after the mark of an imaginary number at `pos`, or `pos`. -/
def imaginaryEnd (src : Array Char) (pos : Nat) : Nat :=
  if src[pos]? = some 'j' ∨ src[pos]? = some 'J' then pos + 1 else pos

/-- The offset after the number whose whole part ends at `pos`: a fraction, an
exponent and an imaginary mark may follow. -/
def numberTail (src : Array Char) (pos : Nat) : Nat :=
  let fraction := if src[pos]? = some '.' then decimalEnd src (pos + 1) else pos
  imaginaryEnd src (exponentEnd src fraction)

/-- The offset after the digits that follow the mark of a base. -/
def basedEnd? (src : Array Char) (base pos : Nat) : Option Nat :=
  let first := if src[pos]? = some '_' then pos + 1 else pos
  if (src[first]?).any (isDigitOf base) then
    let stop := digitsEnd src base (src.size - first) first
    if (src[stop]?).any Char.isDigit then none else some stop
  else none

/-- The offset after the number at `pos`. A whole number other than zero has no
leading zero, and an underscore stands between digits. -/
def numberEnd? (src : Array Char) (pos : Nat) : Option Nat :=
  let based (base : Nat) := basedEnd? src base (pos + 2)
  match src[pos]?, src[pos + 1]? with
  | some '0', some 'x' | some '0', some 'X' => based 16
  | some '0', some 'o' | some '0', some 'O' => based 8
  | some '0', some 'b' | some '0', some 'B' => based 2
  | _, _ =>
    let whole := decimalEnd src pos
    let stop := numberTail src whole
    let zeros := skipWhile (fun c => c == '0' || c == '_') src whole pos
    if src[whole]? = some '_' then none
    else if src[pos]? = some '0' ∧ zeros < whole ∧ stop = whole then none
    else some stop

/-! ### Strings -/

/-- The offset after the string whose opening quotes end at `pos`. -/
def stringTail? (src : Array Char) (quote : Char) (triple : Bool) : Nat → Nat → Option Nat
  | 0, _ => none
  | fuel + 1, pos =>
    match src[pos]? with
    | none => none
    | some c =>
      if c = '\\' then
        stringTail? src quote triple fuel ((breakEnd? src (pos + 1)).getD (pos + 2))
      else if c = quote then
        if !triple then some (pos + 1)
        else if tripleQuoteAt src quote pos then some (pos + 3)
        else stringTail? src quote triple fuel (pos + 1)
      else if !triple ∧ (c = '\n' ∨ c = '\r') then none
      else stringTail? src quote triple fuel (pos + 1)

/-- The offset after the string whose opening quote stands at `pos`. -/
def stringEnd? (src : Array Char) (quote : Char) (pos : Nat) : Option Nat :=
  if tripleQuoteAt src quote pos then stringTail? src quote true (src.size - pos) (pos + 3)
  else stringTail? src quote false (src.size - pos) (pos + 1)

/-- The letters before a quote that make a string raw, a string of bytes or a
format string. -/
def stringMarks : List (List Char) :=
  [['b', 'r'], ['f', 'r'], ['r', 'b'], ['r', 'f'], ['u'], ['r'], ['b'], ['f']]

/-- The letters, in lower case, of a string that starts with letters at `pos`. -/
def stringMark? (src : Array Char) (pos : Nat) : Option (List Char) :=
  stringMarks.find? fun mark =>
    let letters := (src.extract pos (pos + mark.length)).toList.map Char.toLower
    let next := src[pos + mark.length]?
    letters == mark && (next == some '"' || next == some '\'')

/-- Whether a quote at `pos` closes one of the open format strings. -/
def closesSome (src : Array Char) (formats : List FormatString) (pos : Nat) : Bool :=
  formats.any fun f => f.closesAt src pos

/-- The offset after the text of a format string from `pos` on; `named` tells that
the name of a character is open. -/
def formatTextEnd? (src : Array Char) (formats : List FormatString) (f : FormatString) :
    Nat → Bool → Nat → Option Nat
  | 0, _, _ => none
  | fuel + 1, named, pos =>
    let go := formatTextEnd? src formats f fuel
    match src[pos]? with
    | none => none
    | some c =>
      if (c = '\n' ∨ c = '\r') ∧ !f.triple ∧ !f.inExpression then none
      else if c = '"' ∨ c = '\'' then
        if closesSome src formats pos then some pos else go named (pos + 1)
      else if c = '\\' then
        let next := src[pos + 1]?
        if next = some '{' ∨ next = some '}' then go named (pos + 1)
        else if !f.raw ∧ next = some 'N' ∧ src[pos + 2]? = some '{' then go true (pos + 3)
        else if f.raw ∧ next ≠ some '"' ∧ next ≠ some '\'' ∧ next ≠ some '\\' then
          go named (pos + 1)
        else go named ((breakEnd? src (pos + 1)).getD (pos + 2))
      else if c = '{' then
        if !f.inSpec ∧ src[pos + 1]? = some '{' then go named (pos + 2) else some pos
      else if c = '}' then
        if named then go false (pos + 1)
        else if !f.inSpec ∧ src[pos + 1]? = some '}' then go named (pos + 2)
        else some pos
      else go named (pos + 1)

/-! ### Operators -/

/-- The operators of more than one character, longer ones first. -/
def longOperators : List (List Char) :=
  [['*', '*', '='], ['/', '/', '='], ['>', '>', '='], ['<', '<', '='], ['.', '.', '.'],
    ['=', '='], ['!', '='], ['<', '>'], ['<', '='], ['>', '='], ['-', '>'], [':', '='],
    ['+', '='], ['-', '='], ['*', '='], ['/', '='], ['%', '='], ['&', '='], ['|', '='],
    ['^', '='], ['@', '='], ['*', '*'], ['/', '/'], ['>', '>'], ['<', '<']]

/-- The operators of one character. -/
def shortOperators : List Char :=
  "+-*/%@&|^~<>=.,:;!".toList

/-- The bracket that a closing bracket answers. -/
def openingOf? : Char → Option Char
  | ')' => some '('
  | ']' => some '['
  | '}' => some '{'
  | _ => none

/-- Applies a change to the innermost open format string. -/
def changeInnermost (change : FormatString → FormatString) : List FormatString → List FormatString
  | [] => []
  | f :: rest => change f :: rest

/-- The step over an operator or bracket at the lexer's position. A colon directly
inside a replacement field starts its format specification. -/
def operatorStep (src : Array Char) (s : LexerState) : LexerStep :=
  let emit (length : Nat) (s' : LexerState) : LexerStep :=
    some ([tokenAt src .operator s.pos (s.pos + length)],
      some { s' with pos := s.pos + length })
  match src[s.pos]? with
  | none => none
  | some c =>
    let startsSpec := c == ':' && (s.formats.head?).any fun f => f.brackets == f.specs + 1
    if c = '(' ∨ c = '[' ∨ c = '{' then
      emit 1 { s with
        brackets := c :: s.brackets, formats := changeInnermost FormatString.enter s.formats }
    else if c = ')' ∨ c = ']' ∨ c = '}' then
      match s.brackets with
      | [] => none
      | b :: rest =>
        if openingOf? c = some b then
          emit 1 { s with
            brackets := rest, formats := changeInnermost FormatString.leave s.formats }
        else none
    else if startsSpec then
      emit 1 { s with
        formats := changeInnermost (fun f => { f with specs := f.specs + 1 }) s.formats }
    else
      match longOperators.find? fun o =>
          (src.extract s.pos (s.pos + o.length)).toList == o with
      | some o => emit o.length s
      | none => if shortOperators.contains c then emit 1 s else none

/-! ### Steps -/

/-- Whether a character can belong to a name, as far as the lexer looks. -/
def isNameLike (c : Char) : Bool :=
  c == '_' || c.isAlphanum || decide (127 < c.toNat)

/-- The step over a name. -/
def nameStep (src : Array Char) (s : LexerState) : LexerStep :=
  let stop := skipWhile isNameLike src src.size s.pos
  match (src.extract s.pos stop).toList with
  | [] => none
  | c :: rest =>
    if Identifier.isStart c && rest.all Identifier.isContinue then
      some ([tokenAt src .name s.pos stop], some { s with pos := stop })
    else none

/-- The step over a string, or the opening of a format string, whose letters are
`mark`. -/
def stringStep (src : Array Char) (s : LexerState) (mark : List Char) : LexerStep :=
  let quotePos := s.pos + mark.length
  match src[quotePos]? with
  | none => none
  | some quote =>
    if mark.contains 'f' then
      let triple := tripleQuoteAt src quote quotePos
      let f : FormatString :=
        { quote, triple, raw := mark.contains 'r', brackets := 0, specs := 0 }
      let stop := quotePos + f.quoteLength
      some ([tokenAt src .formatOpen s.pos stop],
        some { s with pos := stop, formats := f :: s.formats })
    else
      (stringEnd? src quote quotePos).map fun stop =>
        ([tokenAt src .string s.pos stop], some { s with pos := stop })

/-- The tokens that end a text: the break of its last line, unless that is blank,
and the ends of the open blocks. -/
def finalTokens (src : Array Char) (s : LexerState) : List Token :=
  let here (kind : TokenKind) : Token := ⟨kind, "", src.size, src.size⟩
  (if s.blank then [] else [here .newline]) ++
    s.indents.map (fun _ => here .dedent) ++ [here .stop]

/-- The step over a backslash, which joins the next line to this one. -/
def continuationStep (src : Array Char) (s : LexerState) : LexerStep :=
  match breakEnd? src (s.pos + 1) with
  | some next => if next < src.size then some ([], some { s with pos := next }) else none
  | none => none

/-- The step at a character that is neither blank nor in a comment. -/
def plainStep (src : Array Char) (s : LexerState) : LexerStep :=
  match src[s.pos]? with
  | none => some (finalTokens src s, none)
  | some c =>
    match breakEnd? src s.pos with
    | some next =>
      let s' := { s with pos := next, fresh := true }
      if s.blank || !s.brackets.isEmpty then some ([], some s')
      else some ([tokenAt src .newline s.pos next], some s')
    | none =>
      if c = '\\' then continuationStep src s
      else if c = '"' ∨ c = '\'' then stringStep src s []
      else if c.isDigit || (c == '.' && (src[s.pos + 1]?).any Char.isDigit) then
        (numberEnd? src s.pos).map fun stop =>
          ([tokenAt src .number s.pos stop], some { s with pos := stop })
      else if isNameLike c then
        match stringMark? src s.pos with
        | some mark => stringStep src s mark
        | none => nameStep src s
      else operatorStep src s

/-- The step outside of the texts of format strings: white space and comments are
passed over first. -/
def codeStep (src : Array Char) (s : LexerState) : LexerStep :=
  let start := if s.fresh then startLine src s else some ([], s)
  start.bind fun (tokens, s) =>
    let afterBlanks :=
      skipWhile (fun c => c == ' ' || c == '\t' || c == '\x0c') src src.size s.pos
    let pos :=
      if src[afterBlanks]? = some '#' then
        skipWhile (fun c => c != '\n' && c != '\r') src src.size afterBlanks
      else afterBlanks
    (plainStep src { s with pos }).map fun (more, next) => (tokens ++ more, next)

/-- One step of the lexer. -/
def lexerStep (src : Array Char) (s : LexerState) : LexerStep :=
  match s.formats with
  | [] => codeStep src s
  | f :: rest =>
    if f.inExpression then codeStep src s
    else
      match formatTextEnd? src s.formats f (src.size + 1 - s.pos) false s.pos with
      | none => none
      | some stop =>
        if s.pos < stop then
          some ([tokenAt src .formatText s.pos stop], some { s with pos := stop })
        else if f.closesAt src s.pos then
          let stop := s.pos + f.quoteLength
          some ([tokenAt src .formatClose s.pos stop],
            some { s with pos := stop, formats := rest })
        else plainStep src s

/-- The tokens from a state on. Every step but the last moves on, so the length of
the text bounds their number. -/
def tokensFrom (src : Array Char) : Nat → LexerState → Array Token → Option (Array Token)
  | 0, _, _ => none
  | fuel + 1, s, done =>
    match lexerStep src s with
    | none => none
    | some (tokens, none) => some (done ++ tokens)
    | some (tokens, some next) => tokensFrom src fuel next (done ++ tokens)

/-- The tokens of a text. -/
def tokenize (src : Array Char) : Option (Array Token) :=
  tokensFrom src (src.size + 2) .initial #[]

end HouseStyle.Python
