import HouseStyle.Data
import HouseStyle.Text.Quoted

/-!
# JSON

Structured data as JSON text. The printer writes ASCII alone and either one line
or one value per line with two spaces of indentation; the reader accepts any JSON
text, keeps the order of keys, keeps integers exact and lets the last of several
equal keys win.

* `Json.quote` writes a text, `Json.render` an indented value, `Json.line` a
  value on one line.
* `Json.parse?` reads a value.
-/

namespace HouseStyle.Json

/-! ### Writing -/

/-- A code unit as an escape. -/
def unitEscape (n : Nat) : List Char :=
  '\\' :: 'u' :: Quoted.hex 4 n

/-- What stands for one character of a text: itself, or an escape; a character
beyond the basic plane takes a pair of surrogate units. -/
def escape (c : Char) : List Char :=
  if c = '"' ∨ c = '\\' then ['\\', c]
  else if c = '\n' then ['\\', 'n']
  else if c = '\r' then ['\\', 'r']
  else if c = '\t' then ['\\', 't']
  else if c = '\x0c' then ['\\', 'f']
  else if c = '\x08' then ['\\', 'b']
  else if 32 ≤ c.toNat ∧ c.toNat < 127 then [c]
  else if c.toNat < 0x10000 then unitEscape c.toNat
  else
    let n := c.toNat - 0x10000
    unitEscape (0xD800 + n / 0x400) ++ unitEscape (0xDC00 + n % 0x400)

/-- A text between double quotes. -/
def quote (s : String) : String :=
  String.ofList ('"' :: s.toList.flatMap escape ++ ['"'])

/-- A value that holds no others. -/
def scalar : Data → String
  | .null => "null"
  | .bool true => "true"
  | .bool false => "false"
  | .int n => toString n
  | .float spelling => spelling
  | .text s => quote s
  | .moment _ spelling => quote spelling
  | .list _ => "[]"
  | .table _ => "\x7b\x7d"

mutual

/-- A value on one line. -/
def line : Data → String
  | .list items => "[" ++ ", ".intercalate (lineItems items) ++ "]"
  | .table entries => "\x7b" ++ ", ".intercalate (lineEntries entries) ++ "\x7d"
  | d => scalar d

/-- The items of a list, each on one line. -/
def lineItems : List Data → List String
  | [] => []
  | d :: rest => line d :: lineItems rest

/-- The entries of a table, each on one line. -/
def lineEntries : List (String × Data) → List String
  | [] => []
  | (k, d) :: rest => (quote k ++ ": " ++ line d) :: lineEntries rest

end

/-- Lays out the parts of a list or table one per line between two brackets. -/
def block (opening closing : String) (indent : String) (parts : List String) : String :=
  if parts.isEmpty then opening ++ closing
  else
    opening ++ "\n" ++ ",\n".intercalate (parts.map fun p => indent ++ "  " ++ p) ++
      "\n" ++ indent ++ closing

mutual

/-- A value over several lines, the first of which is indented already. -/
def renderAt (indent : String) : Data → String
  | .list items => block "[" "]" indent (renderItems (indent ++ "  ") items)
  | .table entries => block "\x7b" "\x7d" indent (renderEntries (indent ++ "  ") entries)
  | d => scalar d

/-- The items of a list, each with the given indentation. -/
def renderItems (indent : String) : List Data → List String
  | [] => []
  | d :: rest => renderAt indent d :: renderItems indent rest

/-- The entries of a table, each with the given indentation. -/
def renderEntries (indent : String) : List (String × Data) → List String
  | [] => []
  | (k, d) :: rest => (quote k ++ ": " ++ renderAt indent d) :: renderEntries indent rest

end

/-- A value over several lines. -/
def render (d : Data) : String :=
  renderAt "" d

/-! ### Reading -/

/-- Characters between the tokens of a document. -/
def isSpace (c : Char) : Bool :=
  c == ' ' || c == '\t' || c == '\n' || c == '\r'

/-- The rest of a document from its next token on. -/
def skip (cs : List Char) : List Char :=
  cs.dropWhile isSpace

/-- The value of a hexadecimal digit. -/
def hexValue? (c : Char) : Option Nat :=
  if '0' ≤ c ∧ c ≤ '9' then some (c.toNat - 48)
  else if 'a' ≤ c ∧ c ≤ 'f' then some (c.toNat - 87)
  else if 'A' ≤ c ∧ c ≤ 'F' then some (c.toNat - 55)
  else none

/-- The number written by hexadecimal digits, all of which must be such. -/
def hexNumber? (digits : List Char) : Option Nat :=
  digits.foldlM (fun n c => (hexValue? c).map (16 * n + ·)) 0

/-- The number written by four hexadecimal digits, and the rest. -/
def unit? : List Char → Option (Nat × List Char)
  | a :: b :: c :: d :: rest => (hexNumber? [a, b, c, d]).map (·, rest)
  | _ => none

/-- The character that a letter stands for after a backslash. -/
def simpleEscape? (c : Char) : Option Char :=
  match c with
  | '"' => some '"'
  | '\\' => some '\\'
  | '/' => some '/'
  | 'n' => some '\n'
  | 'r' => some '\r'
  | 't' => some '\t'
  | 'f' => some '\x0c'
  | 'b' => some '\x08'
  | _ => none

/-- The character after `\u`: one unit, or a pair of surrogates. -/
def unicodeEscape? (cs : List Char) : Option (Char × List Char) :=
  match unit? cs with
  | none => none
  | some (n, rest) =>
    if 0xD800 ≤ n ∧ n < 0xDC00 then
      match rest with
      | '\\' :: 'u' :: rest2 =>
        match unit? rest2 with
        | some (m, rest3) =>
          some (Char.ofNat (0x10000 + (n - 0xD800) * 0x400 + (m - 0xDC00)), rest3)
        | none => none
      | _ => none
    else some (Char.ofNat n, rest)

/-- Reads a text up to its closing quote; `done` holds its characters, last one
first, and `fuel` bounds the characters still to read. -/
def textFrom (done : List Char) : Nat → List Char → Option (String × List Char)
  | 0, _ => none
  | _ + 1, [] => none
  | fuel + 1, c :: rest =>
    if c = '"' then some (String.ofList done.reverse, rest)
    else if c = '\\' then
      match rest with
      | [] => none
      | 'u' :: rest2 =>
        match unicodeEscape? rest2 with
        | some (d, rest3) => textFrom (d :: done) fuel rest3
        | none => none
      | e :: rest2 =>
        match simpleEscape? e with
        | some d => textFrom (d :: done) fuel rest2
        | none => none
    else textFrom (c :: done) fuel rest

/-- Whether a character can stand in a number. -/
def isNumberChar (c : Char) : Bool :=
  c.isDigit || c == '-' || c == '+' || c == '.' || c == 'e' || c == 'E'

/-- The number that digits write. -/
def natural (digits : List Char) : Nat :=
  digits.foldl (fun n c => 10 * n + (c.toNat - 48)) 0

/-- The value of a number's spelling: an integer when it is made of digits. -/
def number? (cs : List Char) : Option Data :=
  let digits := cs.dropWhile (· == '-')
  if digits.isEmpty then none
  else if digits.all Char.isDigit then
    some (.int (if cs.head? = some '-' then -(natural digits : Int) else natural digits))
  else some (.float (String.ofList cs))

mutual

/-- Reads a value; `fuel` bounds the depth of the recursion. -/
def valueFrom : Nat → List Char → Option (Data × List Char)
  | 0, _ => none
  | fuel + 1, cs =>
    match skip cs with
    | [] => none
    | '"' :: rest => (textFrom [] (rest.length + 1) rest).map fun (s, r) => (.text s, r)
    | '[' :: rest =>
      match skip rest with
      | ']' :: r => some (.list [], r)
      | r => itemsFrom fuel [] r
    | '{' :: rest =>
      match skip rest with
      | '}' :: r => some (.table [], r)
      | r => entriesFrom fuel [] r
    | 't' :: 'r' :: 'u' :: 'e' :: r => some (.bool true, r)
    | 'f' :: 'a' :: 'l' :: 's' :: 'e' :: r => some (.bool false, r)
    | 'n' :: 'u' :: 'l' :: 'l' :: r => some (.null, r)
    | c :: rest =>
      (number? ((c :: rest).takeWhile isNumberChar)).map
        (·, (c :: rest).dropWhile isNumberChar)

/-- Reads the items of a list up to its closing bracket; `done` holds those read
so far, last one first. -/
def itemsFrom : Nat → List Data → List Char → Option (Data × List Char)
  | 0, _, _ => none
  | fuel + 1, done, cs =>
    match valueFrom fuel cs with
    | none => none
    | some (d, rest) =>
      match skip rest with
      | ',' :: r => itemsFrom fuel (d :: done) r
      | ']' :: r => some (.list (d :: done).reverse, r)
      | _ => none

/-- Reads the entries of a table up to its closing brace. -/
def entriesFrom : Nat → List (String × Data) → List Char → Option (Data × List Char)
  | 0, _, _ => none
  | fuel + 1, done, cs =>
    match skip cs with
    | '"' :: rest =>
      match textFrom [] (rest.length + 1) rest with
      | none => none
      | some (key, rest2) =>
        match skip rest2 with
        | ':' :: rest3 =>
          match valueFrom fuel rest3 with
          | none => none
          | some (d, rest4) =>
            match skip rest4 with
            | ',' :: r => entriesFrom fuel (Data.put key d done) r
            | '}' :: r => some (.table (Data.put key d done), r)
            | _ => none
        | _ => none
    | _ => none

end

/-- The value that a JSON text writes. -/
def parse? (s : String) : Option Data :=
  let cs := s.toList
  match valueFrom (cs.length + 1) cs with
  | some (d, rest) => if (skip rest).isEmpty then some d else none
  | none => none

end HouseStyle.Json
