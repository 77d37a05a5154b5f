import HouseStyle.Toml.Number

/-!
# TOML documents

A document is a table, written statement by statement: a pair of key and value, the
header of a table, or the header of a further table of a list. Marks on dotted keys
keep a document from saying a thing twice.

* `parse?` is the table of a document, unless the document is malformed.
* `insertAt?` writes into a table along a dotted key.
-/

namespace HouseStyle.Toml

/-- The entries of a table. -/
abbrev Entries := List (String × Data)

/-- A dotted key. -/
abbrev Key := List String

/-! ### Tables -/

/-- Changes the entries of the table at a key; tables on the way come into being.
A list on the way stands for its last table, if `throughLists`. -/
def insertAt? (throughLists : Bool) (change : Entries → Option Entries) :
    Key → Entries → Option Entries
  | [], entries => change entries
  | k :: ks, entries =>
    match Data.lookup k entries with
    | none => (insertAt? throughLists change ks []).map fun sub => Data.put k (.table sub) entries
    | some (.table sub) =>
      (insertAt? throughLists change ks sub).map fun sub' => Data.put k (.table sub') entries
    | some (.list items) =>
      match throughLists, items.getLast? with
      | true, some (.table sub) =>
        (insertAt? throughLists change ks sub).map fun sub' =>
          Data.put k (.list (items.dropLast ++ [.table sub'])) entries
      | _, _ => none
    | some _ => none

/-- Adds a key to a table that does not have it. -/
def addNew (k : String) (value : Data) (entries : Entries) : Option Entries :=
  if (Data.lookup k entries).isSome then none else some (Data.put k value entries)

/-- Adds an empty table to the list under a key, or begins that list. -/
def appendTable (k : String) (entries : Entries) : Option Entries :=
  match Data.lookup k entries with
  | none => some (Data.put k (.list [.table []]) entries)
  | some (.list items) => some (Data.put k (.list (items ++ [.table []])) entries)
  | some _ => none

/-- Whether a value is a list or a table. -/
def isNested : Data → Bool
  | .list _ | .table _ => true
  | _ => false

/-- Whether a key is one of `frozen` or below one. -/
def isBelow (frozen : List Key) (key : Key) : Bool :=
  !key.isEmpty && frozen.any fun f => f.isPrefixOf key

/-! ### Values -/

/-- The rest of a text after blanks, line breaks and comments; `inComment` says that
the text begins inside a comment. -/
def skipTrivia? (inComment : Bool) : List Char → Option (List Char)
  | [] => some []
  | c :: rest =>
    if inComment then
      if c = '\n' then skipTrivia? false rest
      else if isForbidden c then none
      else skipTrivia? true rest
    else if isSpaceOrBreak c then skipTrivia? false rest
    else if c = '#' then skipTrivia? true rest
    else some (c :: rest)

/-- A value that holds no others. -/
def simpleValue? (cs : List Char) : Step Data :=
  match cs with
  | 't' :: 'r' :: 'u' :: 'e' :: rest => some (.bool true, rest)
  | 'f' :: 'a' :: 'l' :: 's' :: 'e' :: rest => some (.bool false, rest)
  | '"' :: _ | '\'' :: _ => (text? cs).map fun (s, rest) => (.text s, rest)
  | _ =>
    match dateOrDateTime? cs with
    | some result => result
    | none =>
      match time? cs with
      | some result => some result
      | none => number? cs

mutual

/-- A value; lists and tables inside each other take at most `fuel` steps. -/
def value? (fuel : Nat) (cs : List Char) : Step Data :=
  match fuel, cs with
  | 0, _ => none
  | fuel + 1, '[' :: rest =>
    match skipTrivia? false rest with
    | some (']' :: rest') => some (.list [], rest')
    | some rest' => (items? fuel rest').map fun (items, r) => (.list items, r)
    | none => none
  | fuel + 1, '\x7b' :: rest =>
    match skipSpace rest with
    | '\x7d' :: rest' => some (.table [], rest')
    | rest' => (pairs? fuel [] [] rest').map fun (entries, r) => (.table entries, r)
  | _ + 1, cs => simpleValue? cs

/-- The items of a list up to its closing bracket. -/
def items? (fuel : Nat) (cs : List Char) : Step (List Data) :=
  match fuel with
  | 0 => none
  | fuel + 1 =>
    match value? fuel cs with
    | none => none
    | some (d, rest) =>
      match skipTrivia? false rest with
      | some (']' :: rest') => some ([d], rest')
      | some (',' :: rest') =>
        match skipTrivia? false rest' with
        | some (']' :: rest'') => some ([d], rest'')
        | some rest'' => (items? fuel rest'').map fun (ds, r) => (d :: ds, r)
        | none => none
      | _ => none

/-- The pairs of an inline table up to its closing brace; `frozen` are the keys
whose values are lists and tables. -/
def pairs? (fuel : Nat) (frozen : List Key) (entries : Entries) (cs : List Char) : Step Entries :=
  match fuel with
  | 0 => none
  | fuel + 1 =>
    match key? cs with
    | some (key, '=' :: rest) =>
      match value? fuel (skipSpace rest) with
      | none => none
      | some (d, rest) =>
        match isBelow frozen key, key.getLast? with
        | false, some stem =>
          match insertAt? false (addNew stem d) key.dropLast entries with
          | none => none
          | some entries' =>
            match skipSpace rest with
            | '\x7d' :: rest' => some (entries', rest')
            | ',' :: rest' =>
              pairs? fuel (if isNested d then key :: frozen else frozen) entries' (skipSpace rest')
            | _ => none
        | _, _ => none
    | _ => none

end

/-! ### Statements -/

/-- What the statements so far have said. -/
structure Document where
  entries : Entries
  /-- The keys whose values were written out and cannot be added to. -/
  frozen : List Key
  /-- The keys of tables that cannot be declared again. -/
  declared : List Key
  /-- The keys that cannot be declared from the next header on. -/
  pending : List Key
  /-- The key of the table that pairs are added to. -/
  header : Key

namespace Document

/-- A document without statements. -/
def empty : Document :=
  { entries := [], frozen := [], declared := [], pending := [], header := [] }

/-- Makes the pending keys count. -/
def settlePending (d : Document) : Document :=
  { d with declared := d.pending ++ d.declared, pending := [] }

/-- The header of a table. -/
def declareTable? (d : Document) (key : Key) : Option Document :=
  if d.declared.contains key || isBelow d.frozen key then none
  else
    (insertAt? true some key d.entries).map fun entries =>
      { d with entries, declared := key :: d.declared, header := key }

/-- Forgets the marks at and below a key. -/
def release (d : Document) (key : Key) : Document :=
  { d with
    frozen := d.frozen.filter fun k => !key.isPrefixOf k
    declared := d.declared.filter fun k => !key.isPrefixOf k }

/-- The header of a further table of a list. -/
def declareListTable? (d : Document) (key : Key) : Option Document :=
  match isBelow d.frozen key, key.getLast? with
  | false, some stem =>
    let d' := d.release key
    (insertAt? true (appendTable stem) key.dropLast d'.entries).map fun entries =>
      { d' with entries, declared := key :: d'.declared, header := key }
  | _, _ => none

/-- The keys on the way to a dotted key in the current table. -/
def onTheWay (d : Document) (key : Key) : List Key :=
  (List.range' 1 (key.length - 1)).map fun n => d.header ++ key.take n

/-- A pair of key and value. -/
def addPair? (d : Document) (key : Key) (value : Data) : Option Document :=
  let way := d.onTheWay key
  let parent := d.header ++ key.dropLast
  match way.any d.declared.contains || isBelow d.frozen parent, key.getLast? with
  | false, some stem =>
    (insertAt? true (addNew stem value) parent d.entries).map fun entries =>
      { d with
        entries, pending := way ++ d.pending
        frozen := if isNested value then (d.header ++ key) :: d.frozen else d.frozen }
  | _, _ => none

/-- A statement at the start of a text, after blanks. -/
def statement? (d : Document) (cs : List Char) : Step Document :=
  match cs with
  | '[' :: '[' :: rest =>
    match key? (skipSpace rest) with
    | some (key, ']' :: ']' :: rest') =>
      (d.settlePending.declareListTable? key).map fun d' => (d', rest')
    | _ => none
  | '[' :: rest =>
    match key? (skipSpace rest) with
    | some (key, ']' :: rest') => (d.settlePending.declareTable? key).map fun d' => (d', rest')
    | _ => none
  | _ =>
    match key? cs with
    | some (key, '=' :: rest) =>
      match value? (2 * cs.length) (skipSpace rest) with
      | some (value, rest') => (d.addPair? key value).map fun d' => (d', rest')
      | none => none
    | _ => none

/-- The rest of a line after a comment, if it begins with one. -/
def afterComment? (cs : List Char) : Option (List Char) :=
  match cs with
  | '#' :: rest =>
    if (rest.takeWhile (· != '\n')).any isForbidden then none else some (rest.dropWhile (· != '\n'))
  | _ => some cs

/-- The rest of a text after the end of a line, which is all that may be left of
it. -/
def endLine? (cs : List Char) : Option (List Char) :=
  match afterComment? (skipSpace cs) with
  | some ('\n' :: rest) => some rest
  | some [] => some []
  | _ => none

/-- The document after all statements of a text of at most `limit` lines. -/
def statements? (d : Document) : Nat → List Char → Option Document
  | 0, _ => none
  | limit + 1, cs =>
    match skipSpace cs with
    | [] => some d
    | '\n' :: rest => d.statements? limit rest
    | '#' :: rest =>
      match endLine? ('#' :: rest) with
      | some rest' => d.statements? limit rest'
      | none => none
    | cs' =>
      match d.statement? cs' with
      | none => none
      | some (d', rest) =>
        match endLine? rest with
        | some rest' => d'.statements? limit rest'
        | none => none

end Document

/-- A text with line feeds in the place of pairs of carriage return and line
feed. -/
def dropReturns : List Char → List Char
  | '\r' :: '\n' :: rest => '\n' :: dropReturns rest
  | c :: rest => c :: dropReturns rest
  | [] => []

/-- The table of a document. -/
def parse? (s : String) : Option Entries :=
  let cs := dropReturns s.toList
  (Document.empty.statements? (cs.length + 1) cs).map Document.entries

end HouseStyle.Toml
