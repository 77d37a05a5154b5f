import HouseStyle.Data
import HouseStyle.Toml.Text

/-!
# TOML numbers and moments

Integers in four bases, decimal fractions, dates and times. Digits may be set apart
by single underscores. A moment has to exist on the calendar.

* `number?` reads an integer or a fraction.
* `dateOrDateTime?` and `time?` read moments.
-/

namespace HouseStyle.Toml

/-! ### Numbers -/

/-- The digits at the start of a text, set apart by single underscores, without
those, and the rest; `p` says which characters are digits. -/
def digits (p : Char → Bool) : List Char → List Char × List Char
  | '_' :: c :: rest =>
    if p c then
      let (ds, r) := digits p rest
      (c :: ds, r)
    else ([], '_' :: c :: rest)
  | c :: rest =>
    if p c then
      let (ds, r) := digits p rest
      (c :: ds, r)
    else ([], c :: rest)
  | [] => ([], [])

/-- Digits of which the first is not set apart. -/
def digits? (p : Char → Bool) (cs : List Char) : Step (List Char) :=
  match cs with
  | c :: _ => if p c then some (digits p cs) else none
  | [] => none

/-- The number that digits write in a base. -/
def valueOf (base : Nat) (ds : List Char) : Nat :=
  ds.foldl (fun n c => base * n + (hexValue? c).getD 0) 0

/-- Whether a character is a digit in a base up to ten. -/
def isDigitBelow (base : Nat) (c : Char) : Bool :=
  c.isDigit && decide (c.toNat < 48 + base)

/-- An integer whose base is marked. -/
def basedInteger? : List Char → Step Data
  | '0' :: 'x' :: rest =>
    (digits? (fun c => (hexValue? c).isSome) rest).map fun (ds, r) => (.int (valueOf 16 ds), r)
  | '0' :: 'b' :: rest =>
    (digits? (isDigitBelow 2) rest).map fun (ds, r) => (.int (valueOf 2 ds), r)
  | '0' :: 'o' :: rest =>
    (digits? (isDigitBelow 8) rest).map fun (ds, r) => (.int (valueOf 8 ds), r)
  | _ => none

/-- The sign at the start of a text and the rest. -/
def sign : List Char → Int × List Char
  | '-' :: rest => (-1, rest)
  | '+' :: rest => (1, rest)
  | cs => (1, cs)

/-- The integer part of a decimal number: a zero alone, or digits that begin with
another digit. -/
def integerPart? : List Char → Step (List Char)
  | '0' :: rest => some (['0'], rest)
  | cs => digits? Char.isDigit cs

/-- The rest of a text after a fraction, if it begins with one. -/
def afterFraction (cs : List Char) : List Char :=
  match cs with
  | '.' :: rest => ((digits? Char.isDigit rest).map Prod.snd).getD cs
  | _ => cs

/-- The rest of a text after an exponent, if it begins with one. -/
def afterExponent (cs : List Char) : List Char :=
  match cs with
  | c :: rest =>
    if c = 'e' ∨ c = 'E' then ((digits? Char.isDigit (sign rest).2).map Prod.snd).getD cs else cs
  | [] => cs

/-- A decimal integer or fraction. -/
def decimal? (cs : List Char) : Step Data :=
  let (factor, unsigned) := sign cs
  match integerPart? unsigned with
  | none => none
  | some (ds, rest) =>
    let rest' := afterExponent (afterFraction rest)
    if rest'.length = rest.length then some (.int (factor * valueOf 10 ds), rest)
    else some (.float (String.ofList (cs.take (cs.length - rest'.length))), rest')

/-- The numbers that are written as words. -/
def wordNumbers : List String :=
  ["inf", "nan", "-inf", "+inf", "-nan", "+nan"]

/-- A number that is written as a word. -/
def wordNumber? (cs : List Char) : Step Data :=
  (wordNumbers.find? fun w => w.toList.isPrefixOf cs).map fun w => (.float w, cs.drop w.length)

/-- A number of any kind. -/
def number? (cs : List Char) : Step Data :=
  match basedInteger? cs with
  | some r => some r
  | none =>
    match decimal? cs with
    | some r => some r
    | none => wordNumber? cs

/-! ### Moments -/

/-- A number of exactly so many digits in a range. -/
def fixedNumber? (width least greatest : Nat) (cs : List Char) : Step Nat :=
  let ds := cs.take width
  let n := valueOf 10 ds
  if ds.length = width ∧ ds.all Char.isDigit ∧ least ≤ n ∧ n ≤ greatest then some (n, cs.drop width)
  else none

/-- The rest of a text after a character that it has to begin with. -/
def after? (c : Char) : List Char → Option (List Char)
  | d :: rest => if d = c then some rest else none
  | [] => none

/-- Whether a year has a leap day. -/
def isLeapYear (year : Nat) : Bool :=
  year % 4 == 0 && (year % 100 != 0 || year % 400 == 0)

/-- The number of days of a month. -/
def daysIn (year month : Nat) : Nat :=
  if month = 2 then (if isLeapYear year then 29 else 28)
  else if [4, 6, 9, 11].contains month then 30
  else 31

/-- Whether a date exists. -/
def isDate (year month day : Nat) : Bool :=
  decide (1 ≤ year) && decide (day ≤ daysIn year month)

/-- A year, a month and a day. -/
def date? (cs : List Char) : Option ((Nat × Nat × Nat) × List Char) := do
  let (year, cs) ← fixedNumber? 4 0 9999 cs
  let cs ← after? '-' cs
  let (month, cs) ← fixedNumber? 2 1 12 cs
  let cs ← after? '-' cs
  let (day, cs) ← fixedNumber? 2 1 31 cs
  return ((year, month, day), cs)

/-- The rest of a text after a fraction of a second, if it begins with one. -/
def afterSecondFraction (cs : List Char) : List Char :=
  match cs with
  | '.' :: c :: rest => if c.isDigit then rest.dropWhile Char.isDigit else cs
  | _ => cs

/-- The rest of a text after a time of day. -/
def afterTime? (cs : List Char) : Option (List Char) := do
  let (_, cs) ← fixedNumber? 2 0 23 cs
  let cs ← after? ':' cs
  let (_, cs) ← fixedNumber? 2 0 59 cs
  let cs ← after? ':' cs
  let (_, cs) ← fixedNumber? 2 0 59 cs
  return afterSecondFraction cs

/-- The rest of a text after an hour and a minute. -/
def afterHourMinute? (cs : List Char) : Option (List Char) := do
  let (_, cs) ← fixedNumber? 2 0 23 cs
  let cs ← after? ':' cs
  let (_, cs) ← fixedNumber? 2 0 59 cs
  return cs

/-- The rest of a text after an offset from universal time, if it begins with
one. -/
def afterOffset (cs : List Char) : List Char :=
  match cs with
  | c :: rest =>
    if c = 'Z' ∨ c = 'z' then rest
    else if c = '+' ∨ c = '-' then (afterHourMinute? rest).getD cs
    else cs
  | [] => cs

/-- The rest of a text after the time of day that follows a date, if one does. -/
def afterDateTime? (cs : List Char) : Option (List Char) :=
  match cs with
  | c :: rest =>
    if c = 'T' ∨ c = 't' ∨ c = ' ' then (afterTime? rest).map afterOffset else none
  | [] => none

/-- A moment as data: the characters of a text up to the rest. -/
def momentOf (kind : Moment) (cs rest : List Char) : Data × List Char :=
  (.moment kind (String.ofList (cs.take (cs.length - rest.length))), rest)

/-- What a text that begins with a date says: the date or, with a time of day after
it, the moment; malformed when there is no such date. -/
def dateOrDateTime? (cs : List Char) : Option (Step Data) :=
  (date? cs).map fun ((year, month, day), rest) =>
    if !isDate year month day then none
    else
      match afterDateTime? rest with
      | some rest' => some (momentOf .dateTime cs rest')
      | none => some (momentOf .date cs rest)

/-- A time of day. -/
def time? (cs : List Char) : Step Data :=
  (afterTime? cs).map (momentOf .time cs)

end HouseStyle.Toml
