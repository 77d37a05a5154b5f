/-!
# Structured data

The dynamic values of a settings file: what TOML and JSON documents hold. Tables
keep the order in which their keys are written, because problems are reported in
that order, and a key occurs once.

* `Data.put` writes a key in place, or at the end when it is new.
* `Data.typeName` is the name under which a message refers to a kind of value.
-/

namespace HouseStyle

/-- The kinds of calendar values. -/
inductive Moment where
  | dateTime
  | date
  | time
  deriving DecidableEq

/-- A structured value. A number with a fraction or an exponent keeps its
spelling, because nothing here computes with it. -/
inductive Data where
  | null
  | bool (value : Bool)
  | int (value : Int)
  | float (spelling : String)
  | text (value : String)
  | moment (kind : Moment) (spelling : String)
  | list (items : List Data)
  | table (entries : List (String × Data))
  deriving Inhabited

namespace Data

/-- The value under a key of a list of entries. -/
def lookup (key : String) : List (String × Data) → Option Data
  | [] => none
  | (k, v) :: rest => if k = key then some v else lookup key rest

/-- Writes a value under a key, in its place or at the end. -/
def put (key : String) (value : Data) : List (String × Data) → List (String × Data)
  | [] => [(key, value)]
  | (k, v) :: rest => if k = key then (k, value) :: rest else (k, v) :: put key value rest

/-- The value under a key, for a table. -/
def get? (key : String) : Data → Option Data
  | .table entries => lookup key entries
  | _ => none

/-- A text, or nothing. -/
def ofOption : Option String → Data
  | some s => .text s
  | none => .null

/-- A list of texts. -/
def ofTexts (items : List String) : Data :=
  .list (items.map Data.text)

/-- The text of a text value. -/
def text? : Data → Option String
  | .text s => some s
  | _ => none

/-- The texts of a list that holds nothing else. -/
def texts? : Data → Option (List String)
  | .list items => items.mapM text?
  | _ => none

/-- The name of a value's kind in messages. -/
def typeName : Data → String
  | .null => "NoneType"
  | .bool _ => "bool"
  | .int _ => "int"
  | .float _ => "float"
  | .text _ => "str"
  | .moment .dateTime _ => "datetime.datetime"
  | .moment .date _ => "datetime.date"
  | .moment .time _ => "datetime.time"
  | .list _ => "list"
  | .table _ => "dict"

end Data

end HouseStyle
