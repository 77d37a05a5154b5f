import HouseStyle.Rule.DeclarationValue
import HouseStyle.Text.Letter

/-!
# Zero lengths

A zero length has no unit.

* `zeroUnit`: the rule.
* `ZeroLength.spans` are the zero lengths of a value, as offsets into it.
-/

namespace HouseStyle

namespace ZeroLength

/-- Whether a number cannot begin after a character. -/
def blocksStart (c : Char) : Bool :=
  isWordChar c || c == '.' || c == '#' || c == '$' || c == '-'

/-- Whether a unit cannot end before a character. -/
def blocksEnd (c : Char) : Bool :=
  isWordChar c || c == '%' || c == '-'

/-- The number of characters of the first unit that stands at the start of a text
and can end there. -/
def unitLength? (units : List (List Char)) (cs : List Char) : Option Nat :=
  (units.find? fun u =>
    match afterWord? u cs with
    | none => false
    | some [] => true
    | some (c :: _) => !blocksEnd c).map List.length

/-- The first of the lengths from `n` down to one that an attempt allows. -/
def longest? (attempt : Nat → Option Nat) : Nat → Option Nat
  | 0 => none
  | n + 1 =>
    match attempt (n + 1) with
    | some r => some r
    | none => longest? attempt n

/-- The length of the unit, or of a fraction of zeros and a unit, that follow
`before` characters. -/
def tailLength? (units : List (List Char)) (before : Nat) (cs : List Char) : Option Nat :=
  let plain (n : Nat) : Option Nat := (unitLength? units (cs.drop (n - before))).map (n + ·)
  match cs with
  | '.' :: rest =>
    let zeros := (rest.takeWhile (· == '0')).length
    match longest? (fun z => plain (before + 1 + z)) zeros with
    | some r => some r
    | none => plain before
  | _ => plain before

/-- The number of characters of the zero length at the start of a text: zeros, an
optional fraction of zeros, and a unit. -/
def length? (units : List (List Char)) (cs : List Char) : Option Nat :=
  let zeros := (cs.takeWhile (· == '0')).length
  longest? (fun z => tailLength? units z (cs.drop z)) zeros

/-- How deep in parentheses and quotes the characters read so far are. -/
structure Surroundings where
  opened : Nat
  closed : Nat
  double : Nat
  single : Nat

/-- The surroundings after one more character. -/
def Surroundings.step (s : Surroundings) (c : Char) : Surroundings :=
  if c = '(' then { s with opened := s.opened + 1 }
  else if c = ')' then { s with closed := s.closed + 1 }
  else if c = '"' then { s with double := s.double + 1 }
  else if c = '\'' then { s with single := s.single + 1 }
  else s

/-- Whether a length counts there: outside of functions and quoted text. -/
def Surroundings.isPlain (s : Surroundings) : Bool :=
  decide (s.opened ≤ s.closed) && s.double % 2 == 0 && s.single % 2 == 0

/-- The zero lengths of a text as pairs of offsets, when its first character has
the offset `pos`, `before` is the character before it, and `skip` characters
belong to a length already found. -/
def spansFrom (units : List (List Char)) (s : Surroundings) (before : Option Char) (pos : Nat) :
    Nat → List Char → List (Nat × Nat)
  | _, [] => []
  | skip + 1, c :: rest => spansFrom units (s.step c) (some c) (pos + 1) skip rest
  | 0, c :: rest =>
    let found := if before.any blocksStart then none else length? units (c :: rest)
    match found with
    | none => spansFrom units (s.step c) (some c) (pos + 1) 0 rest
    | some n =>
      let later := spansFrom units (s.step c) (some c) (pos + 1) (n - 1) rest
      if s.isPlain then (pos, pos + n) :: later else later

/-- The units of the options, longer ones first. -/
def unitsOf (o : ZeroUnitOptions) : List (List Char) :=
  (o.units.map String.toList).mergeSort fun a b => decide (b.length ≤ a.length)

/-- The zero lengths with a unit in a text, as pairs of offsets. -/
def spans (o : ZeroUnitOptions) (value : List Char) : List (Nat × Nat) :=
  if o.units.isEmpty then [] else spansFrom (unitsOf o) ⟨0, 0, 0, 0⟩ none 0 0 value

/-- The zero lengths with a unit in a declaration. -/
def spansOf (n : Node) (c : Context) : List Span :=
  match valueOf? n with
  | none => []
  | some (v, text) =>
    (spans (c.options .zeroUnit) text).map fun (a, b) =>
      .between (v.span.start + a) (v.span.start + b)

/-- Reports the zero lengths with a unit. -/
def check (n : Node) (c : Context) : List Violation :=
  (spansOf n c).map fun s =>
    c.violation s s!"Zero value '{c.text.sliceSpan s}' should not carry a unit"

/-- Drops the unit of a zero length. -/
def fix (v : Violation) (n : Node) (c : Context) : Option Edit :=
  if (spansOf n c).contains v.span then
    some { span := v.span, replacement := "0", rule := c.info.id }
  else none

end ZeroLength

/-- Flags zero lengths written with a unit. -/
def zeroUnit : Rule :=
  { info :=
      { id := RuleId.zeroUnit.name, name := "Unitless Zero", category := "values"
        languages := styleLanguages, kinds := ["declaration"], severity := .warning, fixable := true
        description := "Zero lengths are written without a unit."
        badExample := ".a \x7b margin: 0px; \x7d"
        goodExample := ".a \x7b margin: 0; \x7d"
        fixDescription := "Drops the unit from zero lengths outside of functions."
        configOptions := "" }
    applies := fun n => .ok (isDeclaration n)
    check := Rule.simpleCheck ZeroLength.check
    fix := fun v n c => .ok (ZeroLength.fix v n c) }

end HouseStyle
