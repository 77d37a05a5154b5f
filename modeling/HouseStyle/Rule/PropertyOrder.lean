import HouseStyle.Rule.Basic

/-!
# The order of a block

A block lists its declarations first, then its includes, then its nested blocks.

* `propertyOrder`: the rule.
* `PropertyOrder.bucket?` is the group of a child of a block.
* `PropertyOrder.fix` puts the children in order and leaves the text between them
  where it is.
-/

namespace HouseStyle

namespace PropertyOrder

/-- The groups in which the children of a block come. -/
inductive Bucket where
  | declarations
  | includes
  | nested
  deriving DecidableEq

/-- The place of a group in a block. -/
def Bucket.rank : Bucket → Nat
  | .declarations => 0
  | .includes => 1
  | .nested => 2

/-- What a message calls a group. -/
def Bucket.plural : Bucket → String
  | .declarations => "property declarations"
  | .includes => "@include calls"
  | .nested => "nested blocks"

/-- The group of a place in a block. -/
def Bucket.ofRank (n : Int) : Bucket :=
  if n = 0 then .declarations else if n = 1 then .includes else .nested

/-- The group of a child of a block, if it takes part in the order. -/
def bucket? (n : Node) : Option Bucket :=
  match n.label with
  | .style (.declaration _ _ _) => some .declarations
  | .style (.rule _) => some .nested
  | .style (.atRule name _ _ hasBlock) =>
    if name = "include" then some .includes
    else if hasBlock then some .nested
    else none
  | _ => none

/-- What a message calls a child of a block. -/
def describe (n : Node) : String :=
  match n.label with
  | .style (.declaration property _ _) => s!"Declaration '{property}'"
  | .style (.rule selector) => s!"Nested block '{selector}'"
  | .style (.atRule name _ _ _) => s!"@{name}"
  | _ => ""

/-- The name under which the rule remembers the highest group so far. -/
def highestKey : String := "highest"

/-- The group of a node among the children of a block. -/
def placed? (n : Node) (c : Context) : Option Bucket :=
  match c.scope.parent.label with
  | .style .block => bucket? n
  | _ => none

/-- Reports a child that comes after a child of a later group. -/
def check (n : Node) (c : Context) (m : Memory) : CheckResult :=
  match placed? n c with
  | none => (.ok [], m)
  | some b =>
    let highest := Bucket.ofRank ((m.get? highestKey).getD 0)
    if b.rank < highest.rank then
      (.ok [c.violation n.span s!"{describe n} should come before {highest.plural}"], m)
    else (.ok [], m.set highestKey b.rank)

/-- Whether a child of a block ends with a semicolon rather than a block. -/
def isBlockless (n : Node) : Bool :=
  match n.label with
  | .style (.declaration _ _ _) => true
  | .style (.atRule _ _ _ hasBlock) => !hasBlock
  | _ => false

/-- The text of a child of a block, closed so that it can stand anywhere in the
block. -/
def statementText (t : Source) (n : Node) : List Char :=
  let text := t.sliceChars n.span.start n.span.stop
  if isBlockless n && text.getLast? != some ';' then text ++ [';'] else text

/-- The place of the group of a child of a block. -/
def rankOf (n : Node) : Nat :=
  ((bucket? n).map Bucket.rank).getD 0

/-- The children of a block that take part in the order. -/
def movable (block : Node) : List Node :=
  block.children.filter fun n => (bucket? n).isSome

/-- The children of a block that take part in the order, in that order. -/
def ordered (block : Node) : List Node :=
  (movable block).mergeSort fun a b => decide (rankOf a ≤ rankOf b)

/-- The texts between neighbours. -/
def gaps (t : Source) : List Node → List (List Char)
  | a :: b :: rest => t.sliceChars a.span.stop b.span.start :: gaps t (b :: rest)
  | _ => []

/-- Texts with the given gaps between them. -/
def interleave : List (List Char) → List (List Char) → List Char
  | [], _ => []
  | [t], _ => t
  | t :: rest, [] => t ++ interleave rest []
  | t :: rest, g :: gaps => t ++ g ++ interleave rest gaps

/-- Puts the children of the block in order and leaves the text between them where
it is. -/
def fix (c : Context) : Option Edit :=
  let block := c.scope.parent
  match movable block with
  | first :: second :: rest =>
    let last := (second :: rest).getLastD second
    let replacement :=
      interleave ((ordered block).map (statementText c.text)) (gaps c.text (movable block))
    if replacement = c.text.sliceChars first.span.start last.span.stop then none
    else
      some { span := .between first.span.start last.span.stop
             replacement := String.ofList replacement, rule := c.info.id }
  | _ => none

end PropertyOrder

/-- Flags block children that appear after a later ordering group. -/
def propertyOrder : Rule :=
  { info :=
      { id := RuleId.propertyOrder.name, name := "Property Order", category := "ordering"
        languages := styleLanguages, kinds := ["declaration", "at-rule", "rule"]
        severity := .error, fixable := true
        description := "Inside a rule block, list plain property declarations first,\n" ++
          "then @include calls, then nested selectors and blocks."
        badExample := ".a \x7b @include foo(); color: red; .child \x7b\x7d \x7d"
        goodExample := ".a \x7b color: red; @include foo(); .child \x7b\x7d \x7d"
        fixDescription := "Reorders the block's children, keeping their order within each group."
        configOptions := "" }
    applies := fun n => .ok (PropertyOrder.bucket? n).isSome
    check := PropertyOrder.check
    fix := fun _ _ c => .ok (PropertyOrder.fix c) }

end HouseStyle
