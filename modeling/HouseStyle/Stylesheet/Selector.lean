import HouseStyle.Stylesheet.Scan
import HouseStyle.Text.Letter
import HouseStyle.Tree.Basic

/-!
# Selectors

The head of a style rule is a list of selectors between commas, and of a selector
only the ids and classes that it names are kept.

* `selectorList` is the node for the head of a rule.
* `isNameChar` and `startsName` say what a name is made of.
-/

namespace HouseStyle.Stylesheet

open Cursor (find find_bounds skipWhile le_skipWhile)

/-- A node of a stylesheet. -/
def nodeOf (form : Form) (start stop : Nat) (children : List Node) : Node :=
  { label := .style form, span := .between start stop, children }

/-- Whether a character can stand in a name. -/
def isNameChar (c : Char) : Bool :=
  c.isAlphanum || c == '-' || c == '_' || c == '\\' || decide (127 < c.toNat)

/-- Whether a name starts at `pos`, before `stop`. -/
def startsName (src : Array Char) (stop pos : Nat) : Bool :=
  if pos < stop then
    match src[pos]? with
    | none => false
    | some c =>
      if c.isAlpha || c == '_' || c == '\\' || decide (127 < c.toNat) then true
      else if c = '-' ∧ pos + 1 < stop then
        (src[pos + 1]?).any fun f => isLetter f || f == '-' || f == '_'
      else false
  else false

/-- The node of an id or class whose mark stands at `pos`. -/
def simpleSelector (src : Array Char) (mark : Char) (pos stop : Nat) : Node :=
  let name := Cursor.text src (pos + 1) stop
  let interpolated := opensInterpolation src stop
  let form := if mark = '#' then Form.idSelector name interpolated else .classSelector name interpolated
  nodeOf form pos stop []

/-- The offset after the bracket that closes the one at `pos`, at most `stop`. -/
def bracketEnd (src : Array Char) (stop pos : Nat) : Nat :=
  let close := find src ']' stop pos
  if close < stop then close + 1 else stop

theorem lt_bracketEnd {src : Array Char} {stop pos : Nat} (h : pos < stop) :
    pos < bracketEnd src stop pos := by
  have := @find_bounds src ']' stop pos (Nat.le_of_lt h)
  unfold bracketEnd
  grind

/-- The ids and classes that a selector names from `pos` on, up to `stop`. -/
def simpleSelectors (src : Array Char) (stop pos : Nat) : Except ParseError (List Node) :=
  if h : pos < stop then
    match hq : quotedEnd? src pos with
    | .error e => .error e
    | .ok (some next) =>
      have := quotedEnd?_bounds hq
      simpleSelectors src stop next
    | .ok none =>
      match src[pos]? with
      | none => .ok []
      | some c =>
        if c = '[' then
          have := @lt_bracketEnd src stop pos h
          simpleSelectors src stop (bracketEnd src stop pos)
        else if (c = '#' ∨ c = '.') ∧ startsName src stop (pos + 1) then
          let nameEnd := skipWhile isNameChar src stop (pos + 1)
          have := @le_skipWhile isNameChar src stop (pos + 1)
          match simpleSelectors src stop nameEnd with
          | .error e => .error e
          | .ok rest => .ok (simpleSelector src c pos nameEnd :: rest)
        else simpleSelectors src stop (pos + 1)
  else .ok []
termination_by stop - pos

/-- The selector between two commas, unless only white space stands there. -/
def selectorBetween (src : Array Char) (start stop : Nat) : Except ParseError (List Node) :=
  let first := skipWhile isStyleBlank src stop start
  let last := trimEnd src first stop
  if first = last then .ok []
  else
    match simpleSelectors src last first with
    | .error e => .error e
    | .ok parts => .ok [nodeOf (.selector (Cursor.text src first last)) first last parts]

/-- The selectors of a head that ends at `stop`, from `pos` on, when the current
selector starts at `segment` and `depth` parentheses and brackets are open. -/
def selectorsFrom (src : Array Char) (stop segment depth pos : Nat) :
    Except ParseError (List Node) :=
  if _h : pos < stop then
    match hq : quotedEnd? src pos with
    | .error e => .error e
    | .ok (some next) =>
      have := quotedEnd?_bounds hq
      selectorsFrom src stop segment depth next
    | .ok none =>
      match src[pos]? with
      | none => .ok []
      | some c =>
        if opensGroup c then selectorsFrom src stop segment (depth + 1) (pos + 1)
        else if closesGroup c then selectorsFrom src stop segment (depth - 1) (pos + 1)
        else if c = ',' ∧ depth = 0 then
          match selectorBetween src segment pos with
          | .error e => .error e
          | .ok here =>
            match selectorsFrom src stop (pos + 1) 0 (pos + 1) with
            | .error e => .error e
            | .ok rest => .ok (here ++ rest)
        else selectorsFrom src stop segment depth (pos + 1)
  else selectorBetween src segment stop
termination_by stop - pos

/-- The node of the selectors between two offsets. -/
def selectorList (src : Array Char) (start stop : Nat) : Except ParseError Node :=
  match selectorsFrom src stop start 0 start with
  | .error e => .error e
  | .ok selectors => .ok (nodeOf .selectorList start stop selectors)

end HouseStyle.Stylesheet
