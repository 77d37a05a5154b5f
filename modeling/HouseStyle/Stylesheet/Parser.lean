import HouseStyle.Stylesheet.Selector
import HouseStyle.Text.Casing
import HouseStyle.Text.Pieces

/-!
# Parsing stylesheets

The block structure of a stylesheet as a tree whose spans index the text: rules
with their selectors, at-rules and declarations. Values are kept verbatim.

A statement is read by scanning to the end of its head. Where a block follows,
the block is read first and the head afterwards, so of several faults the one in
the block is reported.

* `parse` reads a whole text, or reports the first fault and its offset.
* `nestingLimit` bounds the depth of blocks, on which the recursion runs.
-/

namespace HouseStyle.Stylesheet

open Cursor (skipWhile)

/-- The greatest depth of nested blocks that is read. -/
def nestingLimit : Nat := 320

/-- The word that makes a declaration important. -/
def importantMark : List Char :=
  "!important".toList

/-- The offset of the first colon outside of interpolations, before `stop`. -/
def findColon? (src : Array Char) (stop pos : Nat) : Except ParseError (Option Nat) :=
  if _h : pos < stop then
    if opensInterpolation src pos then
      match hi : interpolationEnd src pos with
      | .error e => .error e
      | .ok next =>
        have := interpolationEnd_bounds hi
        findColon? src stop next
    else if src[pos]? = some ':' then .ok (some pos)
    else findColon? src stop (pos + 1)
  else .ok none
termination_by stop - pos

/-- The node of a declaration whose text is `[start, bodyStop)` and which ends,
with its semicolon if it has one, at `stop`. -/
def declaration (src : Array Char) (start bodyStop stop : Nat) : Except ParseError Node :=
  match findColon? src bodyStop start with
  | .error e => .error e
  | .ok none => .error ⟨start, .missingColon⟩
  | .ok (some colon) =>
    let propertyStop := trimEnd src start colon
    let valueStart := skipWhile isStyleBlank src bodyStop (colon + 1)
    let property := Cursor.text src start propertyStop
    let value := Cursor.text src valueStart bodyStop
    let important := occursIn importantMark (lowerChars value.toList)
    .ok (nodeOf (.declaration (lower property) value important) start stop
      [nodeOf (.property property) start propertyStop [],
        nodeOf (.value value) valueStart bodyStop []])

/-- The mixin that an `@include` with the prelude `[start, stop)` names. -/
def mixinName (src : Array Char) (start stop : Nat) : Option String :=
  let nameStop := skipWhile isNameChar src stop start
  if start < nameStop then some (Cursor.text src start nameStop) else none

/-- The node of an at-rule whose head is `[start, headStop)`. -/
def atRule (src : Array Char) (start headStop stop : Nat) (block : Option Node) :
    Except ParseError Node :=
  let nameStop := skipWhile isNameChar src headStop (start + 1)
  let name := lower (Cursor.text src (start + 1) nameStop)
  if name = "" then .error ⟨start, .missingAtRuleName⟩
  else
    let preludeStart := skipWhile isStyleBlank src headStop nameStop
    let prelude := Cursor.text src preludeStart headStop
    let mixin := if name = "include" then mixinName src preludeStart headStop else none
    .ok (nodeOf (.atRule name prelude mixin block.isSome) start stop block.toList)

/-- The node of a rule whose head is `[start, headStop)`. -/
def rule (src : Array Char) (start headStop stop : Nat) (block : Node) : Except ParseError Node :=
  match selectorList src start headStop with
  | .error e => .error e
  | .ok selectors =>
    .ok (nodeOf (.rule (Cursor.text src start headStop)) start stop [selectors, block])

/-- The statement that starts at `start`, and the offset where reading goes on.
`blockAt` reads the block that starts at a brace. -/
def statement (d : Dialect) (src : Array Char) (blockAt : Nat → Except ParseError Node)
    (start : Nat) : Except ParseError (Node × Nat) :=
  match scan d src start with
  | .error e => .error e
  | .ok (stopAt, stopChar) =>
    let headStop := trimEnd src start stopAt
    let isAtRule := src[start]? == some '@'
    if stopChar = some '{' then
      match blockAt stopAt with
      | .error e => .error e
      | .ok block =>
        let stop := block.span.stop
        let node := if isAtRule then atRule src start headStop stop (some block)
          else rule src start headStop stop block
        node.map (·, stop)
    else
      let closed := stopChar == some ';'
      let stop := if closed then stopAt + 1 else headStop
      let resume := if closed then stopAt + 1 else stopAt
      let node := if isAtRule then atRule src start headStop stop none
        else declaration src start headStop stop
      node.map (·, resume)

/-- The statements from `pos` on, up to the brace that closes the block begun at
`opening` or, without one, up to the end of the text; and the offset of that
end. -/
def statements (d : Dialect) (src : Array Char) (blockAt : Nat → Except ParseError Node)
    (opening : Option Nat) (pos : Nat) : Except ParseError (List Node × Nat) :=
  match hs : skipTrivia d src pos with
  | .error e => .error e
  | .ok start =>
    have := skipTrivia_bounds hs
    if h : start < src.size then
      if src[start] = '}' then
        if opening.isSome then .ok ([], start) else .error ⟨start, .unexpectedBrace⟩
      else if src[start] = ';' then statements d src blockAt opening (start + 1)
      else
        match statement d src blockAt start with
        | .error e => .error e
        | .ok (node, resume) =>
          -- A statement ends after its start, so the other branch is never taken.
          if _h : start < resume then
            match statements d src blockAt opening resume with
            | .error e => .error e
            | .ok (rest, stop) => .ok (node :: rest, stop)
          else .ok ([node], resume)
    else
      match opening with
      | some brace => .error ⟨brace, .unclosedBlock⟩
      | none => .ok ([], start)
termination_by src.size - pos

/-- The block that starts at the brace `opening`, at most `depth` blocks deep. -/
def blockAt (d : Dialect) (src : Array Char) : Nat → Nat → Except ParseError Node
  | 0, _ => .error ⟨0, .nestedTooDeeply⟩
  | depth + 1, opening =>
    match statements d src (blockAt d src depth) (some opening) (opening + 1) with
    | .error e => .error e
    | .ok (children, close) => .ok (nodeOf .block opening (close + 1) children)

/-- The tree of a stylesheet. -/
def parse (d : Dialect) (src : Array Char) : Except ParseError Node :=
  match statements d src (blockAt d src nestingLimit) none 0 with
  | .error e => .error e
  | .ok (children, _) => .ok (nodeOf .stylesheet 0 src.size children)

end HouseStyle.Stylesheet
