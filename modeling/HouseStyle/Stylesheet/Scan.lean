import HouseStyle.Text.Blank
import HouseStyle.Text.Cursor
import HouseStyle.Parse.Fault

/-!
# Scanning steps of the stylesheet parser

A stylesheet is scanned by offset. Each step passes over one stretch of text that
the grammar does not look into: a quoted string, a comment, an interpolation. The
steps end inside the text and make progress, which is what lets the loops over
them end.

* `stringEnd_bounds`, `commentEnd_bounds`, `interpolationEnd_bounds`: a step that
  succeeds ends after its start and inside the text.
* `scan` finds the end of a statement's head, `skipTrivia` the next statement.
-/

namespace HouseStyle.Stylesheet

open Cursor (find find_bounds)

/-- The two dialects. Only SCSS has line comments. -/
inductive Dialect where
  | css
  | scss
  deriving DecidableEq

/-- Whether a character opens and closes a string. -/
def isQuote (c : Char) : Bool :=
  c == '"' || c == '\''

/-- The offset after the closing quote of a string whose text goes on at
`cursor`. A backslash takes the next character with it; a line feed ends the
search. -/
def closingQuote? (src : Array Char) (quote : Char) (cursor : Nat) : Option Nat :=
  if _h : cursor < src.size then
    if src[cursor] = '\\' then closingQuote? src quote (cursor + 2)
    else if src[cursor] = quote then some (cursor + 1)
    else if src[cursor] = '\n' then none
    else closingQuote? src quote (cursor + 1)
  else none
termination_by src.size - cursor

theorem closingQuote?_bounds {src : Array Char} {quote : Char} {cursor stop : Nat}
    (h : closingQuote? src quote cursor = some stop) : cursor < stop ∧ stop ≤ src.size := by
  fun_induction closingQuote? src quote cursor <;> grind

/-- The offset after the string that starts at `pos`. -/
def stringEnd (src : Array Char) (quote : Char) (pos : Nat) : Except ParseError Nat :=
  match closingQuote? src quote (pos + 1) with
  | some stop => .ok stop
  | none => .error ⟨pos, .unterminatedString⟩

theorem stringEnd_bounds {src : Array Char} {quote : Char} {pos stop : Nat}
    (h : stringEnd src quote pos = .ok stop) : pos < stop ∧ stop ≤ src.size := by
  unfold stringEnd at h
  split at h
  · next heq =>
    cases h
    have := closingQuote?_bounds heq
    omega
  · cases h

/-- The offset after the first `*/` at or after `cursor`. -/
def closingComment? (src : Array Char) (cursor : Nat) : Option Nat :=
  if _h : cursor + 1 < src.size then
    if src[cursor] = '*' ∧ src[cursor + 1] = '/' then some (cursor + 2)
    else closingComment? src (cursor + 1)
  else none
termination_by src.size - cursor

theorem closingComment?_bounds {src : Array Char} {cursor stop : Nat}
    (h : closingComment? src cursor = some stop) : cursor < stop ∧ stop ≤ src.size := by
  fun_induction closingComment? src cursor <;> grind

/-- The offset after the block comment that starts at `pos`. -/
def commentEnd (src : Array Char) (pos : Nat) : Except ParseError Nat :=
  match closingComment? src (pos + 2) with
  | some stop => .ok stop
  | none => .error ⟨pos, .unterminatedComment⟩

theorem commentEnd_bounds {src : Array Char} {pos stop : Nat}
    (h : commentEnd src pos = .ok stop) : pos < stop ∧ stop ≤ src.size := by
  unfold commentEnd at h
  split at h
  · next heq =>
    cases h
    have := closingComment?_bounds heq
    omega
  · cases h

/-- Whether an interpolation starts at `pos`. -/
def opensInterpolation (src : Array Char) (pos : Nat) : Bool :=
  src[pos]? == some '#' && src[pos + 1]? == some '{'

/-- The offset after the brace that closes the interpolation begun at `pos`, when
`depth` braces are open at `cursor`. -/
def closingBrace (src : Array Char) (pos depth cursor : Nat) : Except ParseError Nat :=
  if _h : cursor < src.size then
    if isQuote src[cursor] then
      match hs : stringEnd src src[cursor] cursor with
      | .error e => .error e
      | .ok next =>
        have := stringEnd_bounds hs
        closingBrace src pos depth next
    else if src[cursor] = '{' then closingBrace src pos (depth + 1) (cursor + 1)
    else if src[cursor] = '}' then
      if depth = 1 then .ok (cursor + 1) else closingBrace src pos (depth - 1) (cursor + 1)
    else closingBrace src pos depth (cursor + 1)
  else .error ⟨pos, .unterminatedInterpolation⟩
termination_by src.size - cursor

theorem closingBrace_bounds {src : Array Char} {pos depth cursor stop : Nat}
    (h : closingBrace src pos depth cursor = .ok stop) : cursor < stop ∧ stop ≤ src.size := by
  fun_induction closingBrace src pos depth cursor <;> grind [stringEnd_bounds]

/-- The offset after the interpolation that starts at `pos`. -/
def interpolationEnd (src : Array Char) (pos : Nat) : Except ParseError Nat :=
  closingBrace src pos 0 (pos + 1)

theorem interpolationEnd_bounds {src : Array Char} {pos stop : Nat}
    (h : interpolationEnd src pos = .ok stop) : pos < stop ∧ stop ≤ src.size := by
  have := closingBrace_bounds h
  omega

/-- A step that was taken ended where the answer says. -/
theorem of_map_some {step : Except ParseError Nat} {stop : Nat}
    (h : step.map some = .ok (some stop)) : step = .ok stop := by
  cases step <;> simp_all [Except.map]

/-- The offset after the quoted string or the interpolation that starts at `pos`,
if one does. -/
def quotedEnd? (src : Array Char) (pos : Nat) : Except ParseError (Option Nat) :=
  match src[pos]? with
  | none => .ok none
  | some c =>
    if isQuote c then (stringEnd src c pos).map some
    else if opensInterpolation src pos then (interpolationEnd src pos).map some
    else .ok none

theorem quotedEnd?_bounds {src : Array Char} {pos stop : Nat}
    (h : quotedEnd? src pos = .ok (some stop)) : pos < stop ∧ stop ≤ src.size := by
  unfold quotedEnd? at h
  split at h
  · cases h
  · split at h
    · exact stringEnd_bounds (of_map_some h)
    · split at h
      · exact interpolationEnd_bounds (of_map_some h)
      · cases h

/-- The offset after the comment that starts at `pos`, if one does. A line comment
ends before its line feed, and only where `lines` allows one. -/
def commentEnd? (lines : Bool) (src : Array Char) (pos : Nat) : Except ParseError (Option Nat) :=
  if src[pos]? = some '/' then
    if src[pos + 1]? = some '*' then (commentEnd src pos).map some
    else if src[pos + 1]? = some '/' ∧ lines then .ok (some (find src '\n' src.size pos))
    else .ok none
  else .ok none

theorem commentEnd?_bounds {lines : Bool} {src : Array Char} {pos stop : Nat}
    (h : commentEnd? lines src pos = .ok (some stop)) : pos < stop ∧ stop ≤ src.size := by
  unfold commentEnd? at h
  split at h
  · next hslash =>
    have hlt : pos < src.size := by
      rw [Array.getElem?_eq_some_iff] at hslash
      exact hslash.1
    split at h
    · exact commentEnd_bounds (of_map_some h)
    · split at h
      · cases h
        rw [find, if_pos hlt, if_neg (by simp [hslash])]
        have := @find_bounds src '\n' src.size (pos + 1) hlt
        omega
      · cases h
  · cases h

/-- The offset after the string, comment or interpolation that starts at `pos`
inside `depth` open parentheses and brackets, if one does. -/
def opaqueEnd? (d : Dialect) (src : Array Char) (depth pos : Nat) :
    Except ParseError (Option Nat) :=
  match quotedEnd? src pos with
  | .error e => .error e
  | .ok (some stop) => .ok (some stop)
  | .ok none => commentEnd? (d == .scss && depth == 0) src pos

theorem opaqueEnd?_bounds {d : Dialect} {src : Array Char} {depth pos stop : Nat}
    (h : opaqueEnd? d src depth pos = .ok (some stop)) : pos < stop ∧ stop ≤ src.size := by
  unfold opaqueEnd? at h
  split at h
  · cases h
  · next hq =>
    cases h
    exact quotedEnd?_bounds hq
  · exact commentEnd?_bounds h

/-- Whether a character opens a parenthesis or bracket. -/
def opensGroup (c : Char) : Bool :=
  c == '(' || c == '['

/-- Whether a character closes a parenthesis or bracket. -/
def closesGroup (c : Char) : Bool :=
  c == ')' || c == ']'

/-- Whether a character ends the head of a statement. -/
def endsHead (c : Char) : Bool :=
  c == ';' || c == '{' || c == '}'

/-- The offset and character of the first `;`, `{` or `}` at or after `pos`
outside of strings, comments, interpolations and the `depth` open parentheses and
brackets; or the end of the text and no character. -/
def scanFrom (d : Dialect) (src : Array Char) (depth pos : Nat) :
    Except ParseError (Nat × Option Char) :=
  if _h : pos < src.size then
    match hq : opaqueEnd? d src depth pos with
    | .error e => .error e
    | .ok (some next) =>
      have := opaqueEnd?_bounds hq
      scanFrom d src depth next
    | .ok none =>
      if opensGroup src[pos] then scanFrom d src (depth + 1) (pos + 1)
      else if closesGroup src[pos] then scanFrom d src (depth - 1) (pos + 1)
      else if depth = 0 ∧ endsHead src[pos] then .ok (pos, some src[pos])
      else scanFrom d src depth (pos + 1)
  else .ok (src.size, none)
termination_by src.size - pos

/-- The end of the statement head that starts at `pos`. -/
def scan (d : Dialect) (src : Array Char) (pos : Nat) : Except ParseError (Nat × Option Char) :=
  scanFrom d src 0 pos

/-- The offset of the next character that is neither white space nor part of a
comment. -/
def skipTrivia (d : Dialect) (src : Array Char) (pos : Nat) : Except ParseError Nat :=
  if _h : pos < src.size then
    if isStyleBlank src[pos] then skipTrivia d src (pos + 1)
    else
      match hc : commentEnd? (d == .scss) src pos with
      | .error e => .error e
      | .ok (some next) =>
        have := commentEnd?_bounds hc
        skipTrivia d src next
      | .ok none => .ok pos
  else .ok pos
termination_by src.size - pos

theorem skipTrivia_bounds {d : Dialect} {src : Array Char} {pos next : Nat}
    (h : skipTrivia d src pos = .ok next) :
    pos ≤ next ∧ (pos ≤ src.size → next ≤ src.size) := by
  fun_induction skipTrivia d src pos <;> grind

/-- The end of the text between `start` and `stop` without the white space at its
end. -/
def trimEnd (src : Array Char) (start : Nat) : Nat → Nat
  | 0 => 0
  | n + 1 =>
    if start ≤ n ∧ (src[n]?).any isStyleBlank then trimEnd src start n else n + 1

end HouseStyle.Stylesheet
