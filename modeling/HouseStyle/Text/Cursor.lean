/-!
# Reading a text by offset

Steps over an array of characters that start at an offset and answer with an
offset. None of them passes the bound `stop` that it is given.

* `find_bounds`, `le_skipWhile`: a step never goes back.
-/

namespace HouseStyle.Cursor

/-- The text between two offsets. -/
def text (src : Array Char) (start stop : Nat) : String :=
  String.ofList (src.extract start stop).toList

/-- The first offset at or after `cursor`, and before `stop`, of a character; or
`stop`. -/
def find (src : Array Char) (target : Char) (stop cursor : Nat) : Nat :=
  if cursor < stop then
    if src[cursor]? = some target then cursor else find src target stop (cursor + 1)
  else stop
termination_by stop - cursor

theorem find_bounds {src : Array Char} {target : Char} {stop cursor : Nat}
    (h : cursor ≤ stop) : cursor ≤ find src target stop cursor ∧ find src target stop cursor ≤ stop := by
  fun_induction find src target stop cursor <;> grind

/-- The first offset at or after `cursor`, and before `stop`, whose character does
not satisfy `p`; or `stop`. -/
def skipWhile (p : Char → Bool) (src : Array Char) (stop cursor : Nat) : Nat :=
  if cursor < stop ∧ (src[cursor]?).any p then skipWhile p src stop (cursor + 1) else cursor
termination_by stop - cursor

theorem le_skipWhile {p : Char → Bool} {src : Array Char} {stop cursor : Nat} :
    cursor ≤ skipWhile p src stop cursor := by
  fun_induction skipWhile p src stop cursor <;> grind

end HouseStyle.Cursor
