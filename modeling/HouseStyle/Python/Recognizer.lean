import HouseStyle.Python.Token

/-!
# Recognizers

A recognizer reads tokens from a place on and answers with a value and the place
where it stopped, which is never before the place where it began, or with a refusal.
Refusals are of two kinds: the tokens do not have the form, so another form may be
tried, or they are nested deeper than is read, which ends the attempt altogether.

* `orElse` tries a second form where the first does not apply.
* `many` repeats a form as long as it applies and moves on.
-/

namespace HouseStyle.Python

/-- What a recognizer that began at a place answers. It does not step back. -/
inductive Outcome (α : Type) (start : Nat) where
  | found (value : α) (next : Nat) (le : start ≤ next)
  | absent
  | tooDeep

/-- The answer of a recognizer that went on from a later place. -/
def Outcome.since {α : Type} {start next : Nat} (le : start ≤ next) : Outcome α next → Outcome α start
  | .found a last le' => .found a last (Nat.le_trans le le')
  | .absent => .absent
  | .tooDeep => .tooDeep

/-- A reader of tokens. -/
def Recognizer (α : Type) : Type :=
  Array Token → (start : Nat) → Outcome α start

namespace Recognizer

variable {α β : Type}

/-- The recognizer that reads nothing. -/
protected def pure (a : α) : Recognizer α :=
  fun _ i => .found a i (Nat.le_refl i)

/-- One recognizer after another. -/
protected def bind (p : Recognizer α) (f : α → Recognizer β) : Recognizer β := fun ts i =>
  match p ts i with
  | .found a j h => (f a ts j).since h
  | .absent => .absent
  | .tooDeep => .tooDeep

instance : Monad Recognizer where
  pure := Recognizer.pure
  bind := Recognizer.bind

/-- The second form where the first does not apply. -/
def orElse (p : Recognizer α) (q : Unit → Recognizer α) : Recognizer α := fun ts i =>
  match p ts i with
  | .absent => q () ts i
  | r => r

/-- The form that never applies. -/
def fail : Recognizer α :=
  fun _ _ => .absent

instance : Alternative Recognizer where
  failure := fail
  orElse := orElse

/-- The refusal of tokens that are nested too deeply. -/
def giveUp : Recognizer α :=
  fun _ _ => .tooDeep

/-- The next token, which is not read. -/
def peek : Recognizer Token := fun ts i =>
  match ts[i]? with
  | some t => .found t i (Nat.le_refl i)
  | none => .absent

/-- The next token, if it passes a test. -/
def satisfy (p : Token → Bool) : Recognizer Token := fun ts i =>
  match ts[i]? with
  | some t => if p t then .found t (i + 1) (Nat.le_succ i) else .absent
  | none => .absent

/-- The offset at which the last token read ended. -/
def lastStop : Recognizer Nat := fun ts i =>
  match ts[i - 1]? with
  | some t => .found (if i = 0 then 0 else t.stop) i (Nat.le_refl i)
  | none => .found 0 i (Nat.le_refl i)

/-- Applies only where a test of a value holds. -/
def guardThat (b : Bool) : Recognizer Unit :=
  if b then pure () else fail

/-- Whether a form applies; nothing is read. -/
def applies (p : Recognizer α) : Recognizer Bool := fun ts i =>
  match p ts i with
  | .found _ _ _ => .found true i (Nat.le_refl i)
  | .absent => .found false i (Nat.le_refl i)
  | .tooDeep => .tooDeep

/-- A form that may be left out. -/
def maybe (p : Recognizer α) : Recognizer (Option α) := fun ts i =>
  match p ts i with
  | .found a j h => .found (some a) j h
  | .absent => .found none i (Nat.le_refl i)
  | .tooDeep => .tooDeep

/-- Repeats a form at most `fuel` times. -/
def repeatUpTo (p : Recognizer α) : Nat → Recognizer (List α)
  | 0 => pure []
  | fuel + 1 => fun ts i =>
    match p ts i with
    | .found a j h =>
      match repeatUpTo p fuel ts j with
      | .found rest k h' => .found (a :: rest) k (Nat.le_trans h h')
      | .absent => .absent
      | .tooDeep => .tooDeep
    | .absent => .found [] i (Nat.le_refl i)
    | .tooDeep => .tooDeep

/-- Repeats a form as long as it applies. There are no more repetitions than
tokens. -/
def many (p : Recognizer α) : Recognizer (List α) :=
  fun ts i => repeatUpTo p (ts.size - i) ts i

/-- Repeats a form at least once. -/
def some1 (p : Recognizer α) : Recognizer (List α) := do
  let first ← p
  let rest ← many p
  return first :: rest

/-- Whether a token is a given word. -/
def isWord (w : String) (t : Token) : Bool :=
  t.kind == .name && t.text == w

/-- Whether a token is a given operator or bracket. -/
def isOperator (o : String) (t : Token) : Bool :=
  t.kind == .operator && t.text == o

/-- A given word. -/
def word (w : String) : Recognizer Token :=
  satisfy (isWord w)

/-- A given operator or bracket. -/
def op (o : String) : Recognizer Token :=
  satisfy (isOperator o)

/-- A token of a given kind. -/
def kind (k : TokenKind) : Recognizer Token :=
  satisfy fun t => t.kind == k

/-- A name that is not reserved. -/
def identifier : Recognizer Token :=
  satisfy fun t => t.kind == .name && !reservedWords.contains t.text

/-- Whether the next token is a given operator or bracket. -/
def atOp (o : String) : Recognizer Bool := do
  return isOperator o (← peek)

/-- Whether the next token is a given word. -/
def atWord (w : String) : Recognizer Bool := do
  return isWord w (← peek)

/-- The forms between commas, at least one, and whether a comma follows the
last. -/
def commaSeparated (p : Recognizer α) : Recognizer (List α × Option Token) := do
  let first ← p
  let rest ← many (op "," *> p)
  let trailing ← maybe (op ",")
  return (first :: rest, trailing)

end Recognizer

end HouseStyle.Python
