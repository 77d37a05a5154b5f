/-!
# Tokens of Python

What the lines of a Python module are cut into. A token knows the offsets it
covers; line breaks that end a statement and changes of indentation are tokens of
their own.
-/

namespace HouseStyle.Python

/-- The kinds of tokens. A string with replacement fields is cut into its opening,
its texts, the tokens of its fields and its closing. -/
inductive TokenKind where
  | name
  | number
  | string
  | operator
  | newline
  | indent
  | dedent
  | formatOpen
  | formatText
  | formatClose
  | stop
  deriving DecidableEq

/-- A token: its kind, its text and the offsets it covers. -/
structure Token where
  kind : TokenKind
  text : String
  start : Nat
  stop : Nat


/-- The names that are reserved everywhere. -/
def reservedWords : List String :=
  ["False", "None", "True", "and", "as", "assert", "async", "await", "break", "class", "continue",
    "def", "del", "elif", "else", "except", "finally", "for", "from", "global", "if", "import",
    "in", "is", "lambda", "nonlocal", "not", "or", "pass", "raise", "return", "try", "while",
    "with", "yield"]

end HouseStyle.Python
