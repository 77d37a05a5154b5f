/-!
# Pieces of a text

A text is cut at a character or at the first occurrence of another text.

* `piecesOf` cuts at every occurrence of a character; `intercalate_piecesOf` says that
  nothing is lost.
* `cutAt?` cuts at the first occurrence of a text, `occursIn` asks whether there is
  one.
-/

namespace HouseStyle

/-- The pieces of a text between the occurrences of a character. -/
def piecesOf (separator : Char) : List Char → List (List Char)
  | [] => [[]]
  | c :: rest =>
    if c = separator then [] :: piecesOf separator rest
    else
      match piecesOf separator rest with
      | piece :: more => (c :: piece) :: more
      | [] => [[c]]

theorem piecesOf_ne_nil (separator : Char) (cs : List Char) : piecesOf separator cs ≠ [] := by
  fun_cases piecesOf separator cs <;> simp_all

theorem intercalate_piecesOf (separator : Char) (cs : List Char) :
    [separator].intercalate (piecesOf separator cs) = cs := by
  induction cs with
  | nil => rfl
  | cons c rest ih =>
    have hne := piecesOf_ne_nil separator rest
    match hp : piecesOf separator rest, hne with
    | piece :: more, _ =>
      rw [hp] at ih
      by_cases h : c = separator
      · simp [piecesOf, h, hp, List.intercalate_cons_cons, ih]
      · rw [piecesOf, if_neg h, hp]
        cases more with
        | nil => simpa [List.intercalate] using ih
        | cons next others =>
          rw [List.intercalate_cons_cons] at ih ⊢
          simp [← ih]

/-- Whether a text occurs in another. -/
def occursIn (needle : List Char) : List Char → Bool
  | [] => needle.isEmpty
  | c :: rest => needle.isPrefixOf (c :: rest) || occursIn needle rest

/-- What comes before and after the first occurrence of a text in another. -/
def cutAt? (needle : List Char) : List Char → Option (List Char × List Char)
  | [] => if needle.isEmpty then some ([], []) else none
  | c :: rest =>
    if needle.isPrefixOf (c :: rest) then some ([], (c :: rest).drop needle.length)
    else (cutAt? needle rest).map fun (before, after) => (c :: before, after)

end HouseStyle
