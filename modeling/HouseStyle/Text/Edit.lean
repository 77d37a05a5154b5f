import HouseStyle.Text.Span

/-!
# Edits

An edit replaces the text of a span. Many fixes of one text are chosen and
applied together: `Edit.select` keeps a conflict-free choice, earliest first,
and `Edit.applyAll` performs a conflict-free collection at once.

* `Edit.select` keeps an edit exactly when no edit kept before it overlaps it.
* `Edit.applyAll` refuses overlapping edits and edits that end past the text.
-/

namespace HouseStyle

/-- A replacement of the text of a span, made for a rule. -/
structure Edit where
  span : Span
  replacement : String
  rule : String
  deriving DecidableEq

/-- Why a collection of edits cannot be applied. -/
inductive EditError where
  /-- Two edits compete for the same text. -/
  | conflict (earlier later : Edit)
  /-- An edit ends past the text. -/
  | outside (span : Span)
  deriving DecidableEq

namespace Edit

/-- The name an edit goes by in a message. -/
def label (e : Edit) : String :=
  if e.rule = "" then "edit" else e.rule

/-- The order by start, then end, then rule. -/
def precedesOrEqual (a b : Edit) : Bool :=
  decide (a.span.start < b.span.start) ||
    (a.span.start == b.span.start &&
      (decide (a.span.stop < b.span.stop) ||
        (a.span.stop == b.span.stop && decide (a.rule ≤ b.rule))))

/-- The edits in order; equal ones stay in the order given. -/
def sorted (edits : List Edit) : List Edit :=
  edits.mergeSort precedesOrEqual

/-- Adds an edit to those kept so far unless it overlaps one of them. -/
def keep (kept : List Edit) (e : Edit) : List Edit :=
  if kept.any fun k => e.span.overlaps k.span then kept else kept ++ [e]

/-- A choice of edits without overlap, taken greedily in order. -/
def select (edits : List Edit) : List Edit :=
  (sorted edits).foldl keep []

/-- The edits of a list that are not kept when `kept` are those kept so far. -/
def skippedFrom (kept : List Edit) : List Edit → List Edit
  | [] => []
  | e :: rest =>
    if kept.any fun k => e.span.overlaps k.span then e :: skippedFrom kept rest
    else skippedFrom (kept ++ [e]) rest

/-- The edits that a choice without overlap leaves out. -/
def skipped (edits : List Edit) : List Edit :=
  skippedFrom [] (sorted edits)

/-- The first two neighbours of a list that overlap. -/
def firstConflict? : List Edit → Option (Edit × Edit)
  | a :: b :: rest =>
    if a.span.overlaps b.span then some (a, b) else firstConflict? (b :: rest)
  | _ => none

/-- The text with one span replaced. -/
def splice (text : List Char) (e : Edit) : List Char :=
  text.take e.span.start ++ e.replacement.toList ++ text.drop e.span.stop

/-- Applies edits in order of their spans, the last one first, so that no
replacement moves the span of an edit still to come. -/
def applyBackwards (text : List Char) : List Edit → Except EditError (List Char)
  | [] => .ok text
  | e :: rest =>
    match applyBackwards text rest with
    | .error err => .error err
    | .ok done => if e.span.stop ≤ text.length then .ok (splice done e) else .error (.outside e.span)

/-- Performs all edits at once, or tells why that is impossible. -/
def applyAll (text : List Char) (edits : List Edit) : Except EditError (List Char) :=
  let ordered := sorted edits
  match firstConflict? ordered with
  | some (a, b) => .error (.conflict a b)
  | none => applyBackwards text ordered

end Edit

namespace EditError

/-- The wording of a refused collection of edits. -/
def message : EditError → String
  | .conflict a b =>
    s!"{a.label} at [{a.span.start}, {a.span.stop}) overlaps " ++
      s!"{b.label} at [{b.span.start}, {b.span.stop})"
  | .outside s => s!"edit span [{s.start}, {s.stop}) is outside the source"

end EditError

end HouseStyle
