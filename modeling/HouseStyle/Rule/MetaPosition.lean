import HouseStyle.Rule.Basic
import HouseStyle.Text.Blank

/-!
# The place of the inner options class

The options class inside a model follows the last field, after one blank line.

* `modelMetaPosition`: the rule.
* `MetaPosition.layout?` are the lines of the last field and of the options class.
* `MetaPosition.fix` moves the options class together with the comments right above
  it, whole lines at a time.
-/

namespace HouseStyle

namespace MetaPosition

/-- Where the last field and the options class of a class body are: their places
among the statements and their lines. -/
structure Layout where
  optionsClass : Node
  metaName : String
  metaIndex : Nat
  fieldIndex : Nat
  fieldLastLine : Nat
  metaLastLine : Nat
  /-- The first line of the comments right above the options class. -/
  metaChunkStart : Nat

/-- Whether a statement declares a field. -/
def isField (n : Node) : Bool :=
  n.hasShape .simpleStatementLine &&
    n.children.head?.any fun c => c.hasShape .assign || c.hasShape .annAssign

/-- The name of a class. -/
def className? (n : Node) : Option String :=
  match n.label with
  | .python (.classDef name _) => some name
  | _ => none

/-- Whether a statement is an options class. -/
def isMeta (o : ModelMetaOptions) (n : Node) : Bool :=
  (className? n).any o.metaClassNames.contains

/-- The first line of a statement and its decorators. -/
def firstLine (t : Source) (n : Node) : Nat :=
  let decorators := n.children.filter fun c => c.hasShape .decorator
  t.lineOf ((decorators.map fun d => d.span.start).foldl min n.span.start)

/-- The last line of a statement. -/
def lastLine (t : Source) (n : Node) : Nat :=
  t.lineOf (max n.span.start (n.span.stop - 1))

/-- The first line of the comments that end right above a line. -/
def commentStart (t : Source) : Nat → Nat
  | 0 => 0
  | 1 => 1
  | line + 2 =>
    if (trimChars (t.lineText (line + 1)).toList).head? == some '#' then commentStart t (line + 1)
    else line + 2

/-- The last of the places at which a list satisfies `p`. -/
def lastIndex? {α : Type} (p : α → Bool) (items : List α) : Option Nat :=
  (items.reverse.findIdx? p).map fun i => items.length - 1 - i

/-- Where the last field and the first options class of a class are, if it has
both. -/
def layout? (t : Source) (o : ModelMetaOptions) (n : Node) : Option Layout :=
  match n.children.find? fun c => c.hasShape .indentedBlock with
  | none => none
  | some body =>
    match body.children.findIdx? (isMeta o), lastIndex? isField body.children with
    | some metaIndex, some fieldIndex =>
      match body.children[metaIndex]?, body.children[fieldIndex]? with
      | some optionsClass, some lastField =>
        some
          { optionsClass, metaName := (className? optionsClass).getD "Meta", metaIndex, fieldIndex
            fieldLastLine := lastLine t lastField
            metaLastLine := lastLine t optionsClass
            metaChunkStart := commentStart t (firstLine t optionsClass) }
      | _, _ => none
    | _, _ => none

/-- Whether exactly one line lies between field and options class, and is blank. -/
def hasSeparator (t : Source) (l : Layout) : Bool :=
  l.metaChunkStart == l.fieldLastLine + 2 && isBlankText (t.lineText (l.fieldLastLine + 1))

/-- What is wrong with a layout. -/
def problem? (t : Source) (l : Layout) : Option String :=
  if l.metaIndex ≠ l.fieldIndex + 1 then
    some s!"{l.metaName} should come right after the last field declaration"
  else if hasSeparator t l then none
  else some s!"{l.metaName} should be separated from the last field by one blank line"

/-- Reports an options class out of place, at its name. -/
def check (n : Node) (c : Context) : List Violation :=
  match layout? c.text (c.options .modelMetaPosition) n with
  | none => []
  | some l =>
    match problem? c.text l with
    | none => []
    | some message =>
      let span := ((l.optionsClass.child? "Name").map Node.span).getD l.optionsClass.span
      [c.violation span message]

/-- A text without blank lines at either end, closed by a line break. -/
def tidy (newline : String) (cs : List Char) : String :=
  let kept := (dropEnds (fun line => line.all isBlank) (splitLines cs)).flatten
  if kept.isEmpty || kept.getLast? == some '\n' then String.ofList kept
  else String.ofList kept ++ newline

/-- The edit of the text between two offsets. -/
def replace (c : Context) (start stop : Nat) (replacement : String) :
    Except Crash (Option Edit) :=
  match Span.ofBounds? start stop with
  | .ok span => .ok (some { span, replacement, rule := c.info.id })
  | .error e => .error { kind := "ValueError", message := e.message }

/-- The lines of the options class, closed by a line break. -/
def metaText (t : Source) (start stop : Nat) : String :=
  let cs := t.sliceChars start stop
  if cs.getLast? == some '\n' then String.ofList cs else String.ofList cs ++ t.newline

/-- Moves the options class below the last field, or makes what is between them one
blank line. -/
def fix (n : Node) (c : Context) : Except Crash (Option Edit) :=
  let t := c.text
  match layout? t (c.options .modelMetaPosition) n with
  | none => .ok none
  | some l =>
    let metaStart := t.lineStart l.metaChunkStart
    let metaStop := t.lineEndWithBreak l.metaLastLine
    let fieldStop := t.lineEndWithBreak l.fieldLastLine
    let moved := metaText t metaStart metaStop
    if l.metaIndex < l.fieldIndex then
      let following := tidy t.newline (t.sliceChars metaStop fieldStop)
      replace c metaStart fieldStop (following ++ t.newline ++ moved)
    else if l.fieldIndex + 1 < l.metaIndex then
      let between := tidy t.newline (t.sliceChars fieldStop metaStart)
      replace c fieldStop metaStop (t.newline ++ moved ++ t.newline ++ between)
    else if l.metaChunkStart ≤ l.fieldLastLine then .ok none
    else if (t.sliceChars fieldStop metaStart).all isBlank then
      replace c fieldStop metaStart t.newline
    else .ok none

end MetaPosition

/-- Flags an inner options class that does not directly follow the last field. -/
def modelMetaPosition : Rule :=
  { info :=
      { id := RuleId.modelMetaPosition.name, name := "Model Meta Position", category := "django"
        languages := [.python], kinds := ["ClassDef"], severity := .warning, fixable := true
        description := "The inner Meta class comes right after the last field\n" ++
          "declaration, separated from it by exactly one blank line."
        badExample := "class A(models.Model):\n    class Meta: ...\n    name = models.CharField()"
        goodExample := "class A(models.Model):\n    name = models.CharField()\n\n    class Meta: ..."
        fixDescription := "Moves Meta below the last field and normalises the blank line."
        configOptions := "[tool.styleguard.rules.\"python.model-meta-position\"]\n" ++
          "options = \x7b meta_class_names = [\"Meta\"] \x7d" }
    applies := fun n => .ok (MetaPosition.className? n).isSome
    check := Rule.simpleCheck MetaPosition.check
    fix := fun _ n c => MetaPosition.fix n c }

end HouseStyle
