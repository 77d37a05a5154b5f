import HouseStyle.Rule.Basic
import HouseStyle.Rule.StandardModules
import HouseStyle.Text.Blank
import HouseStyle.Text.Casing
import HouseStyle.Text.Letter

/-!
# The order of imports

The imports that begin a module come in groups, in a fixed order and with a blank
line between them, and each group is sorted by path.

* `importGrouping`: the rule.
* `ImportGrouping.entries` is the block of imports that begins a module.
* `ImportGrouping.Entry.before` is the order that the block should have.
* `ImportGrouping.reordered` is the block in that order, whole lines at a time, each
  statement with the comments above it.
-/

namespace HouseStyle

namespace ImportGrouping

/-! ### Groups -/

/-- The groups in which imports come. -/
inductive Group where
  | future
  | standard
  | thirdParty
  | framework
  | ownProject
  | guarded
  deriving DecidableEq

namespace Group

/-- The place of a group in a module. -/
def rank : Group → Nat
  | .future => 0
  | .standard => 1
  | .thirdParty => 2
  | .framework => 3
  | .ownProject => 4
  | .guarded => 5

/-- What a message calls a group. -/
def label : Group → String
  | .future => "__future__"
  | .standard => "standard library"
  | .thirdParty => "third-party"
  | .framework => "framework"
  | .ownProject => "local"
  | .guarded => "try/except"

/-- What a message calls a group at the start of a sentence. -/
def title : Group → String
  | .future => "__future__"
  | .standard => "Standard library"
  | .thirdParty => "Third-party"
  | .framework => "Framework"
  | .ownProject => "Local"
  | .guarded => "Try/except"

end Group

/-- The path of an import statement: a dot for each package it goes up and the
module, or the first module that it names. -/
def importPath (n : Node) : String :=
  match n.label with
  | .python (.importFrom moduleName level _) => "".pushn '.' level ++ moduleName
  | .python (.importNames names) => names.headD ""
  | _ => ""

/-- The first component of a path. -/
def topLevel (path : String) : String :=
  String.ofList (path.toList.takeWhile (· != '.'))

/-- The group of a path that is no relative import. -/
def groupOfPath (o : ImportGroupingOptions) (path : String) : Group :=
  let top := topLevel path
  if o.localPackages.contains top then .ownProject
  else if o.frameworkPackages.contains top then .framework
  else if isStandardModule top then .standard
  else .thirdParty

/-- The group of an import statement. -/
def groupOf (o : ImportGroupingOptions) (n : Node) : Group :=
  match n.label with
  | .python (.importFrom moduleName level _) =>
    if 0 < level then .ownProject
    else if moduleName = "__future__" then .future
    else groupOfPath o (importPath n)
  | _ => groupOfPath o (importPath n)

/-! ### The block of imports -/

/-- A statement of the block of imports: the import that decides its place, its
lines, and the first line of the comments that belong to it. -/
structure Entry where
  node : Node
  group : Group
  path : String
  /-- Whether the import names what it takes from a module. -/
  isFrom : Bool
  firstLine : Nat
  lastLine : Nat
  chunkStart : Nat

/-- Whether a node is an import. -/
def isImport (n : Node) : Bool :=
  match n.label with
  | .python (.importNames _) | .python (.importFrom _ _ _) => true
  | _ => false

/-- The imports of a line that holds nothing else. -/
def importLine? (n : Node) : Option (List Node) :=
  if n.hasShape .simpleStatementLine && !n.children.isEmpty && n.children.all isImport then
    some n.children
  else none

/-- The imports of a `try` statement whose body holds nothing else. -/
def guardedImports? (n : Node) : Option (List Node) :=
  if n.hasShape .tryStatement then
    match n.children.find? fun c => c.hasShape .indentedBlock with
    | none => none
    | some body =>
      if body.children.isEmpty then none
      else (body.children.mapM importLine?).map List.flatten
  else none

/-- Whether a statement is a documentation string. -/
def isDocstring (n : Node) : Bool :=
  n.hasShape .simpleStatementLine &&
    match n.children with
    | [e] =>
      e.hasShape .expressionStatement &&
        e.children.any fun c =>
          match c.label with
          | .python (.simpleString _ _ _) => true
          | _ => c.hasShape .concatenatedString
    | _ => false

/-- Whether a line begins with a number sign, blanks apart. -/
def isCommentLine (t : Source) (line : Nat) : Bool :=
  (trimChars (t.lineText line).toList).head? == some '#'

/-- Whether a line holds nothing but blanks. -/
def isBlankLine (t : Source) (line : Nat) : Bool :=
  isBlankText (t.lineText line)

/-- Whether a text begins with the name of an encoding after `coding` and a mark. -/
def namesEncoding (cs : List Char) : Bool :=
  "coding".toList.isPrefixOf cs &&
    match cs.drop 6 with
    | mark :: rest =>
      (mark == ':' || mark == '=') &&
        match rest.dropWhile fun c => c == ' ' || c == '\t' with
        | c :: _ => isWordChar c || c == '-' || c == '.'
        | [] => false
    | [] => false

/-- Whether a text names an encoding anywhere. -/
def mentionsEncoding : List Char → Bool
  | [] => false
  | c :: rest => namesEncoding (c :: rest) || mentionsEncoding rest

/-- Whether a line is a comment that declares an encoding. -/
def declaresEncoding (line : List Char) : Bool :=
  match line.dropWhile fun c => c == ' ' || c == '\t' || c == '\x0c' with
  | '#' :: rest => mentionsEncoding rest
  | _ => false

/-- Whether a line has to stay at the top of a file: the interpreter on the first
line, the encoding on one of the first two. -/
def isFileHeader (t : Source) (line : Nat) : Bool :=
  let text := (t.lineText line).toList
  (line == 1 && "#!".toList.isPrefixOf text) || (decide (line ≤ 2) && declaresEncoding text)

/-- The first line of the comments above a statement, looked for from a line
upwards as far as the line after `floor`; `start` is the best one so far. Blank lines
are passed over unless the comments have to be contiguous. -/
def commentStart (t : Source) (floor : Nat) (contiguous : Bool) : Nat → Nat → Nat
  | 0, start => start
  | line + 1, start =>
    if line + 1 ≤ floor || isFileHeader t (line + 1) then start
    else if isCommentLine t (line + 1) then commentStart t floor contiguous line (line + 1)
    else if contiguous || !isBlankLine t (line + 1) then start
    else commentStart t floor contiguous line start

/-- The imports of a statement of the block and the group they belong to. -/
def classify? (o : ImportGroupingOptions) (n : Node) : Option (Node × Group) :=
  match importLine? n with
  | some (first :: _) => some (first, groupOf o first)
  | _ =>
    match guardedImports? n with
    | some (first :: _) => some (first, .guarded)
    | _ => none

/-- The entry of a statement when `previous` is the entry before it. -/
def entryOf (t : Source) (previous : Option Entry) (n first : Node) (group : Group) : Entry :=
  let firstLine := t.lineOf n.span.start
  { node := n, group, path := importPath first
    isFrom := match first.label with
      | .python (.importNames _) => false
      | _ => true
    firstLine
    lastLine := t.lineOf (max n.span.start (n.span.stop - 1))
    chunkStart := commentStart t ((previous.map Entry.lastLine).getD 0) previous.isNone
      (firstLine - 1) firstLine }

/-- The entries of statements up to the first that is no import. -/
def entriesFrom (t : Source) (o : ImportGroupingOptions) (previous : Option Entry) :
    List Node → List Entry
  | [] => []
  | n :: rest =>
    match classify? o n with
    | none => []
    | some (first, group) =>
      let entry := entryOf t previous n first group
      entry :: entriesFrom t o (some entry) rest

/-- The block of imports that begins a module, after its documentation string. -/
def entries (t : Source) (o : ImportGroupingOptions) (root : Node) : List Entry :=
  let statements :=
    match root.children with
    | first :: rest => if isDocstring first then rest else first :: rest
    | [] => []
  entriesFrom t o none statements

/-! ### Order -/

/-- The order of imports: by group, by path without regard to case, plain imports
first, by path. -/
def Entry.before (a b : Entry) : Bool :=
  let foldedA := caseFold a.path
  let foldedB := caseFold b.path
  decide (a.group.rank < b.group.rank) ||
    (a.group.rank == b.group.rank &&
      (decide (foldedA < foldedB) ||
        (foldedA == foldedB &&
          (decide (a.isFrom.toNat < b.isFrom.toNat) ||
            (a.isFrom == b.isFrom && decide (a.path < b.path))))))

/-- Whether one of the lines between two lines is blank. -/
def hasBlankLine (t : Source) (after before : Nat) : Bool :=
  (List.range' (after + 1) (before - (after + 1))).any (isBlankLine t)

/-- What is said of an entry that should come before an earlier one. -/
def orderMessage (entry highest : Entry) : String :=
  if entry.group.rank < highest.group.rank then
    s!"{entry.group.title} import '{entry.path}' should come before {highest.group.label} imports"
  else
    s!"Import '{entry.path}' is not alphabetized within {entry.group.label} imports " ++
      s!"(should come before '{highest.path}')"

/-- What is said of two groups without a blank line between them. -/
def separatorMessage (previous entry : Entry) : String :=
  s!"Missing blank line between {previous.group.label} and {entry.group.label} imports"

/-- Whether an entry begins a group right below the entry before it. -/
def lacksSeparator (t : Source) (previous : Option Entry) (entry : Entry) : Bool :=
  match previous with
  | none => false
  | some p => p.group != entry.group && !hasBlankLine t p.lastLine entry.firstLine

/-- Reports entries out of order, and otherwise groups that are not set apart;
`highest` is the last entry in order and `previous` the entry before. -/
def checkFrom (c : Context) (highest previous : Option Entry) : List Entry → List Violation
  | [] => []
  | entry :: rest =>
    match highest.filter entry.before with
    | some h => c.violation entry.node.span (orderMessage entry h) :: checkFrom c highest (some entry) rest
    | none =>
      let later := checkFrom c (some entry) (some entry) rest
      match previous with
      | some p =>
        if lacksSeparator c.text previous entry then
          c.violation entry.node.span (separatorMessage p entry) :: later
        else later
      | none => later

/-- Reports what is wrong with the imports of a module. -/
def check (n : Node) (c : Context) : List Violation :=
  checkFrom c none none (entries c.text (c.options .importGrouping) n)

/-! ### Rewriting -/

/-- A line with the text's line break. -/
def brokenLine (t : Source) (line : Nat) : String :=
  t.lineText line ++ t.newline

/-- The lines of an entry: its comments without the blank lines among them, and the
statement. -/
def chunk (t : Source) (e : Entry) : String :=
  let comments := (List.range' e.chunkStart (e.firstLine - e.chunkStart)).filter fun line =>
    !isBlankLine t line
  let statement := List.range' e.firstLine (e.lastLine + 1 - e.firstLine)
  String.join ((comments ++ statement).map (brokenLine t))

/-- The entries in order. -/
def sorted (es : List Entry) : List Entry :=
  es.mergeSort fun a b => !b.before a

/-- The text of entries in order, group by group: the first group's text, then the
texts of the groups after it. -/
def groupTexts (t : Source) : List Entry → List String
  | [] => []
  | e :: rest =>
    match rest, groupTexts t rest with
    | next :: _, text :: more =>
      if e.group = next.group then (chunk t e ++ text) :: more else chunk t e :: text :: more
    | _, more => chunk t e :: more

/-- The block of imports in order. -/
def reordered (t : Source) (es : List Entry) : String :=
  t.newline.intercalate (groupTexts t (sorted es))

/-- Whether two neighbours share a line. -/
def sharesLine : List Entry → Bool
  | a :: b :: rest => decide (b.firstLine ≤ a.lastLine) || sharesLine (b :: rest)
  | _ => false

/-- Puts the block of imports in order, unless two statements share a line. -/
def fix (n : Node) (c : Context) : Option Edit :=
  let t := c.text
  let es := entries t (c.options .importGrouping) n
  match es, es.getLast? with
  | first :: _ :: _, some last =>
    if sharesLine es then none
    else
      let start := t.lineStart first.chunkStart
      let stop := t.lineEndWithBreak last.lastLine
      let before := t.sliceChars start stop
      let text := (reordered t es).toList
      let after := if before.getLast? == some '\n' then text
        else text.take (text.length - t.newline.length)
      if after = before then none
      else some { span := .between start stop, replacement := String.ofList after, rule := c.info.id }
  | _, _ => none

end ImportGrouping

/-- Flags imports out of group order or out of alphabetical order. -/
def importGrouping : Rule :=
  { info :=
      { id := RuleId.importGrouping.name, name := "Import Grouping", category := "imports"
        languages := [.python], kinds := ["Module"], severity := .error, fixable := true
        description := "Module imports come in six groups separated by a blank line:\n" ++
          "__future__, standard library, third-party, framework (Django),\n" ++
          "local/relative, then try/except-guarded imports. Each group is\n" ++
          "sorted by full module path."
        badExample := "from django.http import Http404\nimport json"
        goodExample := "import json\n\nfrom django.http import Http404"
        fixDescription := "Rewrites the import block in group order, keeping attached comments."
        configOptions := "[tool.styleguard.rules.\"python.import-grouping\"]\n" ++
          "options = \x7b framework_packages = [\"django\"], local_packages = [\"myproject\"] \x7d" }
    applies := fun n => .ok (n.hasShape .moduleFile)
    check := Rule.simpleCheck ImportGrouping.check
    fix := fun _ n c => .ok (ImportGrouping.fix n c) }

end HouseStyle
