import HouseStyle.Parse.Parsed
import HouseStyle.Rule.Basic

/-!
# Walking a tree with rules

One walk in document order visits every node of a tree, and at each node the
rules for its kind run in the order they are given. The walk keeps a stack of
frames: the children of one node that are still to visit, their scope, and the
memory that they share.

* `matchTree` collects the findings of a walk.
* `runRule` is what one rule finds at one node: a crash is a finding, and so is a
  violation beyond the end of the text.
-/

namespace HouseStyle

/-- A violation with what produced it, so that it can be mended later. -/
structure Finding where
  rule : Rule
  node : Node
  context : Context
  violation : Violation

/-- The memories of the rules for the children of one node, by rule name. -/
abbrev Memories := List (String × Memory)

namespace Memories

/-- The memory of a rule; empty at first. -/
def get (ms : Memories) (id : String) : Memory :=
  ((ms.find? fun e => e.1 == id).map Prod.snd).getD []

/-- Replaces the memory of a rule. -/
def set (ms : Memories) (id : String) (m : Memory) : Memories :=
  (id, m) :: ms.filter fun e => e.1 != id

end Memories

/-- The message of a crash of a rule at a node. -/
def crashMessage (r : Rule) (n : Node) (c : Crash) : String :=
  s!"{r.id} crashed on {n.kind}: {c.kind}: {c.message}"

/-- The message about a violation beyond the end of the text. -/
def outsideMessage (r : Rule) (s : Span) : String :=
  s!"{r.id} reported span [{s.start}, {s.stop}) outside the file"

/-- The finding that a rule misbehaved at a node. -/
def crashFinding (r : Rule) (n : Node) (c : Context) (message : String) : Finding :=
  let span := n.span.clamp c.text.size
  let location := c.text.location span
  { rule := r, node := n, context := c
    violation :=
      { rule := ruleCrashId, span, location, message, severity := .error, fixable := false
        line := some (c.text.lineText location.start.line) } }

/-- A violation as a finding, unless it lies beyond the end of the text. -/
def findingOf (r : Rule) (n : Node) (c : Context) (v : Violation) : Finding :=
  if c.text.size < v.span.stop then crashFinding r n c (outsideMessage r v.span)
  else { rule := r, node := n, context := c, violation := v }

/-- What a rule sees at a node of a text. -/
def contextFor (t : Source) (settings : Settings) (scope : Scope) (r : Rule) : Context :=
  { text := t, scope, info := r.info, options := fun id => (settings.rule id).options }

/-- What a rule finds at a node, and the memory it leaves. -/
def runRule (r : Rule) (n : Node) (c : Context) (m : Memory) : List Finding × Memory :=
  match r.applies n with
  | .error crash => ([crashFinding r n c (crashMessage r n crash)], m)
  | .ok false => ([], m)
  | .ok true =>
    match r.check n c m with
    | (.error crash, m') => ([crashFinding r n c (crashMessage r n crash)], m')
    | (.ok violations, m') => (violations.map (findingOf r n c), m')

/-- Whether a rule runs at nodes of a kind in a language. -/
def Rule.concerns (r : Rule) (language : Language) (kind : String) : Bool :=
  r.info.languages.contains language && r.info.kinds.contains kind

/-- What some rules find at a node, in order, and the memories they leave. A rule
without settings ends the walk. -/
def runRules (t : Source) (settings : Settings) (scope : Scope) (n : Node) :
    List Rule → Memories → Except Failure (List Finding × Memories)
  | [], ms => .ok ([], ms)
  | r :: rest, ms =>
    if (RuleId.ofName? r.id).isNone then .error (.unknownRule r.id)
    else
      let (found, m) := runRule r n (contextFor t settings scope r) (ms.get r.id)
      match runRules t settings scope n rest (ms.set r.id m) with
      | .error e => .error e
      | .ok (more, ms') => .ok (found ++ more, ms')

/-- The children of a node that are still to visit. -/
structure Frame where
  scope : Scope
  pending : List Node
  memories : Memories

/-- The number of steps that a stack of frames takes. -/
def stackSize : List Frame → Nat
  | [] => 0
  | f :: rest => 2 * Node.countList f.pending + 1 + stackSize rest

/-- Visits the nodes of a stack of frames. -/
def walkFrames (t : Source) (settings : Settings) (rulesFor : String → List Rule) :
    List Frame → Except Failure (List Finding)
  | [] => .ok []
  | ⟨_, [], _⟩ :: rest => walkFrames t settings rulesFor rest
  | ⟨scope, n :: pending, memories⟩ :: rest =>
    match runRules t settings scope n (rulesFor n.kind) memories with
    | .error e => .error e
    | .ok (found, memories') =>
      let below : Frame := ⟨scope.enter n, n.children, []⟩
      match walkFrames t settings rulesFor (below :: ⟨scope, pending, memories'⟩ :: rest) with
      | .error e => .error e
      | .ok more => .ok (found ++ more)
termination_by frames => stackSize frames
decreasing_by
  · simp [stackSize, Node.countList]
  · cases n
    simp [stackSize, Node.countList, Node.count]
    omega

/-- What rules find in a tree of a text. -/
def matchTree (p : Parsed) (rules : List Rule) (settings : Settings) :
    Except Failure (List Finding) :=
  match p.tree? with
  | none => .ok []
  | some tree =>
    let rulesFor (kind : String) := rules.filter fun r => r.concerns p.language kind
    walkFrames p.text settings rulesFor [⟨.document p.text.size, [tree], []⟩]

end HouseStyle
