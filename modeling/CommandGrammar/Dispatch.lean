import CommandGrammar.Tree.Basic

/-!
# `Dispatch` — reading, running and completing lines by a grammar

A line is read by descending the tree: the candidates below a node are tried in order, and each one that matches is
followed further. Where no candidate matches, reading stalls and remembers why each of them failed. What was read can
then be run, and completed at a cursor.

## Contents

* `Dispatch.Settings` — how a dispatcher works;
* `Parse`, `Parse.isComplete`, `Parse.rank`, `Parse.best?` — results, and which one is preferred;
* `Branch.attempt`, `Tree.attempts` — trying the candidates below a node;
* `Tree.search` — the descent;
* `Dispatcher`, `Dispatcher.parse` — a tree with settings, and reading a line with it;
* `Dispatcher.handlerOf`, `Dispatcher.execute` — running a line: the handler of the last node that matched, if the whole
  line was read, and what is wrong otherwise;
* `Dispatcher.contribution`, `Dispatcher.complete` — completing a line: every child of the node that may stand at the
  cursor contributes suggestions, and one that fails contributes nothing;
* `Tree.linesBelow`, `Dispatcher.usage` — usage lines: the ways from a node down to executable ones.
-/

namespace CommandGrammar

/-! ## Settings -/

/-- How a dispatcher parses and completes. -/
structure Dispatch.Settings where
  /-- Whether every way of reading a line is tried, instead of the first one that matches. -/
  exhaustive : Bool := false
  /-- Whether the children of a node may be asked for suggestions side by side. The merged answer
      is the same either way. -/
  parallel : Bool := true
  /-- Whether a provider that breaks a contract only loses its own suggestions. -/
  isolate : Bool := true
deriving DecidableEq, Repr

namespace Dispatch.Settings

/-- Settings under which providers are asked one after the other. -/
def sequential : Settings := { parallel := false }

/-- Settings under which every way of reading a line is tried. -/
def thorough : Settings := { exhaustive := true }

end Dispatch.Settings

variable {S : Type}

/-! ## Results -/

/-- What reading a line came to. -/
structure Parse (S : Type) where
  /-- Where reading ended. -/
  scanner : Scanner
  /-- What was matched. -/
  trail : Trail S (Handler S)
  /-- Why each candidate failed where reading stalled, in the order of registration. -/
  errors : List (NodeId × Error) := []

namespace Parse

/-- The line. -/
def input (p : Parse S) : String := p.scanner.text

/-- Whether the whole line was read. -/
def isComplete (p : Parse S) : Bool := !p.scanner.canRead

/-- How far a result is from perfect: first whether something was left over, then whether
    candidates failed. -/
def rank (p : Parse S) : Nat :=
  (if p.scanner.canRead then 2 else 0) + (if p.errors.isEmpty then 0 else 1)

/-- The first of the results with the least rank. -/
def best? : List (Parse S) → Option (Parse S)
  | [] => none
  | p :: ps => some (ps.foldl (fun best q => if q.rank < best.rank then q else best) p)

end Parse

/-! ## Trying candidates -/

/-- What matching a candidate leaves behind. -/
structure Matched (S : Type) where
  /-- The node that matched. -/
  node : NodeId
  /-- Where it ended. -/
  scanner : Scanner
  /-- The trail up to and including the node. -/
  trail : Trail S (Handler S)

/-- Tries a candidate. It must end before a separator or at the end of the line. -/
def Branch.attempt (b : Branch S) (id : NodeId) (s : Scanner) (trail : Trail S (Handler S)) :
    Except Error (Matched S) :=
  match b.label.read id s trail with
  | .error e _ => .error e
  | .ok trail t =>
    if t.atBreak then .ok ⟨id, t, trail.withHandler b.handler⟩
    else .error (t.error .separatorExpected)

namespace Tree

/-- Tries all candidates below a node that the source may use. -/
def attempts (t : Tree S) (node : NodeId) (s : Scanner) (trail : Trail S (Handler S)) :
    List (NodeId × Except Error (Matched S)) :=
  ((t.candidates node s).filter fun c => c.1.requirement trail.source).map fun c =>
    (c.2, c.1.attempt c.2 s trail)

/-- The candidates that matched. -/
def successes (tried : List (NodeId × Except Error (Matched S))) : List (Matched S) :=
  tried.filterMap fun c => c.2.toOption

/-- The candidates that failed, and why. -/
def failures (tried : List (NodeId × Except Error (Matched S))) : List (NodeId × Error) :=
  tried.filterMap fun c =>
    match c.2 with
    | .error e => some (c.1, e)
    | .ok _ => none

/-! ## Descending -/

/-- Reads the line from a node on. A match with more than a separator behind it is followed past
    the separator; other matches are results. Every step down passes a separator, so `fuel` needs
    to exceed the number of characters still to come. -/
def search (t : Tree S) (exhaustive : Bool) :
    (fuel : Nat) → NodeId → Scanner → Trail S (Handler S) → Parse S
  | 0, _, s, trail => { scanner := s, trail }
  | fuel + 1, node, s, trail =>
    let tried := t.attempts node s trail
    -- The first match is enough unless every way of reading is to be tried.
    let matched := if exhaustive then successes tried else (successes tried).take 1
    let results := matched.map fun m =>
      if m.scanner.canReadBytes 2 then t.search exhaustive fuel m.node m.scanner.skip m.trail
      else { scanner := m.scanner, trail := m.trail }
    (Parse.best? results).getD { scanner := s, trail, errors := failures tried }

end Tree

/-! ## Dispatchers -/

/-- A grammar and how to work with it. -/
structure Dispatcher (S : Type) where
  /-- The grammar. -/
  tree : Tree S := {}
  /-- How to parse and complete. -/
  settings : Dispatch.Settings := {}

namespace Dispatcher

/-- Adds a command to the grammar, and tells the id of its node. -/
def register (d : Dispatcher S) (declaration : Declaration S) : Dispatcher S × NodeId :=
  let registered := d.tree.register declaration
  ({ d with tree := registered.1 }, registered.2)

/-- Adds commands to the grammar. -/
def registerAll (d : Dispatcher S) (declarations : List (Declaration S)) : Dispatcher S :=
  declarations.foldl (fun d declaration => (d.register declaration).1) d

/-- Reads the rest of a line. -/
def parseFrom (d : Dispatcher S) (s : Scanner) (source : S) : Parse S :=
  d.tree.search d.settings.exhaustive (s.rest.length + 1) 0 s (Trail.start source 0 s.cursor)

/-- Reads a line. -/
def parse (d : Dispatcher S) (line : String) (source : S) : Parse S :=
  d.parseFrom (Scanner.ofString line) source

/-! ## Running a line -/

/-- What is wrong with a line of which something was left over although no candidate failed. -/
def leftover (d : Dispatcher S) (p : Parse S) : Error.Kind :=
  match p.trail.steps.getLast? with
  | none => .unknownCommand
  | some last => if (d.tree.children last.node).isEmpty then .separatorExpected
    else .incorrectArgument

/-- The usage texts of the nodes that matched. -/
def pathUsage (d : Dispatcher S) (p : Parse S) : String :=
  " ".intercalate (p.trail.steps.map fun step => d.tree.usageOf step.node)

/-- The handler to run, or why none can be. -/
def handlerOf (d : Dispatcher S) (p : Parse S) : Except Error (Handler S) :=
  if p.scanner.canRead then
    .error (p.errors.head?.elim (p.scanner.error (d.leftover p)) Prod.snd)
  else if p.trail.steps.isEmpty then .error (p.scanner.error .unknownCommand)
  else match p.trail.handler with
    | some handler => .ok handler
    | none => .error (p.scanner.error (.notExecutable (d.pathUsage p)))

/-- Runs a line that was read: the outcome, and the source afterwards. -/
def execute (d : Dispatcher S) (p : Parse S) : Except Error Unit × S :=
  match d.handlerOf p with
  | .ok handler => handler (p.trail.build p.input)
  | .error e => (.error e, p.trail.source)

/-- Reads and runs a line. -/
def run (d : Dispatcher S) (line : String) (source : S) : Except Error Unit × S :=
  d.execute (d.parse line source)

/-! ## Completing a line -/

/-- What a child contributes. -/
def contribution (d : Dispatcher S) (context : Context S) (b : Builder) (branch : Branch S) :
    Except Fault Suggestions :=
  match branch.label.suggest context b with
  | .ok set => .ok set
  | .error (.error _) => .ok .empty
  | .error (.fault fault) => if d.settings.isolate then .ok .empty else .error fault

/-- The suggestions for a line that was read, with the cursor at a byte offset. -/
def complete (d : Dispatcher S) (p : Parse S) (cursor : Nat) : Except Fault Suggestions := do
  let slot ← p.trail.locate cursor
  let typed ← Fault.before p.input cursor
  let b ← Builder.ofStart typed (min slot.start cursor)
  let contributions ← (d.tree.children slot.parent).mapM fun child =>
    d.contribution (p.trail.build typed) b child.1
  Suggestions.merge p.input contributions

/-- The suggestions for a line that was read, with the cursor at its end. -/
def completeAtEnd (d : Dispatcher S) (p : Parse S) : Except Fault Suggestions :=
  d.complete p p.scanner.totalSize

end Dispatcher

/-! ## Usage lines -/

namespace Tree

/-- A usage line made longer by one text. -/
def extend (path text : String) : String := if path = "" then text else path ++ " " ++ text

/-- The lines of the executable nodes below a node, leaving out what stands below a node that is
    not allowed. Children are registered after their parents, so `fuel` is enough when it is the
    number of nodes. -/
def linesBelow (t : Tree S) (allowed : Branch S → Bool) :
    (fuel : Nat) → NodeId → (path : String) → List String
  | 0, _, _ => []
  | fuel + 1, node, path =>
    ((t.children node).filter fun c => allowed c.1).flatMap fun c =>
      let path := extend path c.1.label.usage
      let below := t.linesBelow allowed fuel c.2 path
      if c.1.handler.isSome then path :: below else below

end Tree

/-- The usage lines of a node: all of them, or only those that the source may use. -/
def Dispatcher.usage (d : Dispatcher S) (id : NodeId) (source : S) (restricted : Bool) :
    Except Fault (List String) := do
  let node ← d.tree.node id
  if restricted && !node.allows source then return []
  let below := d.tree.linesBelow (fun b => !restricted || b.requirement source) d.tree.size id ""
  return if node.handler.isSome then "" :: below else below

end CommandGrammar
