import CommandGrammar.Dispatch

/-!
# `Console` — running and completing typed lines

A console is a dispatcher for lines as a user types them: a line may start with a lead mark that is
not part of the command, and what a handler says and what goes wrong come back as lines of text.

## Contents

* `Console.Settings` — the lead mark, and what is shown;
* `Feedback` — sources that collect what handlers say;
* `Console.offset`, `Console.command`, `Console.parse` — the command within a line;
* `Outcome`, `Console.diagnostics`, `Console.runLine`, `Console.runLines` — running lines;
* `Completion`, `Console.startOf`, `Console.complete` — completing a line.
-/

namespace CommandGrammar

/-! ## Settings -/

/-- What a console accepts and shows. -/
structure Console.Settings where
  /-- The text that may stand in front of a command. -/
  lead : String := "/"
  /-- Whether the errors of all failed candidates are shown. -/
  report : Bool := true
  /-- What is shown when a line is asked for. -/
  prompt : String := "argot> "
  /-- How many lines are remembered. -/
  history : Nat := 1000
  /-- Whether a session starts with a welcome. -/
  banner : Bool := true
deriving DecidableEq, Repr

/-- Settings under which nothing is shown unasked. -/
def Console.Settings.quiet : Console.Settings := { report := false, banner := false }

/-- Sources that collect what handlers say. -/
class Feedback (S : Type) where
  /-- Takes out what was said. -/
  drain : S → List String × S

/-- A source to which nothing is said. -/
instance : Feedback Unit := ⟨fun source => ([], source)⟩

/-- A dispatcher for typed lines. -/
structure Console (S : Type) where
  /-- What reads and runs the commands. -/
  dispatcher : Dispatcher S
  /-- What is accepted and shown. -/
  settings : Console.Settings := {}

/-- What running a line came to. -/
structure Outcome where
  /-- The line without the lead mark. -/
  command : String
  /-- What went wrong, if anything did. -/
  error : Option Error := none
  /-- What the handler said. -/
  feedback : List String := []
  /-- What is to be said about the error. -/
  diagnostics : List String := []

namespace Outcome

/-- Whether the line was run. -/
def isSuccess (outcome : Outcome) : Bool := outcome.error.isNone

/-- Everything there is to show. -/
def messages (outcome : Outcome) : List String := outcome.feedback ++ outcome.diagnostics

end Outcome

/-- What may be put at the cursor. -/
structure Completion where
  /-- Where in the line the suggestions start. -/
  start : Nat
  /-- The suggestions, by offsets into the command. -/
  suggestions : Suggestions

namespace Console

variable {S : Type}

/-! ## The command within a line -/

/-- Adds a command, and tells the id of its node. -/
def register (c : Console S) (declaration : Declaration S) : Console S × NodeId :=
  let registered := c.dispatcher.register declaration
  ({ c with dispatcher := registered.1 }, registered.2)

/-- Whether a line starts with the lead mark. -/
def hasLead (c : Console S) (line : String) : Bool :=
  c.settings.lead.toList.isPrefixOf line.toList

/-- Where the command starts: behind the lead mark, or at the start of the line. -/
def offset (c : Console S) (line : String) : Nat :=
  if c.hasLead line then Text.byteSize c.settings.lead else 0

/-- The line without the lead mark. -/
def command (c : Console S) (line : String) : String :=
  if c.hasLead line then String.ofList (line.toList.drop c.settings.lead.toList.length) else line

/-- Reads a line. -/
def parse (c : Console S) (line : String) (source : S) : Parse S :=
  c.dispatcher.parse (c.command line) source

/-! ## Running a line -/

/-- What is to be said about an error: why the other candidates failed, if that is to be reported,
    and the error itself. -/
def diagnostics (c : Console S) (p : Parse S) (error : Error) : List String :=
  let others := if c.settings.report then p.errors.filter (·.2 ≠ error) else []
  (others.map fun failed => c.dispatcher.tree.usageOf failed.1 ++ ": " ++ failed.2.message)
    ++ [error.message]

/-- Runs a line: what it came to, and the source afterwards. -/
def runLine [Feedback S] (c : Console S) (line : String) (source : S) : Outcome × S :=
  let p := c.parse line source
  let (result, source) := c.dispatcher.execute p
  let (feedback, source) := Feedback.drain source
  match result with
  | .ok _ => ({ command := p.input, feedback }, source)
  | .error error =>
    ({ command := p.input, error := some error, feedback, diagnostics := c.diagnostics p error },
      source)

/-- Runs lines one after the other: what each came to, and the source afterwards. -/
def runLines [Feedback S] (c : Console S) : S → List String → List Outcome × S
  | source, [] => ([], source)
  | source, line :: lines =>
    let (outcome, source) := c.runLine line source
    let (outcomes, source) := c.runLines source lines
    (outcome :: outcomes, source)

/-! ## Completing a line -/

/-- Where in the line a set for its command starts. Within the command that is always an offset; a
    provider may state a range beyond the end, and then the sum has to be one. -/
def startOf (c : Console S) (line : String) (set : Suggestions) : Except Fault Nat :=
  if set.range.start ≤ Text.byteSize (c.command line) then .ok (set.range.start + c.offset line)
  else Fault.sum set.range.start (c.offset line)

/-- What may be put at a cursor; nothing within the lead mark. -/
def complete (c : Console S) (line : String) (cursor : Nat) (source : S) :
    Except Fault Completion := do
  let offset := c.offset line
  if cursor < offset then return ⟨cursor, .empty⟩
  let suggestions ← c.dispatcher.complete (c.parse line source) (cursor - offset)
  if suggestions.isEmpty then return ⟨cursor, suggestions⟩
  return ⟨← c.startOf line suggestions, suggestions⟩

end Console

end CommandGrammar
