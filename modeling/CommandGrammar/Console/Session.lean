import CommandGrammar.Console.Basic

/-!
# `Console.Session` — reading and running lines until the input ends

A session takes what an editor hands over, one event after the other, and answers each: a line is
run and its outcome shown, an interrupt only breaks the line, and the end of the input ends the
session.

## Contents

* `Output` — what is written to the two output channels;
* `Event`, `Deed`, `Response`, `Session.respond` — one event and the answer to it;
* `Transcript`, `Session.run` — a whole session.
-/

namespace CommandGrammar

variable {S : Type}

/-! ## Output -/

/-- What is written to the two output channels. -/
structure Output where
  /-- The ordinary output. -/
  out : String := ""
  /-- The output for what went wrong. -/
  err : String := ""
deriving DecidableEq, Repr

/-- One output after another. -/
def Output.append (a b : Output) : Output := ⟨a.out ++ b.out, a.err ++ b.err⟩

instance : Append Output := ⟨Output.append⟩

/-- Several outputs one after another. -/
def Output.concat (outputs : List Output) : Output := outputs.foldr (· ++ ·) {}

/-- Lines of text, each ended. -/
def Output.lines (lines : List String) : String := String.join (lines.map (· ++ "\n"))

/-- A text in the colour of what went wrong. -/
def Output.alarm (text : String) : String := "\x1b[31m" ++ text ++ "\x1b[0m"

/-- How an outcome is shown. -/
def Outcome.output (outcome : Outcome) : Output :=
  ⟨Output.lines outcome.feedback, Output.lines (outcome.diagnostics.map Output.alarm)⟩

/-! ## Events -/

/-- What an editor hands over. -/
inductive Event where
  | line (text : String)
  | interrupt
  | endOfInput
  | failure (failure : Failure)
deriving DecidableEq, Repr

/-- What is done about a line. -/
inductive Deed where
  /-- The line is remembered. -/
  | record (line : String)
  /-- The line is run, and comes to this. -/
  | run (line : String) (outcome : Outcome)

/-- The line that is remembered, if one is. -/
def Deed.recorded? : Deed → Option String
  | record line => some line
  | run _ _ => none

/-- What the line came to, if it was run. -/
def Deed.outcome? : Deed → Option Outcome
  | record _ => none
  | run _ outcome => some outcome

/-- The answer to an event. -/
structure Response (S : Type) where
  /-- The source afterwards. -/
  source : S
  /-- What is written. -/
  output : Output := {}
  /-- What is done, first thing first. -/
  deeds : List Deed := []
  /-- What the session comes to, if it ends here. -/
  ending : Option (Except Failure Unit) := none

/-- A console with what a session shows. -/
structure Session (S : Type) where
  /-- The console that runs the lines. -/
  console : Console S
  /-- Whether the session starts with a welcome. -/
  banner : Bool := console.settings.banner
  /-- What is shown when a line is asked for. -/
  prompt : String := console.settings.prompt

namespace Session

/-- The welcome. -/
def welcome : String := Output.lines [
  "\x1b[1;36m",
  "   __ _ _ __ __ _  ___ | |_ ",
  "  / _` | '__/ _` |/ _ \\| __|",
  " | (_| | | | (_| | (_) | |_ ",
  "  \\__,_|_|  \\__, |\\___/ \\__|",
  "            |___/           ",
  "\x1b[0m",
  "Welcome to the Argot console v0.1.0",
  "Type commands (the leading / is optional). Tab completes. Ctrl+D exits.\n"
]

/-- What is written before the first line is asked for. -/
def opening (session : Session S) : Output := if session.banner then ⟨welcome, ""⟩ else {}

/-- The answer to an event. A line is remembered and then run; blank lines are neither. -/
def respond [Feedback S] (session : Session S) (source : S) : Event → Response S
  | .line text =>
    if Text.allBlank text then { source }
    else
      let (outcome, source) := session.console.runLine text source
      { source, output := outcome.output, deeds := [.record text, .run text outcome] }
  | .interrupt => { source, output := ⟨"\n", ""⟩ }
  | .endOfInput => { source, output := ⟨"\nGoodbye!\n", ""⟩, ending := some (.ok ()) }
  | .failure failure => { source, ending := some (.error failure) }

/-! ## Whole sessions -/

/-- What a session came to. -/
structure Transcript (S : Type) where
  /-- The source afterwards. -/
  source : S
  /-- What was written. -/
  output : Output
  /-- What was done, first thing first. -/
  deeds : List Deed
  /-- How often a line was asked for. -/
  reads : Nat
  /-- How the session ended. -/
  result : Except Failure Unit

/-- The lines to be remembered. -/
def Transcript.history (t : Transcript S) : List String := t.deeds.filterMap Deed.recorded?

/-- What the lines that were run came to. -/
def Transcript.outcomes (t : Transcript S) : List Outcome := t.deeds.filterMap Deed.outcome?

/-- The transcript of a session that ends with an answer. -/
def Transcript.ofLast (r : Response S) (result : Except Failure Unit) : Transcript S where
  source := r.source
  output := r.output
  deeds := r.deeds
  reads := 1
  result := result

/-- A transcript with the answer to an earlier event in front. -/
def Transcript.after (t : Transcript S) (r : Response S) : Transcript S :=
  { t with
    output := r.output ++ t.output
    deeds := r.deeds ++ t.deeds
    reads := t.reads + 1 }

/-- Answers events one after the other, and the end of the input after the last one. -/
def converse [Feedback S] (session : Session S) : S → List Event → Transcript S
  | source, [] => .ofLast (session.respond source .endOfInput) (.ok ())
  | source, event :: events =>
    let r := session.respond source event
    match r.ending with
    | some result => .ofLast r result
    | none => (session.converse r.source events).after r

/-- A whole session. -/
def run [Feedback S] (session : Session S) (source : S) (events : List Event) : Transcript S :=
  let t := session.converse source events
  { t with output := session.opening ++ t.output }

end Session

end CommandGrammar
