import CommandGrammar.Console.Session
import CommandGrammar.Demo
import CommandGrammar.Options

/-!
# `Program` — the demo grammar as a program

## Contents

* `Program.helpText`, `Program.versionText` — what can be shown instead of running anything;
* `Program.runCommands` — running the lines given on the command line;
* `Program.Status` — how a run ends;
* `Program.Start`, `Program.start` — what the words on the command line lead to;
* `Program.run` — the whole run over the events that an editor hands over.
-/

namespace CommandGrammar.Program

/-- What is shown when help is asked for. -/
def helpText : String := Output.lines [
  "\x1b[1mArgot\x1b[0m - Command grammar console",
  "",
  "\x1b[1mUSAGE:\x1b[0m",
  "    argot [OPTIONS]",
  "",
  "\x1b[1mOPTIONS:\x1b[0m",
  "    -h, --help               Print help information",
  "    -V, --version            Print version information",
  "    -c, --command CMD        Run CMD and exit (repeatable)",
  "    -p, --permission N       Permission level of the console user (default 0)",
  "    --no-banner              Do not print the welcome banner",
  "",
  "\x1b[1mDEBUG OPTIONS:\x1b[0m",
  "    -v, --verbose            More logging on stderr (repeatable)",
  "    --sequential             Collect completions on one thread",
  "    --exhaustive             Try every branch when parsing",
  "",
  "    ARGOT_LOG sets the log filter when no -v is given.",
  "",
  "\x1b[1mEXAMPLES:\x1b[0m",
  "    argot                            Start the interactive console",
  "    argot -c '/add 1 2'              Run one command",
  "    argot -p 2 -c '/teleport ~1 ~'   Run a restricted command",
  "",
  "\x1b[1mCOMMANDS:\x1b[0m",
  "    /echo <message>                  Print the rest of the line",
  "    /add <a> <b>                     Add two integers",
  "    /toggle <flag> [<value>]         Flip or set a flag",
  "    /teleport <x> <y>                Move (permission 2, ~ is relative)",
  "    /say <message>                   Speak a word or a quoted phrase",
  "    /help [<command>]                List usage",
  "    Tab                              Complete at the cursor",
  "    Ctrl+D                           Exit"
]

/-- What is shown when the version is asked for. -/
def versionText : String := "argot 0.1.0\n"

/-- The console that the options ask for. -/
def console (options : Options) : Console Demo.Player where
  dispatcher := Demo.dispatcher
    { exhaustive := options.exhaustive, parallel := !options.sequential }
  settings := { banner := !options.noBanner }

/-- Runs lines one after the other: what is written, and whether all of them succeeded. -/
def runCommands {S : Type} [Feedback S] (c : Console S) (source : S) (lines : List String) :
    Output × Bool :=
  let outcomes := (c.runLines source lines).1
  (Output.concat (outcomes.map Outcome.output), outcomes.all Outcome.isSuccess)

/-- How a run ends. -/
inductive Status where
  /-- All went well. -/
  | success
  /-- Something was wrong with what was asked for. -/
  | failure
  /-- A contract was broken. -/
  | broken
deriving DecidableEq, Repr

/-- The number that tells how a run ended. -/
def Status.code : Status → Nat
  | success => 0
  | failure => 1
  | broken => 101

/-- How a run ends whose lines were all run with success, or were not. -/
def Status.ofBool (success : Bool) : Status := if success then .success else .failure

/-- How a run ends that held a session. -/
def Status.ofResult : Except Failure Unit → Status
  | .ok _ => .success
  | .error (.error _) => .failure
  | .error (.fault _) => .broken

/-- What the words on the command line lead to. -/
inductive Start where
  /-- Everything is done: what is written, and how the run ends. -/
  | finished (output : Output) (status : Status)
  /-- A session is to be held. -/
  | session (session : Session Demo.Player) (player : Demo.Player)

/-- What the words that follow the program's name lead to. -/
def start (words : List String) : Start :=
  match Options.parse words with
  | .error problem =>
    .finished ⟨"", Output.lines [Output.alarm ("Error: " ++ problem.message)]⟩ .failure
  | .ok options =>
    if options.help then .finished ⟨helpText, ""⟩ .success
    else if options.version then .finished ⟨versionText, ""⟩ .success
    else
      let player : Demo.Player := { permission := options.permission }
      if options.commands.isEmpty then .session { console := console options } player
      else
        let (output, success) := runCommands (console options) player options.commands
        .finished output (.ofBool success)

/-- The whole run: what is written, and how it ends. A session answers the events that an editor hands over. -/
def run (words : List String) (events : List Event) : Output × Status :=
  match start words with
  | .finished output status => (output, status)
  | .session session player =>
    let t := session.run player events
    (t.output, .ofResult t.result)

end CommandGrammar.Program
