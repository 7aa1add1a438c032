import CommandGrammar.Piped.Draft
import CommandGrammar.Program

/-!
# `Main` — the program's entry

Reads lines and writes output; everything else is decided by `Program` and `Session`.
-/

namespace CommandGrammar.Main

/-- Writes to both output channels. -/
def write (output : Output) : IO Unit := do
  let out ← IO.getStdout
  out.putStr output.out
  out.flush
  let err ← IO.getStderr
  err.putStr output.err
  err.flush

/-- The event of the next line of the input. -/
def nextEvent (stdin : IO.FS.Stream) : IO Event := do
  let line ← stdin.getLine
  return ((Event.ofText line).head?).getD .endOfInput

/-- Answers events until the session ends. -/
partial def converse (session : Session Demo.Player) (stdin : IO.FS.Stream)
    (player : Demo.Player) : IO Program.Status := do
  let response := session.respond player (← nextEvent stdin)
  write response.output
  match response.ending with
  | some result => return .ofResult result
  | none => converse session stdin response.source

end CommandGrammar.Main

open CommandGrammar in
/-- Runs the program on the words that follow its name. -/
def main (words : List String) : IO UInt32 := do
  let status ← match Program.start words with
    | .finished output status => do
      Main.write output
      pure status
    | .session session player => do
      Main.write session.opening
      Main.converse session (← IO.getStdin) player
  return status.code.toUInt32
