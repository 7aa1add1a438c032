import CommandGrammar.Argument
import CommandGrammar.Console.Basic
import CommandGrammar.Console.Highlight
import CommandGrammar.Console.Session
import CommandGrammar.Context
import CommandGrammar.Demo
import CommandGrammar.Dispatch
import CommandGrammar.Error
import CommandGrammar.Fault
import CommandGrammar.Main
import CommandGrammar.Number
import CommandGrammar.Options
import CommandGrammar.Piped.Class
import CommandGrammar.Piped.Draft
import CommandGrammar.Position
import CommandGrammar.Program
import CommandGrammar.Proofs.Access
import CommandGrammar.Proofs.Arena
import CommandGrammar.Proofs.Behind
import CommandGrammar.Proofs.Built
import CommandGrammar.Proofs.Candidates
import CommandGrammar.Proofs.Case
import CommandGrammar.Proofs.Chain
import CommandGrammar.Proofs.Colouring
import CommandGrammar.Proofs.Completion
import CommandGrammar.Proofs.Cursor
import CommandGrammar.Proofs.Diagnostics
import CommandGrammar.Proofs.Ending
import CommandGrammar.Proofs.Escapes
import CommandGrammar.Proofs.Execution
import CommandGrammar.Proofs.Frame
import CommandGrammar.Proofs.Invocation
import CommandGrammar.Proofs.Isolation
import CommandGrammar.Proofs.Listing
import CommandGrammar.Proofs.Matching
import CommandGrammar.Proofs.Merging
import CommandGrammar.Proofs.Normal
import CommandGrammar.Proofs.Numerals
import CommandGrammar.Proofs.Operations
import CommandGrammar.Proofs.Outcomes
import CommandGrammar.Proofs.Path
import CommandGrammar.Proofs.Placed
import CommandGrammar.Proofs.Play
import CommandGrammar.Proofs.Quoting
import CommandGrammar.Proofs.Recast
import CommandGrammar.Proofs.Recipe
import CommandGrammar.Proofs.Refusal
import CommandGrammar.Proofs.Registration
import CommandGrammar.Proofs.Replacement
import CommandGrammar.Proofs.Roundtrip
import CommandGrammar.Proofs.Script
import CommandGrammar.Proofs.Selection
import CommandGrammar.Proofs.Shape
import CommandGrammar.Proofs.Shift
import CommandGrammar.Proofs.Slot
import CommandGrammar.Proofs.Snapshot
import CommandGrammar.Proofs.Splice
import CommandGrammar.Proofs.Stray
import CommandGrammar.Proofs.Token
import CommandGrammar.Proofs.Typing
import CommandGrammar.Range
import CommandGrammar.Scanner.Basic
import CommandGrammar.Scanner.Quoted
import CommandGrammar.Suggestion.Basic
import CommandGrammar.Suggestion.Builder
import CommandGrammar.Text.Bytes
import CommandGrammar.Text.Class
import CommandGrammar.Text.Lowercase
import CommandGrammar.Tree.Arena
import CommandGrammar.Tree.Basic
import CommandGrammar.Tree.Label
import CommandGrammar.Value
