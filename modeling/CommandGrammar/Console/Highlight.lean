import CommandGrammar.Console.Basic

/-!
# `Console.Highlight` — colouring a line

A line is shown with the words and arguments that matched in colour, and what could not be read in
a colour of its own. White space between them stays plain.

## Contents

* `Paint`, `Segment` — colours, and parts of a line with or without one;
* `Segment.render` — the text of a part with its colour codes;
* `Highlight.segments` — the parts of a line that was read.
-/

namespace CommandGrammar

/-! ## Coloured text -/

/-- What a colour stands for. -/
inductive Paint where
  /-- A word of the grammar. -/
  | literal
  /-- The argument with a number, counted from 0. -/
  | argument (index : Nat)
  /-- What could not be read. -/
  | unparsed
deriving DecidableEq, Repr

/-- The colours that arguments take in turn. -/
def Paint.cycle : List String := ["\x1b[36m", "\x1b[33m", "\x1b[32m", "\x1b[35m", "\x1b[34m"]

/-- The code that switches a colour on. -/
def Paint.code : Paint → String
  | literal => "\x1b[1;37m"
  | argument index => (cycle[index % cycle.length]?).getD ""
  | unparsed => "\x1b[31m"

/-- The code that switches colours off. -/
def Paint.reset : String := "\x1b[0m"

/-- A part of a line. -/
structure Segment where
  /-- Its colour, if it has one. -/
  paint : Option Paint
  /-- Its text. -/
  text : String
deriving DecidableEq, Repr

/-- A part of a line with its colour codes. -/
def Segment.render (s : Segment) : String :=
  match s.paint with
  | none => s.text
  | some paint => paint.code ++ s.text ++ Paint.reset

namespace Highlight

variable {S : Type}

/-- The parts of a line up to the last node that matched, and where they end. `index` counts the
    arguments. The nodes have to be nodes of the tree. -/
def stepSegments (tree : Tree S) (line : String) (offset : Nat) :
    (position index : Nat) → List Step → Except Fault (List Segment × Nat)
  | position, _, [] => return ([], position)
  | position, index, step :: steps => do
    let start := step.range.start + offset
    let stop := step.range.stop + offset
    let gap ← Fault.slice line position start
    let node ← tree.node step.node
    let text ← Fault.slice line start stop
    let paint := if node.isLiteral then Paint.literal else .argument index
    let (rest, last) ← stepSegments tree line offset stop
      (if node.isLiteral then index else index + 1) steps
    return (⟨none, gap⟩ :: ⟨some paint, text⟩ :: rest, last)

/-- The parts of what follows the last node that matched. -/
def restSegments (rest : String) : List Segment :=
  let (blank, unread) := Text.splitBlank rest.toList
  if unread.isEmpty then [⟨none, rest⟩]
  else [⟨none, String.ofList blank⟩, ⟨some .unparsed, String.ofList unread⟩]

/-- The parts of a line whose command, from `offset` on, was read; nothing when there is nothing to
    colour. -/
def segments (tree : Tree S) (line : String) (offset : Nat) (p : Parse S) :
    Except Fault (Option (List Segment)) := do
  let command ← Fault.after line offset
  if p.trail.steps.isEmpty && Text.allBlank command then return none
  let lead ← Fault.before line offset
  let (steps, last) ← stepSegments tree line offset offset 0 p.trail.steps
  let rest ← Fault.after line last
  return some (⟨none, lead⟩ :: steps ++ restSegments rest)

/-- The line with colour codes. -/
def render (line : String) : Option (List Segment) → String
  | none => line
  | some segments => String.join (segments.map Segment.render)

end Highlight

/-- Colours a line whose command starts at `offset`. -/
def Console.highlight {S : Type} (c : Console S) (line : String) (offset : Nat) (source : S) :
    Except Fault (Option (List Segment)) := do
  let command ← Fault.after line offset
  Highlight.segments c.dispatcher.tree line offset (c.dispatcher.parse command source)

end CommandGrammar
