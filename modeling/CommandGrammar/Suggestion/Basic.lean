import CommandGrammar.Range
import CommandGrammar.Text.Lowercase

/-!
# `Suggestion` — replacements for a part of a line

A suggestion offers a text in place of a range of the line. Suggestions are collected into sets in
which all of them replace the same range, so that an editor can offer them side by side.

## Contents

* `Suggestion.apply` — the line with the suggestion put in;
* `Suggestion.expand` — the same offer, stated for a wider range;
* `Suggestions.sort` — the order of offering, without regard to case;
* `Suggestions`, `Suggestions.create` — a set: one common range, no entry twice, sorted;
* `Suggestions.merge` — one set from many.
-/

namespace CommandGrammar

/-- A replacement for a part of a line. -/
structure Suggestion where
  /-- The part of the line to replace. -/
  range : Range
  /-- What to put there. -/
  text : String
  /-- What to say about it. -/
  tooltip : Option String := none
deriving DecidableEq, Repr

namespace Suggestion

/-- The line with the suggestion put in. -/
def apply (s : Suggestion) (line : String) : Except Fault String := do
  let left ← Fault.before line s.range.start
  let right ← Fault.after line s.range.stop
  return left ++ s.text ++ right

/-- The same offer for a range that reaches further on either side: what the line holds there is
    added to the text. -/
def expand (s : Suggestion) (line : String) (range : Range) : Except Fault Suggestion := do
  let left ← if range.start < s.range.start then
      Fault.slice line range.start s.range.start else pure ""
  let right ← if s.range.stop < range.stop then
      Fault.slice line s.range.stop range.stop else pure ""
  return ⟨range, left ++ s.text ++ right, s.tooltip⟩

/-- The text by which suggestions are sorted. -/
def key (s : Suggestion) : String := Text.lowercase s.text

end Suggestion

/-- A set of suggestions for one range of a line. -/
structure Suggestions where
  /-- The range that every entry replaces. -/
  range : Range
  /-- The entries, in the order of offering. -/
  list : List Suggestion
deriving DecidableEq, Repr

namespace Suggestions

/-- The set without entries. -/
def empty : Suggestions := ⟨Range.point 0, []⟩

/-- Whether there is nothing to offer. -/
def isEmpty (set : Suggestions) : Bool := set.list.isEmpty

/-- Puts a suggestion in front of the first one whose key is not smaller. -/
def place (s : Suggestion) : List Suggestion → List Suggestion
  | [] => [s]
  | t :: rest => if s.key ≤ t.key then s :: t :: rest else t :: place s rest

/-- The suggestions in the order of their keys; those with equal keys keep their order. -/
def sort : List Suggestion → List Suggestion
  | [] => []
  | s :: rest => place s (sort rest)

/-- The smallest range that covers those of all given suggestions. -/
def hull : List Suggestion → Option Range
  | [] => none
  | s :: rest => some (rest.foldl (fun range t => range.hull t.range) s.range)

/-- The set of all given suggestions, stated for their common range. Of equal entries the first one
    stays. -/
def create (line : String) (suggestions : List Suggestion) : Except Fault Suggestions :=
  let distinct := suggestions.eraseDups
  match hull distinct with
  | none => .ok empty
  | some range => do
    let expanded ← distinct.mapM (·.expand line range)
    return ⟨range, sort expanded.eraseDups⟩

/-- One set from many. A single set is kept as it is. -/
def merge (line : String) : List Suggestions → Except Fault Suggestions
  | [] => .ok empty
  | [set] => .ok set
  | sets => create line (sets.flatMap Suggestions.list)

end Suggestions

end CommandGrammar
