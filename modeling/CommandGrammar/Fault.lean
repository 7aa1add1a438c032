import CommandGrammar.Text.Bytes

/-!
# `Fault` — broken contracts

A fault is a misuse of the library, as opposed to a mistake in the text it reads: a position inside
a character, a range that ends before it starts, a node that does not exist, or code supplied by
the user that gives up. Operations that can be misused return `Except Fault`.

## Contents

* `Fault`, `Fault.message?` — the ways of breaking a contract and what is said about them;
* `Fault.before`, `Fault.after`, `Fault.slice` — parts of a text at byte offsets;
* `Fault.sum` — the sum of two offsets.
-/

namespace CommandGrammar

/-- A way of breaking a contract. -/
inductive Fault where
  /-- A range was given an end before its start. -/
  | invertedRange
  /-- A scanner was moved to a position inside a character or past the end. -/
  | cursorInsideCharacter (cursor : Nat)
  /-- Suggestions were asked for a token that starts past the end of the text. -/
  | startPastEnd
  /-- A trail was asked about a position before its own start. -/
  | beforeStart (cursor start : Nat)
  /-- A text was sliced inside a character, past its end, or backwards. -/
  | badSlice
  /-- An offset was asked for that is greater than any there is. -/
  | offsetTooLarge
  /-- A node was asked for that the tree does not hold. -/
  | unknownNode
  /-- Code supplied by the user gave up. -/
  | raised (message : String)
deriving DecidableEq, Repr

namespace Fault

/-- What is said about a fault; nothing is said about bad slices, offsets and nodes. -/
def message? : Fault → Option String
  | invertedRange => some "range start must not exceed its end"
  | cursorInsideCharacter cursor =>
    some ("scanner cursor " ++ toString cursor ++ " is not a character boundary")
  | startPastEnd => some "suggestion start past end of input"
  | beforeStart cursor start =>
    some ("cannot find node before cursor " ++ toString cursor ++ " (context starts at "
      ++ toString start ++ ")")
  | badSlice => none
  | offsetTooLarge => none
  | unknownNode => none
  | raised message => some message

/-! ## Slices -/

/-- The part of `text` before byte offset `n`. -/
def before (text : String) (n : Nat) : Except Fault String :=
  match Text.cut n text.toList with
  | some (left, _) => .ok (String.ofList left)
  | none => .error .badSlice

/-- The part of `text` from byte offset `n` on. -/
def after (text : String) (n : Nat) : Except Fault String :=
  match Text.cut n text.toList with
  | some (_, right) => .ok (String.ofList right)
  | none => .error .badSlice

/-- A text that has a part from an offset on reaches that far. -/
theorem le_of_after {text rest : String} {n : Nat} (h : after text n = .ok rest) :
    n ≤ Text.byteSize text := by
  unfold after at h
  split at h
  · next left right hcut =>
    obtain ⟨happ, hsize⟩ := Text.append_of_cut hcut
    rw [Text.byteSize, ← happ, Text.size_append, hsize]
    exact Nat.le_add_right _ _
  · cases h

/-- The part of `text` between two byte offsets. -/
def slice (text : String) (start stop : Nat) : Except Fault String := do
  let left ← before text stop
  after left start

/-! ## Sums -/

/-- The sum of two offsets, which has to be an offset again. -/
def sum (a b : Nat) : Except Fault Nat :=
  if a + b ≤ Text.maxOffset then .ok (a + b) else .error .offsetTooLarge

end Fault

end CommandGrammar
