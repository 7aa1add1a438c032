import CommandGrammar.Suggestion.Basic

/-!
# `Suggestion.Builder` — collecting suggestions for the last token

A builder knows the line up to the cursor and where its last token starts. It collects texts to put
in place of that token, leaving out the one that stands there already.

## Contents

* `Builder.ofStart`, `Builder.restart`, `Builder.offset` — builders for a token of the line;
* `Builder.remaining` — the token as typed so far;
* `Builder.suggest`, `Builder.suggestAll`, `Builder.add`, `Builder.build` — collecting;
* `Matching.seek`, `Matching.continues` — whether a candidate continues the token, and `Matching.offers`,
  the rule behind it;
* `Builder.suggestMatching` — offering those candidates that continue the token.
-/

namespace CommandGrammar

/-- Suggestions for the last token of a line, being collected. -/
structure Builder where
  /-- The line up to the cursor. -/
  input : String
  /-- Where the token starts. -/
  start : Nat
  /-- What was collected so far. -/
  collected : List Suggestion := []
deriving DecidableEq, Repr

namespace Builder

/-! ## Tokens -/

/-- A builder for the token that starts at `start`. -/
def ofStart (input : String) (start : Nat) : Except Fault Builder :=
  if start ≤ Text.byteSize input then .ok ⟨input, start, []⟩ else .error .startPastEnd

/-- An empty builder for a token of the same line that starts elsewhere. -/
def offset (b : Builder) (start : Nat) : Builder := ⟨b.input, start, []⟩

/-- An empty builder for the same token. -/
def restart (b : Builder) : Builder := b.offset b.start

/-- The token as typed so far. -/
def remaining (b : Builder) : Except Fault String := Fault.after b.input b.start

/-- The token in lower case. -/
def remainingLower (b : Builder) : Except Fault String := Text.lowercase <$> b.remaining

/-! ## Collecting -/

/-- Offers a text in place of the token, unless it is what stands there already. -/
def suggest (b : Builder) (text : String) (tooltip : Option String := none) :
    Except Fault Builder := do
  if text = (← b.remaining) then return b
  let range ← Range.between b.start (Text.byteSize b.input)
  return { b with collected := b.collected ++ [⟨range, text, tooltip⟩] }

/-- Offers several texts in place of the token. -/
def suggestAll (b : Builder) (texts : List String) : Except Fault Builder :=
  texts.foldlM (fun b text => b.suggest text) b

/-- Adds what another builder collected. -/
def add (b other : Builder) : Builder := { b with collected := b.collected ++ other.collected }

/-- The set of what was collected. -/
def build (b : Builder) : Except Fault Suggestions := Suggestions.create b.input b.collected

end Builder

/-! ## Candidates that continue a token -/

namespace Matching

/-- Whether a character ends a part of a candidate. -/
def isBoundary (c : Char) : Bool := c == '.' || c == '_'

/-- Where the first boundary of a text stands, as a byte offset. -/
def boundary? : List Char → Option Nat
  | [] => none
  | c :: cs => if isBoundary c then some 0 else (boundary? cs).map (c.utf8Size + ·)

/-- Looks for `typed` at a byte offset of a candidate, and from there on behind each boundary. -/
def seek (typed candidate : String) (offset : Nat) : Except Fault Bool :=
  match _hrest : Fault.after candidate offset with
  | .error fault => .error fault
  | .ok rest =>
    if typed.toList.isPrefixOf rest.toList then .ok true
    else match boundary? rest.toList with
      | some n => seek typed candidate (offset + n + 1)
      | none => .ok false
termination_by Text.byteSize candidate + 1 - offset
decreasing_by
  -- The text has been cut at the offset, so that it reaches that far.
  have hle := Fault.le_of_after ‹Fault.after candidate offset = .ok _›
  omega

/-- Whether a candidate is offered for what was typed. -/
def continues (typed candidate : String) : Except Fault Bool := seek typed candidate 0

/-- Whether `typed` starts the rest of the candidate after some boundary. -/
def startsLater (typed : List Char) : List Char → Bool
  | [] => false
  | c :: cs => isBoundary c && typed.isPrefixOf cs || startsLater typed cs

/-- The rule that `continues` decides: what was typed must start the candidate, or the rest of it
    after some boundary. -/
def offers (typed candidate : String) : Bool :=
  typed.toList.isPrefixOf candidate.toList || startsLater typed.toList candidate.toList

end Matching

/-- The set of those candidates that continue the token. The token counts in lower case, the
    candidates as they are. -/
def Builder.suggestMatching (b : Builder) (candidates : List String) :
    Except Fault Suggestions := do
  let typed ← b.remainingLower
  let b ← b.suggestAll (← candidates.filterM (Matching.continues typed))
  b.build

end CommandGrammar
