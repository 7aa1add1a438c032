import CommandGrammar.Range
import CommandGrammar.Scanner.Quoted
import CommandGrammar.Suggestion.Builder
import CommandGrammar.Value

/-!
# `Argument` — the types of arguments

## Contents

* `Bounds`, `CustomType`, `ArgumentType` — the types an argument can have: the library's own, numbers with their bounds,
  and types that the author of a grammar brings along;
* `ArgumentType.read` — reading a value of the type;
* `ArgumentType.capture` — the same, with the range that was read;
* `ArgumentType.examples`, `ArgumentType.valueType` — what the type says about itself;
* `Position.accepts`, `Position.continuations` — whole positions that continue what was typed;
* `ArgumentType.suggest` — the suggestions of a type for a token. Truth values offer their two words and positions offer
  their candidate coordinates; the other types offer nothing of their own.

No type reads backwards (`precedes_read`), so what was read always has a range.
-/

namespace CommandGrammar

/-! ## Types -/

/-- The least and the greatest value allowed, both included. -/
structure Bounds (α : Type) where
  /-- The least value allowed. -/
  least : α
  /-- The greatest value allowed. -/
  greatest : α

namespace Bounds

/-- All whole numbers of `bits` bits with a sign. -/
def signed (bits : Nat) : Bounds Int :=
  ⟨-(Number.twoTo (bits - 1) : Int), Number.twoTo (bits - 1) - 1⟩

/-- All finite numbers of 64 bits. -/
def double : Bounds Float :=
  let greatest := Float.ofBits (UInt64.ofNat (Number.double.infinity - 1))
  ⟨-greatest, greatest⟩

/-- All finite numbers of 32 bits. -/
def single : Bounds Float32 :=
  let greatest := Float32.ofBits (UInt32.ofNat (Number.single.infinity - 1))
  ⟨-greatest, greatest⟩

end Bounds

/-- A type that the author of a grammar brings along: how it reads, and the laws that its reading keeps. It may refuse
    with an error of any kind. What it offers, if anything, stands as a provider on the nodes that have the type. -/
structure CustomType where
  /-- The type of the values that it reads. -/
  valueType : ValueType
  /-- Texts that show what it reads. -/
  examples : List String := []
  /-- Reads a value. -/
  read : Scanner → Scanned Value
  /-- It does not read backwards. -/
  precedes : ∀ s : Scanner, s.Precedes (read s).scanner
  /-- It finds errors where it started or behind that. -/
  placed : ∀ s, (read s).Placed s
  /-- It looks at nothing but what is still to come. -/
  behind : ∀ front s, read (Scanner.behind front s) = (read s).behind front

/-- The types that an argument can have. -/
inductive ArgumentType where
  /-- A truth value. -/
  | bool
  /-- A whole number of 32 bits. -/
  | int (bounds : Bounds Int)
  /-- A whole number of 64 bits. -/
  | long (bounds : Bounds Int)
  /-- A floating-point number of 64 bits. -/
  | double (bounds : Bounds Float)
  /-- A floating-point number of 32 bits. -/
  | single (bounds : Bounds Float32)
  /-- A single word. -/
  | word
  /-- A word or a quoted string. -/
  | string
  /-- All the rest of the line. -/
  | greedy
  /-- A position, with the pairs of coordinates that are offered for it. -/
  | position (candidates : List (String × String))
  /-- A type that the author of the grammar brought along. -/
  | custom (type : CustomType)

/-- The type of the values that an argument type reads. -/
def ArgumentType.valueType : ArgumentType → ValueType
  | bool => .bool
  | int _ => .int
  | long _ => .long
  | double _ => .double
  | single _ => .single
  | word => .string
  | string => .string
  | greedy => .string
  | position _ => .position
  | custom type => type.valueType

/-- The candidates that are offered for a position unless others are given. -/
def ArgumentType.defaultCandidates : List (String × String) := [("~", "~")]

/-- Texts that show what the type reads. -/
def ArgumentType.examples : ArgumentType → List String
  | bool => ["true", "false"]
  | int _ => ["0", "123", "-123"]
  | long _ => ["0", "123", "-123"]
  | double _ => ["0", "1.2", ".5", "-1", "-.5", "-1234.56"]
  | single _ => ["0", "1.2", ".5", "-1", "-.5", "-1234.56"]
  | word => ["word", "words_with_underscores"]
  | string => ["\"quoted phrase\"", "word", "\"\""]
  | greedy => ["word", "words with spaces", "\"and symbols\""]
  | position _ => ["0 0", "~ ~", "~0.5 ~1", "~-5 ~5", "3 ~"]
  | custom type => type.examples

/-! ## Reading -/

/-- Keeps a number that was read within bounds; one outside leaves the scanner at `start`. -/
def Bounds.check {α : Type} [LT α] [DecidableLT α] (bounds : Bounds α) (kind : NumberKind)
    (render : α → String) (start : Scanner) : Scanned α → Scanned α
  | .error e t => .error e t
  | .ok value t =>
    if value < bounds.least then
      .error (start.error (.tooLow kind (render value) (render bounds.least))) start
    else if bounds.greatest < value then
      .error (start.error (.tooHigh kind (render value) (render bounds.greatest))) start
    else .ok value t

/-- Reads a number within bounds. -/
def Bounds.read {α : Type} [LT α] [DecidableLT α] (bounds : Bounds α) (kind : NumberKind)
    (render : α → String) (read? : List Char → Option α) (s : Scanner) : Scanned α :=
  bounds.check kind render s (s.readNumber kind read?)

/-- Reads a value of the type. -/
def ArgumentType.read (s : Scanner) : ArgumentType → Scanned Value
  | bool => s.readBool.map .bool
  | int bounds =>
    (bounds.read .integer Number.intText (Number.fitting? 32) s).map .int
  | long bounds =>
    (bounds.read .long Number.intText (Number.fitting? 64) s).map .long
  | double bounds =>
    (bounds.read .double Number.doubleText Number.readDouble? s).map .double
  | single bounds =>
    (bounds.read .float Number.singleText Number.readSingle? s).map .single
  | word => .ok (.string s.readWord.1) s.readWord.2
  | string => s.readString.map .string
  | greedy => .ok (.string s.remaining) s.toEnd
  | position _ => (Position.read s).map .position
  | custom type => type.read s

/-! ## Ranges of what was read -/

theorem Bounds.precedes_read {α : Type} [LT α] [DecidableLT α] (bounds : Bounds α)
    (kind : NumberKind) (render : α → String) (read? : List Char → Option α) (s : Scanner) :
    s.Precedes (bounds.read kind render read? s).scanner := by
  have h := s.precedes_readNumber kind read?
  unfold Bounds.read
  cases hread : s.readNumber kind read? with
  | error e t =>
    rw [hread] at h
    exact h
  | ok value t =>
    rw [hread] at h
    unfold Bounds.check
    dsimp only
    split
    · exact .refl s
    · split
      · exact .refl s
      · exact h

/-- No type reads backwards. -/
theorem ArgumentType.precedes_read (s : Scanner) (type : ArgumentType) :
    s.Precedes (type.read s).scanner := by
  cases type with
  | bool => simpa [ArgumentType.read] using s.precedes_readBool
  | int bounds => simpa [ArgumentType.read] using bounds.precedes_read _ _ _ s
  | long bounds => simpa [ArgumentType.read] using bounds.precedes_read _ _ _ s
  | double bounds => simpa [ArgumentType.read] using bounds.precedes_read _ _ _ s
  | single bounds => simpa [ArgumentType.read] using bounds.precedes_read _ _ _ s
  | word => exact s.precedes_readWord
  | string => simpa [ArgumentType.read] using s.precedes_readString
  | greedy => exact s.precedes_toEnd
  | position candidates => simpa [ArgumentType.read] using Position.precedes_read s
  | custom type => exact type.precedes s

/-- A value and the range it was read from. -/
structure Capture where
  /-- Where the value stands in the line. -/
  range : Range
  /-- The value. -/
  value : Value

/-- Reads a value of the type together with its range. -/
def ArgumentType.capture (type : ArgumentType) (s : Scanner) : Scanned Capture :=
  match h : type.read s with
  | .error e t => .error e t
  | .ok value t =>
    have hle : s.cursor ≤ t.cursor := by
      have hread := type.precedes_read s
      rw [h] at hread
      exact hread.cursor_le
    .ok ⟨⟨s.cursor, t.cursor, hle⟩, value⟩ t

/-- A capture is what the type reads, with the range from before to behind it. -/
theorem ArgumentType.capture_eq_ok_iff {type : ArgumentType} {s t : Scanner} {c : Capture} :
    type.capture s = .ok c t ↔
      type.read s = .ok c.value t ∧ c.range.start = s.cursor ∧ c.range.stop = t.cursor := by
  unfold ArgumentType.capture
  constructor
  · intro h
    split at h
    · cases h
    · next hread =>
      cases h
      exact ⟨hread, rfl, rfl⟩
  · rintro ⟨hread, hstart, hstop⟩
    split
    · next hread' => rw [hread] at hread'; cases hread'
    · next hread' =>
      rw [hread] at hread'
      cases hread'
      obtain ⟨⟨start, stop, hle⟩, value⟩ := c
      obtain rfl : start = s.cursor := hstart
      obtain rfl : stop = t.cursor := hstop
      rfl

/-- A capture fails exactly as reading does. -/
theorem ArgumentType.capture_eq_error_iff {type : ArgumentType} {s t : Scanner} {e : Error} :
    type.capture s = .error e t ↔ type.read s = .error e t := by
  unfold ArgumentType.capture
  constructor
  · intro h
    split at h
    · next hread => cases h; exact hread
    · cases h
  · intro hread
    split
    · next hread' => rw [hread] at hread'; cases hread'; rfl
    · next hread' => rw [hread] at hread'; cases hread'

/-! ## Suggestions -/

/-- Whether a text is a position from its first to its last character. -/
def Position.accepts (text : String) : Bool :=
  match Position.read (Scanner.ofString text) with
  | .ok _ t => !t.canRead
  | .error _ _ => false

/-- The positions to offer: all candidates when nothing was typed, the second coordinates behind a
    first one that was typed, and nothing once a separator was typed. -/
def Position.continuations (typed : String) (candidates : List (String × String)) : List String :=
  let whole :=
    if typed = "" then candidates.map fun c => c.1 ++ " " ++ c.2
    else if Scanner.separator ∈ typed.toList then []
    else candidates.map fun c => typed ++ " " ++ c.2
  whole.filter Position.accepts

/-- What a type offers in place of a token. -/
def ArgumentType.suggest (b : Builder) : ArgumentType → Except Fault Suggestions
  | bool => do
    let typed ← b.remainingLower
    let b ← b.suggestAll (["true", "false"].filter fun word => typed.toList.isPrefixOf word.toList)
    b.build
  | position candidates => do
    let typed ← b.remaining
    b.suggestMatching (Position.continuations typed candidates)
  | _ => .ok .empty

end CommandGrammar
