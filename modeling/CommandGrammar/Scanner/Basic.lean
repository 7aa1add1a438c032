import CommandGrammar.Error
import CommandGrammar.Number
import CommandGrammar.Text.Class

/-!
# `Scanner` — a place in a text

A scanner is a text taken apart at a place: the characters passed and the characters still to come. The text and the
place can therefore never disagree, and the place never falls inside a character.

## Contents

* `Scanner`, `Scanner.text`, `Scanner.cursor` — the text and the place as a byte offset;
* `Scanner.moveTo` — jumping to a byte offset, a fault inside a character or past the end;
* `Scanner.skip`, `Scanner.skipWhile`, `Scanner.advance`, `Scanner.advanceTo` — moving on;
* `Scanned` — the outcome of reading, which tells where the scanner ended up even on an error;
* `Scanner.Precedes` — one scanner was reached from another by moving on;
* `Scanned.Placed` — an error was found where reading started or behind it;
* `Scanner.behind`, `Scanned.behind` — a scanner and an outcome with more text in front;
* `Scanner.readWord` — the longest run of plain characters, possibly empty;
* `Scanner.readNumber`, and `readInt`, `readLong`, `readDouble`, `readSingle` from it — the longest run of number
  characters that also spells a number. A run that spells none is refused as a whole, and the scanner stays in front of
  it.

Everything that reads moves on or stays: `Precedes` is what the readers' lemmas conclude, and it gives both that the
text is kept and that the cursor does not decrease.
-/

namespace CommandGrammar

/-- A text taken apart at a place. -/
structure Scanner where
  /-- The characters before the place. -/
  passed : List Char
  /-- The characters from the place on. -/
  rest : List Char
deriving DecidableEq, Repr

/-- The outcome of reading: a value or an error, and where the scanner stands afterwards. -/
inductive Scanned (α : Type) where
  | ok (value : α) (scanner : Scanner)
  | error (error : Error) (scanner : Scanner)

namespace Scanned

/-- Where the scanner stands after reading. -/
def scanner {α : Type} : Scanned α → Scanner
  | ok _ s => s
  | error _ s => s

/-- What was read, without the scanner. -/
def result {α : Type} : Scanned α → Except Error α
  | ok value _ => .ok value
  | error e _ => .error e

/-- Changes the value that was read. -/
def map {α β : Type} (f : α → β) : Scanned α → Scanned β
  | ok value s => ok (f value) s
  | error e s => error e s

@[simp] theorem scanner_ok {α : Type} (value : α) (s : Scanner) : (ok value s).scanner = s := rfl

@[simp] theorem scanner_error {α : Type} (e : Error) (s : Scanner) :
    (error e s : Scanned α).scanner = s := rfl

@[simp] theorem scanner_map {α β : Type} (f : α → β) (r : Scanned α) :
    (r.map f).scanner = r.scanner := by
  cases r <;> rfl

end Scanned

namespace Scanner

/-- The character between two arguments. -/
def separator : Char := ' '

/-! ## The text and the place -/

/-- A scanner at the start of a text. -/
def ofString (text : String) : Scanner := ⟨[], text.toList⟩

/-- All characters of the text. -/
def chars (s : Scanner) : List Char := s.passed ++ s.rest

/-- The whole text. -/
def text (s : Scanner) : String := String.ofList s.chars

/-- The byte offset of the place. -/
def cursor (s : Scanner) : Nat := Text.size s.passed

/-- The text before the place. -/
def readSoFar (s : Scanner) : String := String.ofList s.passed

/-- The text from the place on. -/
def remaining (s : Scanner) : String := String.ofList s.rest

/-- How many bytes are still to come. -/
def remainingSize (s : Scanner) : Nat := Text.size s.rest

/-- How many bytes the whole text has. -/
def totalSize (s : Scanner) : Nat := Text.size s.chars

/-- The scanner at another place of the same text. -/
def moveTo (s : Scanner) (cursor : Nat) : Except Fault Scanner :=
  match Text.cut cursor s.chars with
  | some (passed, rest) => .ok ⟨passed, rest⟩
  | none => .error (.cursorInsideCharacter cursor)

/-- Where the scanner stands, for an error. -/
def place (s : Scanner) : Error.Place := ⟨s.text, s.cursor⟩

/-- An error at the place where the scanner stands. -/
def error (s : Scanner) (kind : Error.Kind) : Error := ⟨kind, some s.place⟩

/-! ## Looking ahead -/

/-- Whether anything is still to come. -/
def canRead (s : Scanner) : Bool := !s.rest.isEmpty

/-- Whether at least `n` bytes are still to come. -/
def canReadBytes (s : Scanner) (n : Nat) : Bool := n ≤ s.remainingSize

/-- Whether the place `n` bytes further on lies in the text. It has to have an offset. -/
def reaches (s : Scanner) (n : Nat) : Except Fault Bool :=
  (Fault.sum s.cursor n).map (· ≤ s.totalSize)

/-- The next character. -/
def peek? (s : Scanner) : Option Char := s.rest.head?

/-- The character after the next `n`. -/
def peekAt? (s : Scanner) (n : Nat) : Option Char := s.rest[n]?

/-- Whether the next character is `c`. -/
def nextIs (s : Scanner) (c : Char) : Bool := s.rest.head? == some c

/-- The characters up to the next separator. -/
def token (s : Scanner) : List Char := s.rest.takeWhile (· ≠ separator)

/-- Whether an argument may end here: before a separator or at the end. -/
def atBreak (s : Scanner) : Bool := s.rest.head?.all (· == separator)

/-! ## Moving on -/

/-- Moves past the next character, if there is one. -/
def skip : Scanner → Scanner
  | ⟨passed, c :: rest⟩ => ⟨passed ++ [c], rest⟩
  | ⟨passed, []⟩ => ⟨passed, []⟩

/-- Moves past the longest run of characters that satisfy `p`. -/
def skipWhile (p : Char → Bool) (s : Scanner) : Scanner :=
  ⟨s.passed ++ s.rest.takeWhile p, s.rest.dropWhile p⟩

/-- Moves past white space. -/
def skipBlank (s : Scanner) : Scanner := s.skipWhile Text.isBlank

/-- Moves past the next `n` characters. -/
def advance (s : Scanner) (n : Nat) : Scanner := ⟨s.passed ++ s.rest.take n, s.rest.drop n⟩

/-- Moves on to where only `rest` is still to come. -/
def advanceTo (s : Scanner) (rest : List Char) : Scanner :=
  ⟨s.passed ++ s.rest.take (s.rest.length - rest.length), rest⟩

/-- Moves to the end of the text. -/
def toEnd (s : Scanner) : Scanner := ⟨s.passed ++ s.rest, []⟩

/-- The next character and the scanner behind it. -/
def read? (s : Scanner) : Option Char × Scanner := (s.peek?, s.skip)

/-- Moves past the character `c`, which must be next. -/
def expect (c : Char) (s : Scanner) : Scanned Unit :=
  if s.nextIs c then .ok () s.skip else .error (s.error (.symbolExpected c)) s

/-! ## Scanners in the order of reading -/

/-- `t` was reached from `s` by moving on. -/
def Precedes (s t : Scanner) : Prop :=
  ∃ taken, t.passed = s.passed ++ taken ∧ s.rest = taken ++ t.rest

namespace Precedes

theorem refl (s : Scanner) : s.Precedes s := ⟨[], by simp, by simp⟩

theorem trans {s t u : Scanner} (h : s.Precedes t) (h' : t.Precedes u) : s.Precedes u := by
  obtain ⟨xs, hpassed, hrest⟩ := h
  obtain ⟨ys, hpassed', hrest'⟩ := h'
  exact ⟨xs ++ ys, by simp [hpassed', hpassed], by simp [hrest, hrest']⟩

/-- Moving on keeps the text. -/
theorem chars_eq {s t : Scanner} (h : s.Precedes t) : t.chars = s.chars := by
  obtain ⟨taken, hpassed, hrest⟩ := h
  simp [chars, hpassed, hrest]

/-- Moving on never decreases the cursor. -/
theorem cursor_le {s t : Scanner} (h : s.Precedes t) : s.cursor ≤ t.cursor := by
  obtain ⟨taken, hpassed, _⟩ := h
  simp [cursor, hpassed]

end Precedes

theorem precedes_skip (s : Scanner) : s.Precedes s.skip := by
  obtain ⟨passed, rest⟩ := s
  cases rest with
  | nil => exact .refl _
  | cons c rest => exact ⟨[c], rfl, rfl⟩

theorem precedes_skipWhile (p : Char → Bool) (s : Scanner) : s.Precedes (s.skipWhile p) :=
  ⟨s.rest.takeWhile p, rfl, List.takeWhile_append_dropWhile.symm⟩

theorem precedes_advanceTo {s : Scanner} {rest : List Char} (h : rest <:+ s.rest) :
    s.Precedes (s.advanceTo rest) := by
  obtain ⟨taken, htaken⟩ := h
  refine ⟨taken, ?_, htaken.symm⟩
  simp [advanceTo, ← htaken]

theorem precedes_advance (s : Scanner) (n : Nat) : s.Precedes (s.advance n) :=
  ⟨s.rest.take n, rfl, (List.take_append_drop n s.rest).symm⟩

theorem precedes_toEnd (s : Scanner) : s.Precedes s.toEnd := ⟨s.rest, rfl, by simp [toEnd]⟩

theorem precedes_expect (c : Char) (s : Scanner) : s.Precedes (s.expect c).scanner := by
  unfold expect
  split
  · exact s.precedes_skip
  · exact .refl s

end Scanner

/-! ## Laws of reading -/

/-- The error was found at a place that is reached from the scanner by reading on. -/
def Error.PlacedFrom (s : Scanner) (e : Error) : Prop := ∃ u kind, s.Precedes u ∧ e = u.error kind

/-- The error of an outcome, if there is one, was found at a place that is reached by reading on. -/
def Scanned.Placed {α : Type} (s : Scanner) : Scanned α → Prop
  | ok _ _ => True
  | error e _ => e.PlacedFrom s

/-- The scanner with more text in front of what was passed. -/
def Scanner.behind (front : List Char) (s : Scanner) : Scanner := ⟨front ++ s.passed, s.rest⟩

/-- The same place of a text with more text in front. -/
def Error.Place.behind (front : List Char) (place : Place) : Place :=
  ⟨String.ofList front ++ place.input, Text.size front + place.cursor⟩

/-- The same error for a text with more text in front. -/
def Error.behind (front : List Char) (e : Error) : Error := { e with place := e.place.map (·.behind front) }

/-- The same outcome for a text with more text in front. -/
def Scanned.behind {α : Type} (front : List Char) : Scanned α → Scanned α
  | ok value s => ok value (s.behind front)
  | error e s => error (e.behind front) (s.behind front)

/-! ## Words and numbers -/

/-- Whether a character may occur in a number. -/
def isNumberChar (c : Char) : Bool := c.isDigit || c == '.' || c == '-'

/-- Whether a character may occur in a string without quotes. -/
def isWordChar (c : Char) : Bool :=
  c.isAlphanum || c == '_' || c == '-' || c == '.' || c == '+' || c == ':'

/-- Reads a whole number that fits into `bits` bits with a sign. -/
def Number.fitting? (bits : Nat) (cs : List Char) : Option Int :=
  (int? cs).filter fun n => -(twoTo (bits - 1) : Int) ≤ n && n < twoTo (bits - 1)

namespace Scanner

/-- Reads the longest run of word characters, which may be empty. -/
def readWord (s : Scanner) : String × Scanner :=
  (String.ofList (s.rest.takeWhile isWordChar), s.skipWhile isWordChar)

/-- Reads the longest run of number characters and what it spells. -/
def readNumber {α : Type} (kind : NumberKind) (read? : List Char → Option α) (s : Scanner) :
    Scanned α :=
  let digits := s.rest.takeWhile isNumberChar
  if digits = [] then .error (s.error (.numberExpected kind)) s
  else match read? digits with
    | some value => .ok value (s.skipWhile isNumberChar)
    | none => .error (s.error (.invalidNumber kind (String.ofList digits))) s

/-- Reads a whole number of 32 bits. -/
def readInt : Scanner → Scanned Int := readNumber .integer (Number.fitting? 32)

/-- Reads a whole number of 64 bits. -/
def readLong : Scanner → Scanned Int := readNumber .long (Number.fitting? 64)

/-- Reads a floating-point number of 64 bits. -/
def readDouble : Scanner → Scanned Float := readNumber .double Number.readDouble?

/-- Reads a floating-point number of 32 bits. -/
def readSingle : Scanner → Scanned Float32 := readNumber .float Number.readSingle?

theorem precedes_readWord (s : Scanner) : s.Precedes s.readWord.2 := s.precedes_skipWhile _

theorem precedes_readNumber {α : Type} (kind : NumberKind) (read? : List Char → Option α)
    (s : Scanner) : s.Precedes (s.readNumber kind read?).scanner := by
  unfold readNumber
  dsimp only
  split
  · exact .refl s
  · split
    · exact s.precedes_skipWhile _
    · exact .refl s

/-- A number that is refused leaves the scanner where it was. -/
theorem scanner_of_readNumber_error {α : Type} {kind : NumberKind} {read? : List Char → Option α}
    {s t : Scanner} {e : Error} (h : s.readNumber kind read? = .error e t) : t = s := by
  unfold readNumber at h
  dsimp only at h
  split at h
  · cases h; rfl
  · split at h <;> cases h
    rfl

end Scanner

end CommandGrammar
