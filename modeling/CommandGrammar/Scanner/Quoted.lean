import CommandGrammar.Scanner.Basic

/-!
# `Scanner.Quoted` — quoted strings and truth values

Inside quotes every character stands for itself, except that a backslash stands before a quote or a
backslash that belongs to the string.

## Contents

* `Quoted.Reading`, `Quoted.readUntil` — reading up to a terminator, on plain lists of characters;
* `Quoted.escape`, `Quoted.encode` — writing, the inverse direction;
* `Scanner.readUntil`, `readQuoted`, `readString` — the same on a scanner;
* `Scanner.readBool` — the words `true` and `false`, quoted or not.
-/

namespace CommandGrammar

/-! ## Reading and writing lists of characters -/

namespace Quoted

/-- The character that makes the next one stand for itself. -/
def backslash : Char := '\\'

/-- Whether a character opens, and then also closes, a quoted string. -/
def isQuote (c : Char) : Bool := c == '"' || c == '\''

/-- What reading up to a terminator comes to. -/
inductive Reading where
  /-- The terminator was found: what stood before it, and what stands behind it. -/
  | closed (value rest : List Char)
  /-- A character that may not be escaped follows a backslash and starts `rest`. -/
  | badEscape (escaped : Char) (rest : List Char)
  /-- The text ends first. -/
  | unclosed
deriving DecidableEq, Repr

/-- Adds a character in front of what was read. -/
def Reading.cons (c : Char) : Reading → Reading
  | closed value rest => closed (c :: value) rest
  | badEscape escaped rest => badEscape escaped rest
  | unclosed => unclosed

/-- What is still to come after reading. -/
def Reading.rest : Reading → List Char
  | closed _ rest => rest
  | badEscape _ rest => rest
  | unclosed => []

/-- Reads up to the first unescaped `terminator`. -/
def readUntil (terminator : Char) : List Char → Reading
  | [] => .unclosed
  | c :: cs =>
    if c = backslash then
      match cs with
      | [] => .unclosed
      | d :: ds =>
        if d = terminator ∨ d = backslash then (readUntil terminator ds).cons d
        else .badEscape d (d :: ds)
    else if c = terminator then .closed [] cs
    else (readUntil terminator cs).cons c

@[simp] theorem Reading.rest_cons (c : Char) (r : Reading) : (r.cons c).rest = r.rest := by
  cases r <;> rfl

/-- What is still to come is the end of what was there. -/
theorem rest_readUntil_suffix (terminator : Char) (cs : List Char) :
    (readUntil terminator cs).rest <:+ cs := by
  fun_induction readUntil terminator cs with
  | case1 => exact List.suffix_refl _
  | case2 => exact List.nil_suffix
  | case3 d ds _ ih =>
    rw [Reading.rest_cons]
    exact ih.trans ⟨[backslash, d], rfl⟩
  | case4 => exact List.suffix_cons _ _
  | case5 => exact List.suffix_cons _ _
  | case6 c cs _ _ ih =>
    rw [Reading.rest_cons]
    exact ih.trans (List.suffix_cons c _)

/-- Puts a backslash before every terminator and every backslash. -/
def escape (terminator : Char) : List Char → List Char
  | [] => []
  | c :: cs =>
    if c = terminator ∨ c = backslash then backslash :: c :: escape terminator cs
    else c :: escape terminator cs

/-- Writes a string so that it can be read back: as it is when all its characters may stand
    without quotes, otherwise in double quotes. -/
def encode (text : String) : String :=
  if text.toList.all isWordChar then text
  else String.ofList ('"' :: escape '"' text.toList ++ ['"'])

end Quoted

/-! ## Reading with a scanner -/

namespace Scanner

/-- Reads up to the first unescaped `terminator` and past it. A character that may not be escaped is
    where the scanner stops. -/
def readUntil (terminator : Char) (s : Scanner) : Scanned String :=
  match Quoted.readUntil terminator s.rest with
  | .closed value rest => .ok (String.ofList value) (s.advanceTo rest)
  | .badEscape escaped rest =>
    .error ((s.advanceTo rest).error (.invalidEscape escaped)) (s.advanceTo rest)
  | .unclosed => .error (s.toEnd.error .endOfQuoteExpected) s.toEnd

/-- Reads a string that must be quoted; at the end of the text it is empty. -/
def readQuoted (s : Scanner) : Scanned String :=
  match s.peek? with
  | none => .ok "" s
  | some quote =>
    if Quoted.isQuote quote then s.skip.readUntil quote
    else .error (s.error .startOfQuoteExpected) s

/-- Reads a string that may be quoted. -/
def readString (s : Scanner) : Scanned String :=
  match s.peek? with
  | none => .ok "" s
  | some quote =>
    if Quoted.isQuote quote then s.skip.readUntil quote
    else .ok s.readWord.1 s.readWord.2

/-- Reads `true` or `false`. Another word leaves the scanner in front of it. -/
def readBool (s : Scanner) : Scanned Bool :=
  match s.readString with
  | .error e t => .error e t
  | .ok value t =>
    if value = "" then .error (t.error .boolExpected) t
    else if value = "true" then .ok true t
    else if value = "false" then .ok false t
    else .error (s.error (.invalidBool value)) s

/-! ## Readers move on or stay -/

theorem precedes_readUntil (terminator : Char) (s : Scanner) :
    s.Precedes (s.readUntil terminator).scanner := by
  have hsuffix := Quoted.rest_readUntil_suffix terminator s.rest
  unfold readUntil
  split
  · next h =>
    rw [h] at hsuffix
    exact precedes_advanceTo hsuffix
  · next h =>
    rw [h] at hsuffix
    exact precedes_advanceTo hsuffix
  · exact s.precedes_toEnd

theorem precedes_readQuoted (s : Scanner) : s.Precedes s.readQuoted.scanner := by
  unfold readQuoted
  split
  · exact .refl s
  · split
    · exact s.precedes_skip.trans (precedes_readUntil _ _)
    · exact .refl s

theorem precedes_readString (s : Scanner) : s.Precedes s.readString.scanner := by
  unfold readString
  split
  · exact .refl s
  · split
    · exact s.precedes_skip.trans (precedes_readUntil _ _)
    · exact s.precedes_readWord

theorem precedes_readBool (s : Scanner) : s.Precedes s.readBool.scanner := by
  have h := s.precedes_readString
  unfold readBool
  split
  · next hread => rwa [hread] at h
  · next hread =>
    rw [hread] at h
    split
    · exact h
    · split
      · exact h
      · split
        · exact h
        · exact .refl s

end Scanner

end CommandGrammar
