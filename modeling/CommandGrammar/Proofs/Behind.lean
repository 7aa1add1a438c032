import CommandGrammar.Argument

/-!
# `Proofs.Behind` — reading behind other text

Every reader looks at what is still to come and at nothing else. With more text put in front of what was passed,
it reads the same value, stops at the same place of the longer text, and if it fails, it fails for the same reason
at the same place.

* `Scanner.error_behind` — an error at a scanner moves with the scanner;
* `Scanner.skip_behind`, …, `Scanner.readBool_behind` — moving on and reading commute with it;
* `ArgumentType.read_behind` — hence so does reading an argument of any type.

All statements are equations of outcomes, so they cover values and errors alike.
-/

namespace CommandGrammar

variable {α β : Type} (front : List Char)

/-! ## More text in front -/

theorem Scanned.map_behind (f : α → β) (r : Scanned α) : (r.map f).behind front = (r.behind front).map f := by
  cases r <;> rfl

namespace Scanner

@[simp] theorem rest_behind (s : Scanner) : (s.behind front).rest = s.rest := rfl

theorem text_behind (s : Scanner) : (s.behind front).text = String.ofList front ++ s.text := by
  rw [text, text, chars, chars, behind, List.append_assoc, String.ofList_append]

@[simp] theorem cursor_behind (s : Scanner) : (s.behind front).cursor = Text.size front + s.cursor :=
  Text.size_append front s.passed

/-- An error is placed where the scanner stands. -/
theorem error_behind (s : Scanner) (kind : Error.Kind) :
    (s.behind front).error kind = (s.error kind).behind front := by
  simp only [error, place, text_behind, cursor_behind]
  rfl

/-! ## Moving on -/

theorem skip_behind (s : Scanner) : (s.behind front).skip = s.skip.behind front := by
  obtain ⟨passed, rest⟩ := s
  cases rest with
  | nil => rfl
  | cons c rest => simp only [behind, skip, List.append_assoc]

theorem skipWhile_behind (p : Char → Bool) (s : Scanner) :
    (s.behind front).skipWhile p = (s.skipWhile p).behind front := by
  simp only [skipWhile, behind, List.append_assoc]

theorem advance_behind (n : Nat) (s : Scanner) : (s.behind front).advance n = (s.advance n).behind front := by
  simp only [advance, behind, List.append_assoc]

theorem advanceTo_behind (rest : List Char) (s : Scanner) :
    (s.behind front).advanceTo rest = (s.advanceTo rest).behind front := by
  simp only [advanceTo, behind, List.append_assoc]

theorem toEnd_behind (s : Scanner) : (s.behind front).toEnd = s.toEnd.behind front := by
  simp only [toEnd, behind, List.append_assoc]

/-! ## Words, numbers and strings -/

theorem readWord_behind (s : Scanner) :
    (s.behind front).readWord = (s.readWord.1, s.readWord.2.behind front) := by
  simp only [readWord, rest_behind, skipWhile_behind]

theorem readNumber_behind (kind : NumberKind) (read? : List Char → Option α) (s : Scanner) :
    (s.behind front).readNumber kind read? = (s.readNumber kind read?).behind front := by
  unfold readNumber
  simp only [rest_behind, skipWhile_behind, error_behind]
  by_cases hdigits : s.rest.takeWhile isNumberChar = []
  · rw [if_pos hdigits, if_pos hdigits]
    rfl
  · rw [if_neg hdigits, if_neg hdigits]
    cases read? (s.rest.takeWhile isNumberChar) <;> rfl

theorem readUntil_behind (terminator : Char) (s : Scanner) :
    (s.behind front).readUntil terminator = (s.readUntil terminator).behind front := by
  unfold readUntil
  simp only [rest_behind, advanceTo_behind, toEnd_behind, error_behind]
  cases Quoted.readUntil terminator s.rest <;> rfl

theorem readString_behind (s : Scanner) : (s.behind front).readString = s.readString.behind front := by
  unfold readString
  simp only [peek?, rest_behind, skip_behind, readUntil_behind, readWord_behind]
  cases s.rest.head? with
  | none => rfl
  | some quote =>
    dsimp only
    split <;> rfl

theorem readBool_behind (s : Scanner) : (s.behind front).readBool = s.readBool.behind front := by
  unfold readBool
  rw [readString_behind]
  cases s.readString with
  | error e t => rfl
  | ok value t =>
    simp only [Scanned.behind, error_behind]
    -- The four answers that a string can get.
    split
    · rfl
    · split
      · rfl
      · split <;> rfl

end Scanner

/-! ## Arguments -/

theorem Bounds.read_behind [LT α] [DecidableLT α] (bounds : Bounds α) (kind : NumberKind) (render : α → String)
    (read? : List Char → Option α) (s : Scanner) :
    bounds.read kind render read? (s.behind front) = (bounds.read kind render read? s).behind front := by
  unfold Bounds.read
  rw [Scanner.readNumber_behind]
  cases s.readNumber kind read? with
  | error e t => rfl
  | ok value t =>
    simp only [Scanned.behind, Bounds.check, Scanner.error_behind]
    split
    · rfl
    · split <;> rfl

theorem Coordinate.read_behind (s : Scanner) :
    Coordinate.read (s.behind front) = (Coordinate.read s).behind front := by
  -- Both readings look for the mark first and then stand at the same place.
  have hstart : (if (s.behind front).nextIs mark then (s.behind front).skip else s.behind front)
      = (if s.nextIs mark then s.skip else s).behind front := by
    show (if s.nextIs mark then _ else _) = _
    split
    · exact Scanner.skip_behind front s
    · rfl
  unfold Coordinate.read
  dsimp only
  rw [hstart]
  generalize (if s.nextIs mark then s.skip else s) = u
  change (if !s.canRead then _ else if s.nextIs mark && u.atBreak then _ else _) = _
  split
  · exact congrArg (Scanned.error · _) (Scanner.error_behind front s _)
  · split
    · rfl
    · rw [Scanner.readDouble, Scanner.readNumber_behind]
      cases u.readNumber .double Number.readDouble? <;> rfl

theorem Position.read_behind (s : Scanner) :
    Position.read (s.behind front) = (Position.read s).behind front := by
  unfold Position.read
  rw [Coordinate.read_behind]
  cases Coordinate.read s with
  | error e t => rfl
  | ok x t =>
    simp only [Scanned.behind]
    change (if t.nextIs Scanner.separator then _ else _) = _
    split
    · rw [Scanner.skip_behind, Coordinate.read_behind]
      cases Coordinate.read t.skip <;> rfl
    · exact congrArg (Scanned.error · _) (Scanner.error_behind front s _)

/-- **An argument is read from what is to come.** -/
theorem ArgumentType.read_behind (type : ArgumentType) (s : Scanner) :
    type.read (s.behind front) = (type.read s).behind front := by
  cases type with
  | bool => rw [read, read, Scanner.readBool_behind, Scanned.map_behind]
  | int bounds => rw [read, read, Bounds.read_behind, Scanned.map_behind]
  | long bounds => rw [read, read, Bounds.read_behind, Scanned.map_behind]
  | double bounds => rw [read, read, Bounds.read_behind, Scanned.map_behind]
  | single bounds => rw [read, read, Bounds.read_behind, Scanned.map_behind]
  | word => rw [read, read, Scanner.readWord_behind, Scanned.behind]
  | string => rw [read, read, Scanner.readString_behind, Scanned.map_behind]
  | greedy => rw [read, read, Scanner.toEnd_behind, Scanned.behind, Scanner.remaining, Scanner.remaining,
      Scanner.rest_behind]
  | position candidates => rw [read, read, Position.read_behind, Scanned.map_behind]
  | custom type => exact type.behind front s

end CommandGrammar
