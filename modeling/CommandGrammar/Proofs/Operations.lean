import CommandGrammar.Proofs.Completion
import CommandGrammar.Proofs.Cursor

/-!
# `Proofs.Operations` — sequences of operations on a scanner

Whatever is asked of a scanner, and in whatever order, its text stays the same and it stands between two characters of
it. Only setting the cursor can break a contract or go back, and a contract that was broken changes nothing.

* `Scanner.Operation` — what can be asked of a scanner, with `apply` and, by offsets, `reader`;
* `Scanner.Operation.Reads.step` — an operation that reads moves on or stays, and breaks off nowhere;
* `Scanner.play`, `Cursor.play` — operations one after the other, where a fault is survived;
* `Scanner.play_toCursor` — a sequence keeps the text, and the offset follows the scanner;
* `Scanner.operations_keep_text` — all of it, at every point of every sequence.
-/

namespace CommandGrammar

namespace Scanner

/-! ## Operations -/

/-- What can be asked of a scanner. -/
inductive Operation where
  | moveTo (offset : Nat)
  | read
  | skip
  | skipBlank
  | readInt
  | readLong
  | readDouble
  | readSingle
  | readWord
  | readQuoted
  | readUntil (terminator : Char)
  | readString
  | readBool
  | expect (symbol : Char)
deriving DecidableEq, Repr

namespace Operation

/-- Where an operation leaves a scanner, whether it gives a value or an error. -/
def apply (s : Scanner) : Operation → Except Fault Scanner
  | moveTo offset => s.moveTo offset
  | read => .ok s.read?.2
  | skip => .ok s.skip
  | skipBlank => .ok s.skipBlank
  | readInt => .ok s.readInt.scanner
  | readLong => .ok s.readLong.scanner
  | readDouble => .ok s.readDouble.scanner
  | readSingle => .ok s.readSingle.scanner
  | readWord => .ok s.readWord.2
  | readQuoted => .ok s.readQuoted.scanner
  | readUntil terminator => .ok (s.readUntil terminator).scanner
  | readString => .ok s.readString.scanner
  | readBool => .ok s.readBool.scanner
  | expect symbol => .ok (s.expect symbol).scanner

/-- The operation by offsets. -/
def reader : Operation → Cursor.Reader Unit
  | moveTo offset => Cursor.moveTo offset
  | read => do let _ ← Cursor.read
  | skip => do let _ ← Cursor.read
  | skipBlank => Cursor.skipWhile Text.isBlank
  | readInt => do let _ ← Cursor.readNumber .integer (Number.fitting? 32)
  | readLong => do let _ ← Cursor.readNumber .long (Number.fitting? 64)
  | readDouble => do let _ ← Cursor.readNumber .double Number.readDouble?
  | readSingle => do let _ ← Cursor.readNumber .float Number.readSingle?
  | readWord => do let _ ← Cursor.readRun isWordChar
  | readQuoted => do let _ ← Cursor.readQuoted
  | readUntil terminator => do let _ ← Cursor.readUntil terminator
  | readString => do let _ ← Cursor.readString
  | readBool => do let _ ← Cursor.readBool
  | expect symbol => do let _ ← Cursor.expect symbol

/-- The operation does not set the cursor. -/
def Reads (operation : Operation) : Prop := ∀ offset, operation ≠ moveTo offset

/-- **Step.** An operation that reads moves on or stays, and by offsets it breaks off nowhere and gets as far. -/
theorem Reads.step {operation : Operation} (h : operation.Reads) (s : Scanner) :
    ∃ t, operation.apply s = .ok t ∧ s.Precedes t ∧ operation.reader.run s.toCursor = .ok () t.toCursor := by
  cases operation with
  | moveTo offset => exact absurd rfl (h offset)
  | read => exact ⟨_, rfl, s.precedes_skip, Cursor.bind_of_ok (Cursor.read_toCursor s)⟩
  | skip => exact ⟨_, rfl, s.precedes_skip, Cursor.bind_of_ok (Cursor.read_toCursor s)⟩
  | skipBlank => exact ⟨_, rfl, s.precedes_skipWhile _, Cursor.skipWhile_toCursor _ s⟩
  | readInt => exact ⟨_, rfl, s.precedes_readNumber _ _, Cursor.bind_of_ok (Cursor.agrees_readNumber _ _ s)⟩
  | readLong => exact ⟨_, rfl, s.precedes_readNumber _ _, Cursor.bind_of_ok (Cursor.agrees_readNumber _ _ s)⟩
  | readDouble => exact ⟨_, rfl, s.precedes_readNumber _ _, Cursor.bind_of_ok (Cursor.agrees_readNumber _ _ s)⟩
  | readSingle => exact ⟨_, rfl, s.precedes_readNumber _ _, Cursor.bind_of_ok (Cursor.agrees_readNumber _ _ s)⟩
  | readWord => exact ⟨_, rfl, s.precedes_readWord, Cursor.bind_of_ok (Cursor.readRun_toCursor isWordChar s)⟩
  | readQuoted => exact ⟨_, rfl, s.precedes_readQuoted, Cursor.bind_of_ok (Cursor.agrees_readQuoted s)⟩
  | readUntil terminator =>
    exact ⟨_, rfl, s.precedes_readUntil terminator, Cursor.bind_of_ok (Cursor.agrees_readUntil terminator s)⟩
  | readString => exact ⟨_, rfl, s.precedes_readString, Cursor.bind_of_ok (Cursor.agrees_readString s)⟩
  | readBool => exact ⟨_, rfl, s.precedes_readBool, Cursor.bind_of_ok (Cursor.agrees_readBool s)⟩
  | expect symbol => exact ⟨_, rfl, s.precedes_expect symbol, Cursor.bind_of_ok (Cursor.agrees_expect symbol s)⟩

end Operation

/-! ## Setting the cursor -/

variable {s : Scanner} {offset : Nat}

/-- Between two characters the cursor is set. -/
theorem moveTo_of_isBoundary (h : Text.IsBoundary s.text offset) :
    ∃ t, s.moveTo offset = .ok t ∧ t.text = s.text ∧ t.cursor = offset ∧
      (Cursor.moveTo offset).run s.toCursor = .ok () t.toCursor := by
  obtain ⟨passed, rest, happend, hsize⟩ := id h
  have hchars : passed ++ rest = s.chars := happend.trans s.toList_text
  have htext : (⟨passed, rest⟩ : Scanner).text = s.text := congrArg String.ofList hchars
  refine ⟨⟨passed, rest⟩, ?_, htext, hsize, ?_⟩
  · rw [moveTo, Text.cut_eq_some_iff.mpr ⟨hchars, hsize⟩]
  · have hset : (Cursor.moveTo offset).run s.toCursor = .ok () ⟨s.text, offset⟩ := by
      show (if Text.IsBoundary s.text offset then set _ else throw _ : Cursor.Reader Unit) s.toCursor = _
      rw [if_pos h]
      rfl
    rw [hset, toCursor, htext, ← hsize]
    rfl

/-- Elsewhere a contract is broken, and the cursor stays. -/
theorem moveTo_of_not_isBoundary (h : ¬ Text.IsBoundary s.text offset) :
    s.moveTo offset = .error (.cursorInsideCharacter offset) ∧
      (Cursor.moveTo offset).run s.toCursor = .error (.cursorInsideCharacter offset) s.toCursor := by
  constructor
  · unfold moveTo
    split
    · next passed rest hcut =>
      obtain ⟨hchars, hsize⟩ := Text.cut_eq_some_iff.mp hcut
      exact absurd ⟨passed, rest, hchars.trans s.toList_text.symm, hsize⟩ h
    · rfl
  · show (if Text.IsBoundary s.text offset then set _ else throw _ : Cursor.Reader Unit) s.toCursor = _
    rw [if_neg h]
    rfl

/-! ## Sequences -/

/-- Operations one after the other. A broken contract leaves the scanner where it is. -/
def play (s : Scanner) (operations : List Operation) : Scanner :=
  operations.foldl (fun s operation => (operation.apply s).toOption.getD s) s

end Scanner

/-- Operations one after the other. A fault leaves the cursor where it had got to. -/
def Cursor.play (c : Cursor) (operations : List Scanner.Operation) : Cursor :=
  operations.foldl (fun c operation =>
    match operation.reader.run c with
    | .ok _ d => d
    | .error _ d => d) c

namespace Scanner

/-- **Step.** An operation keeps the text, and the offset follows the scanner, also where a contract is broken. -/
theorem play_singleton (s : Scanner) (operation : Operation) :
    (s.play [operation]).text = s.text ∧ s.toCursor.play [operation] = (s.play [operation]).toCursor := by
  show ((operation.apply s).toOption.getD s).text = s.text ∧
    (match operation.reader.run s.toCursor with | .ok _ d => d | .error _ d => d)
      = ((operation.apply s).toOption.getD s).toCursor
  by_cases hreads : operation.Reads
  · obtain ⟨t, happly, hprecedes, hreader⟩ := hreads.step s
    rw [happly, hreader]
    exact ⟨hprecedes.text_eq, rfl⟩
  · obtain ⟨offset, rfl⟩ : ∃ offset, operation = .moveTo offset := by simpa [Operation.Reads] using hreads
    by_cases hboundary : Text.IsBoundary s.text offset
    · obtain ⟨t, hmove, htext, -, hreader⟩ := moveTo_of_isBoundary hboundary
      rw [Operation.apply, Operation.reader, hmove, hreader]
      exact ⟨htext, rfl⟩
    · obtain ⟨hmove, hreader⟩ := moveTo_of_not_isBoundary hboundary
      rw [Operation.apply, Operation.reader, hmove, hreader]
      exact ⟨rfl, rfl⟩

/-- **Run.** A sequence keeps the text, and the offset follows the scanner. -/
theorem play_toCursor (s : Scanner) (operations : List Operation) :
    (s.play operations).text = s.text ∧ s.toCursor.play operations = (s.play operations).toCursor := by
  induction operations generalizing s with
  | nil => exact ⟨rfl, rfl⟩
  | cons operation operations ih =>
    obtain ⟨htext, hcursor⟩ := play_singleton s operation
    obtain ⟨hrest, hplay⟩ := ih (s.play [operation])
    refine ⟨hrest.trans htext, ?_⟩
    show (s.toCursor.play [operation]).play operations = _
    rw [hcursor]
    exact hplay

/-- From the start of a text, a scanner and an offset get to the same place. -/
theorem play_ofString (text : String) (operations : List Operation) :
    ((ofString text).play operations).text = text ∧
      (⟨text, 0⟩ : Cursor).play operations = ⟨text, ((ofString text).play operations).cursor⟩ := by
  obtain ⟨hplay, hcursor⟩ := play_toCursor (ofString text) operations
  have htext : ((ofString text).play operations).text = text := hplay.trans (text_ofString text)
  have hstart : (ofString text).toCursor = ⟨text, 0⟩ := congrArg (Cursor.mk · 0) (text_ofString text)
  refine ⟨htext, ?_⟩
  rw [← hstart, hcursor, toCursor, htext]

/-- **Whatever is asked of a scanner, in whatever order, its text stays.** After every sequence of operations it stands
    between two characters of the text it was made for, and code that counts a byte offset up and down stands there
    too. From there an operation that reads comes to a value or an error of its own, never to a fault, and its offset
    goes on or stays. Only an offset that is set can be refused, just when it lies inside a character or behind the
    text, and then nothing moves. -/
theorem operations_keep_text (text : String) (operations : List Operation) :
    let s := (ofString text).play operations
    let c := (⟨text, 0⟩ : Cursor).play operations
    s.text = text ∧ Text.IsBoundary text s.cursor ∧ s.cursor ≤ Text.byteSize text ∧ c = ⟨text, s.cursor⟩ ∧
      (∀ operation : Operation, operation.Reads → ∃ t, operation.apply s = .ok t ∧ t.text = text ∧
        s.cursor ≤ t.cursor ∧ operation.reader.run c = .ok () ⟨text, t.cursor⟩) ∧
      ∀ offset,
        if Text.IsBoundary text offset then
          ∃ t, s.moveTo offset = .ok t ∧ t.text = text ∧ t.cursor = offset ∧
            (Cursor.moveTo offset).run c = .ok () ⟨text, offset⟩
        else
          s.moveTo offset = .error (.cursorInsideCharacter offset) ∧
            (Cursor.moveTo offset).run c = .error (.cursorInsideCharacter offset) c := by
  intro s c
  obtain ⟨htext, hc⟩ : s.text = text ∧ c = ⟨text, s.cursor⟩ := play_ofString text operations
  have hcursor : c = s.toCursor := by rw [hc, toCursor, htext]
  refine ⟨htext, htext ▸ s.isBoundary_cursor, htext ▸ s.cursor_le_byteSize, hc, ?_, ?_⟩
  · intro operation hreads
    obtain ⟨t, happly, hprecedes, hreader⟩ := hreads.step s
    have ht : t.text = text := hprecedes.text_eq.trans htext
    refine ⟨t, happly, ht, hprecedes.cursor_le, ?_⟩
    rw [hcursor, hreader, toCursor, ht]
  · intro offset
    split
    · next hboundary =>
      rw [← htext] at hboundary
      obtain ⟨t, hmove, ht, hoffset, hreader⟩ := moveTo_of_isBoundary hboundary
      refine ⟨t, hmove, ht.trans htext, hoffset, ?_⟩
      rw [hcursor, hreader, toCursor, ht, htext, hoffset]
    · next hboundary =>
      rw [← htext] at hboundary
      obtain ⟨hmove, hreader⟩ := moveTo_of_not_isBoundary hboundary
      exact ⟨hmove, hcursor ▸ hreader⟩

-- A character that may not be escaped is given back, and an offset inside it is refused.
example : ((ofString "\"\\é").play [.readQuoted, .moveTo 3]).cursor = 2 := by decide

end Scanner

end CommandGrammar
