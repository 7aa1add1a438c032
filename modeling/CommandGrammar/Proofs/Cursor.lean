import CommandGrammar.Proofs.Quoting
import CommandGrammar.Proofs.Stray

/-!
# `Proofs.Cursor` — scanning with a byte offset

A scanner is a text taken apart at a place, so it cannot stand inside a character. Here the same operations work on a
text and a byte offset that is counted up and down: every look at the text cuts it at the offset, which is a fault
inside a character, and a fault leaves the offset where it had got to. What keeps the two together is the step
`Cursor.peek_toCursor`; everything that reads comes down to it.

* `Cursor`, `Cursor.Reader` — a text with an offset, and code that moves it and can break off;
* `Cursor.read`, `Cursor.skipWhile`, `Cursor.readNumber`, `Cursor.readUntil`, … — scanning by offsets;
* `Scanner.toCursor` — the offset at which a scanner stands;
* `Cursor.Reader.Agrees` — reading at the offset of a scanner breaks off nowhere, and comes to what the scanner reads;
* `Cursor.agrees_readNumber`, …, `Cursor.agrees_expect` — every reader agrees, in values, errors and places.
-/

namespace CommandGrammar

/-- A text and a byte offset, which may be any number. -/
structure Cursor where
  /-- The text. -/
  text : String
  /-- How many bytes of it are passed. -/
  offset : Nat
deriving DecidableEq, Repr

namespace Cursor

/-! ## Reading by offsets -/

/-- Code that moves a cursor and can break off, with the cursor where it then stands. -/
abbrev Reader (α : Type) := EStateM Fault Cursor α

/-- The cursor behind a character that starts at it. -/
def past (c : Cursor) (next : Char) : Cursor := { c with offset := c.offset + next.utf8Size }

/-- The cursor in front of a character that ends at it. -/
def back (c : Cursor) (last : Char) : Cursor := { c with offset := c.offset - last.utf8Size }

/-- How many bytes are still to come. -/
def left (c : Cursor) : Nat := Text.byteSize c.text - c.offset

/-- Fails at the cursor. -/
def fail {α : Type} (kind : Error.Kind) : Reader (Except Error α) := do
  let c ← get
  return .error ⟨kind, some ⟨c.text, c.offset⟩⟩

/-- Sets the offset, which has to lie between two characters. -/
def moveTo (offset : Nat) : Reader Unit := do
  let c ← get
  if Text.IsBoundary c.text offset then set { c with offset } else throw (.cursorInsideCharacter offset)

/-- Sets the offset back to where the cursor stood before. -/
def giveBack (start : Nat) : Reader Unit := modify ({ · with offset := start })

/-- Goes on with a part of the text, where there is one. -/
def require {α : Type} : Except Fault α → Reader α
  | .ok value => return value
  | .error fault => throw fault

/-- The next character. The text is cut at the offset. -/
def peek : Reader (Option Char) := do
  let c ← get
  let rest ← require (Fault.after c.text c.offset)
  return rest.toList.head?

/-- Reads the next character, if there is one. -/
def read : Reader (Option Char) := do
  let next ← peek
  modify fun c => next.elim c c.past
  return next

/-- The text from an offset to the cursor. -/
def since (start : Nat) : Reader String := do
  let c ← get
  require (Fault.slice c.text start c.offset)

/-- A character that can be looked at lies in the text. -/
theorem peek_eq_some {c d : Cursor} {next : Char} (h : peek.run c = .ok (some next) d) :
    d = c ∧ c.offset + next.utf8Size ≤ Text.byteSize c.text := by
  change EStateM.bind (require (Fault.after c.text c.offset)) _ c = _ at h
  cases hafter : Fault.after c.text c.offset with
  | error fault =>
    rw [hafter] at h
    cases h
  | ok rest =>
    rw [hafter] at h
    obtain ⟨hhead, rfl⟩ := EStateM.Result.ok.inj h
    obtain ⟨front, hline, hfront⟩ := Fault.after_eq_ok_iff.mp hafter
    obtain ⟨cs, hrest⟩ := List.head?_eq_some_iff.mp hhead
    refine ⟨rfl, ?_⟩
    rw [← hline, ← hfront, Text.byteSize_append, Text.byteSize, Text.byteSize, hrest, Text.size_cons]
    omega

/-- Past a character less is still to come. -/
theorem left_past_lt {c d : Cursor} {next : Char} (h : peek.run c = .ok (some next) d) :
    (d.past next).left < c.left := by
  obtain ⟨rfl, hle⟩ := peek_eq_some h
  have hpos := next.utf8Size_pos
  show Text.byteSize d.text - (d.offset + next.utf8Size) < Text.byteSize d.text - d.offset
  omega

/-- The loop of `skipWhile`. -/
def skipWhileFrom (p : Char → Bool) (c : Cursor) : EStateM.Result Fault Cursor Unit :=
  match h : peek.run c with
  | .ok (some next) d =>
    have := left_past_lt h
    if p next then skipWhileFrom p (d.past next) else .ok () d
  | .ok none d => .ok () d
  | .error fault d => .error fault d
termination_by c.left

/-- Moves past the longest run of characters that satisfy `p`. -/
def skipWhile (p : Char → Bool) : Reader Unit := skipWhileFrom p

/-- Reads the longest run of characters that satisfy `p`. -/
def readRun (p : Char → Bool) : Reader String := do
  let start := (← get).offset
  skipWhile p
  since start

/-- Reads the longest run of number characters and what it spells. A run that spells nothing is given back. -/
def readNumber {α : Type} (kind : NumberKind) (read? : List Char → Option α) : Reader (Except Error α) := do
  let start := (← get).offset
  let digits ← readRun isNumberChar
  if digits = "" then fail (.numberExpected kind)
  else match read? digits.toList with
    | some value => return .ok value
    | none =>
      giveBack start
      fail (.invalidNumber kind digits)

/-- The loop of `readUntil`: `escaped` tells whether a backslash came last, and `value` is what was read before it. A
    character that may not be escaped is given back. -/
def readUntilFrom (terminator : Char) (escaped : Bool) (value : String) (c : Cursor) :
    EStateM.Result Fault Cursor (Except Error String) :=
  match h : peek.run c with
  | .ok (some next) d =>
    have := left_past_lt h
    if escaped then
      if next = terminator ∨ next = Quoted.backslash then
        readUntilFrom terminator false (value.push next) (d.past next)
      else (fail (.invalidEscape next)).run ((d.past next).back next)
    else if next = Quoted.backslash then readUntilFrom terminator true value (d.past next)
    else if next = terminator then .ok (.ok value) (d.past next)
    else readUntilFrom terminator false (value.push next) (d.past next)
  | .ok none d => (fail .endOfQuoteExpected).run d
  | .error fault d => .error fault d
termination_by c.left

/-- Reads up to the first unescaped `terminator` and past it. -/
def readUntil (terminator : Char) : Reader (Except Error String) := readUntilFrom terminator false ""

/-- Reads a string that must be quoted; at the end of the text it is empty. -/
def readQuoted : Reader (Except Error String) := do
  match ← peek with
  | none => return .ok ""
  | some quote =>
    if Quoted.isQuote quote then
      let _ ← read
      readUntil quote
    else fail .startOfQuoteExpected

/-- Reads a string that may be quoted. -/
def readString : Reader (Except Error String) := do
  match ← peek with
  | none => return .ok ""
  | some quote =>
    if Quoted.isQuote quote then
      let _ ← read
      readUntil quote
    else
      let word ← readRun isWordChar
      return .ok word

/-- Reads `true` or `false`. Another word is given back. -/
def readBool : Reader (Except Error Bool) := do
  let start := (← get).offset
  match ← readString with
  | .error e => return .error e
  | .ok value =>
    if value = "" then fail .boolExpected
    else if value = "true" then return .ok true
    else if value = "false" then return .ok false
    else
      giveBack start
      fail (.invalidBool value)

/-- Moves past the character `symbol`, which must be next. -/
def expect (symbol : Char) : Reader (Except Error Unit) := do
  let next ← peek
  if next = some symbol then
    let _ ← read
    return .ok ()
  else fail (.symbolExpected symbol)

end Cursor

/-! ## The offset of a scanner -/

/-- The text and the offset at which a scanner stands. -/
def Scanner.toCursor (s : Scanner) : Cursor := ⟨s.text, s.cursor⟩

namespace Cursor

variable {α β : Type} {s t : Scanner}

/-- Reading at the offset of a scanner comes to the same value or error, at the offset where the scanner then stands. -/
def Reader.Agrees (reader : Reader (Except Error α)) (s : Scanner) (r : Scanned α) : Prop :=
  reader.run s.toCursor = .ok r.result r.scanner.toCursor

/-- Code that goes on from where a part of it got to. -/
theorem bind_of_ok {reader : Reader α} {next : α → Reader β} {c d : Cursor} {value : α}
    (h : reader.run c = .ok value d) : (reader >>= next).run c = (next value).run d := by
  show EStateM.bind reader next c = (next value).run d
  rw [EStateM.bind, show reader c = .ok value d from h]
  rfl

/-- What was read can be given back. -/
theorem giveBack_toCursor (h : s.Precedes t) : (giveBack s.cursor).run t.toCursor = .ok () s.toCursor := by
  show EStateM.Result.ok () (⟨t.text, s.cursor⟩ : Cursor) = .ok () ⟨s.text, s.cursor⟩
  rw [h.text_eq]

/-- **Step.** What stands at the offset of a scanner is its next character. -/
theorem peek_toCursor (s : Scanner) : peek.run s.toCursor = .ok s.peek? s.toCursor := by
  have hafter : Fault.after s.text s.cursor = .ok s.remaining := by
    have h := Fault.after_append s.readSoFar s.remaining
    rwa [Scanner.readSoFar, Scanner.remaining, ← String.ofList_append, Text.byteSize_ofList] at h
  show EStateM.bind (require (Fault.after s.text s.cursor)) _ s.toCursor = _
  rw [hafter]
  show EStateM.Result.ok s.remaining.toList.head? s.toCursor = _
  rw [Scanner.remaining, String.toList_ofList, Scanner.peek?]

theorem past_toCursor {next : Char} {rest : List Char} (h : s.rest = next :: rest) :
    s.toCursor.past next = s.skip.toCursor := by
  obtain ⟨passed, _⟩ := s
  subst h
  simp [Scanner.toCursor, past, Scanner.skip, Scanner.text, Scanner.chars, Scanner.cursor]

theorem read_toCursor (s : Scanner) : read.run s.toCursor = .ok s.peek? s.skip.toCursor := by
  rw [read, bind_of_ok (peek_toCursor s)]
  obtain ⟨passed, _ | ⟨next, rest⟩⟩ := s
  · rfl
  · show EStateM.Result.ok (some next) ((⟨passed, next :: rest⟩ : Scanner).toCursor.past next) = _
    rw [past_toCursor rfl]
    rfl

/-! ## Runs of characters -/

theorem skipWhileFrom_of_peek {c d : Cursor} {next : Option Char} (h : peek.run c = .ok next d) (p : Char → Bool) :
    skipWhileFrom p c = match next with
      | none => .ok () d
      | some next => if p next then skipWhileFrom p (d.past next) else .ok () d := by
  rw [skipWhileFrom.eq_def]
  split
  · next next' d' h' =>
    obtain ⟨rfl, rfl⟩ := EStateM.Result.ok.inj (h.symm.trans h')
    rfl
  · next d' h' =>
    obtain ⟨rfl, rfl⟩ := EStateM.Result.ok.inj (h.symm.trans h')
    rfl
  · next h' => cases h.symm.trans h'

theorem skipWhile_toCursor (p : Char → Bool) (s : Scanner) :
    (skipWhile p).run s.toCursor = .ok () (s.skipWhile p).toCursor := by
  show skipWhileFrom p s.toCursor = _
  obtain ⟨passed, rest⟩ := s
  induction rest generalizing passed with
  | nil =>
    rw [skipWhileFrom_of_peek (peek_toCursor _), Scanner.skipWhile, List.takeWhile_nil, List.append_nil]
    rfl
  | cons next rest ih =>
    rw [skipWhileFrom_of_peek (peek_toCursor _)]
    show (if p next then skipWhileFrom p ((⟨passed, next :: rest⟩ : Scanner).toCursor.past next) else _) = _
    rw [past_toCursor rfl, Scanner.skip, ih]
    split
    · next hp => simp [Scanner.skipWhile, hp]
    · next hp => simp [Scanner.skipWhile, hp]

theorem readRun_toCursor (p : Char → Bool) (s : Scanner) :
    (readRun p).run s.toCursor = .ok (String.ofList (s.rest.takeWhile p)) (s.skipWhile p).toCursor := by
  have hslice : Fault.slice (s.skipWhile p).text s.cursor (s.skipWhile p).cursor
      = .ok (String.ofList (s.rest.takeWhile p)) := by
    have h := Fault.slice_append (String.ofList s.passed) (String.ofList (s.rest.takeWhile p))
      (String.ofList (s.rest.dropWhile p))
    rwa [← String.ofList_append, ← String.ofList_append, Text.byteSize_ofList, Text.byteSize_ofList] at h
  show (skipWhile p >>= fun _ => since s.cursor).run s.toCursor = _
  rw [bind_of_ok (skipWhile_toCursor p s)]
  show require (Fault.slice (s.skipWhile p).text s.cursor (s.skipWhile p).cursor) _ = _
  rw [hslice]
  rfl

/-- A run that is empty leaves the scanner where it is. -/
theorem skipWhile_eq_self {p : Char → Bool} (h : s.rest.takeWhile p = []) : s.skipWhile p = s := by
  have hrest : s.rest.takeWhile p ++ s.rest.dropWhile p = s.rest := List.takeWhile_append_dropWhile
  rw [h, List.nil_append] at hrest
  rw [Scanner.skipWhile, h, hrest, List.append_nil]

theorem agrees_readNumber (kind : NumberKind) (read? : List Char → Option α) (s : Scanner) :
    (readNumber kind read?).Agrees s (s.readNumber kind read?) := by
  unfold Reader.Agrees
  show (readRun isNumberChar >>= _).run s.toCursor = _
  rw [bind_of_ok (readRun_toCursor isNumberChar s)]
  unfold Scanner.readNumber
  dsimp only
  by_cases hdigits : s.rest.takeWhile isNumberChar = []
  · rw [skipWhile_eq_self hdigits, hdigits, if_pos rfl, if_pos rfl]
    rfl
  · have hne : String.ofList (s.rest.takeWhile isNumberChar) ≠ "" := by
      intro h
      exact hdigits (by simpa using congrArg String.toList h)
    rw [if_neg hdigits, if_neg hne, String.toList_ofList]
    cases read? (s.rest.takeWhile isNumberChar) with
    | some value => rfl
    | none =>
      show (giveBack s.cursor >>= _).run _ = _
      rw [bind_of_ok (giveBack_toCursor (s.precedes_skipWhile isNumberChar))]
      rfl

/-! ## Quoted strings -/

theorem readUntilFrom_of_peek {c d : Cursor} {next : Option Char} (h : peek.run c = .ok next d) (terminator : Char)
    (escaped : Bool) (value : String) :
    readUntilFrom terminator escaped value c = match next with
      | none => (fail .endOfQuoteExpected).run d
      | some next =>
        if escaped then
          if next = terminator ∨ next = Quoted.backslash then
            readUntilFrom terminator false (value.push next) (d.past next)
          else (fail (.invalidEscape next)).run ((d.past next).back next)
        else if next = Quoted.backslash then readUntilFrom terminator true value (d.past next)
        else if next = terminator then .ok (.ok value) (d.past next)
        else readUntilFrom terminator false (value.push next) (d.past next) := by
  rw [readUntilFrom.eq_def]
  split
  · next next' d' h' =>
    obtain ⟨rfl, rfl⟩ := EStateM.Result.ok.inj (h.symm.trans h')
    rfl
  · next d' h' =>
    obtain ⟨rfl, rfl⟩ := EStateM.Result.ok.inj (h.symm.trans h')
    rfl
  · next h' => cases h.symm.trans h'

/-- A step back in front of the character that was passed. -/
theorem back_past (c : Cursor) (next : Char) : (c.past next).back next = c := by
  obtain ⟨text, offset⟩ := c
  simp [past, back]

/-- One turn of the loop. -/
theorem readUntilFrom_cons (terminator : Char) (escaped : Bool) (value : String) (passed : List Char) (next : Char)
    (rest : List Char) :
    readUntilFrom terminator escaped value (⟨passed, next :: rest⟩ : Scanner).toCursor
      = if escaped then
          if next = terminator ∨ next = Quoted.backslash then
            readUntilFrom terminator false (value.push next) (⟨passed ++ [next], rest⟩ : Scanner).toCursor
          else (fail (.invalidEscape next)).run (⟨passed, next :: rest⟩ : Scanner).toCursor
        else if next = Quoted.backslash then
          readUntilFrom terminator true value (⟨passed ++ [next], rest⟩ : Scanner).toCursor
        else if next = terminator then .ok (.ok value) (⟨passed ++ [next], rest⟩ : Scanner).toCursor
        else readUntilFrom terminator false (value.push next) (⟨passed ++ [next], rest⟩ : Scanner).toCursor := by
  rw [readUntilFrom_of_peek (peek_toCursor _)]
  dsimp only [Scanner.peek?, List.head?_cons]
  rw [back_past, past_toCursor rfl]
  rfl

theorem readUntilFrom_nil (terminator : Char) (escaped : Bool) (value : String) (passed : List Char) :
    readUntilFrom terminator escaped value (⟨passed, []⟩ : Scanner).toCursor
      = (fail .endOfQuoteExpected).run (⟨passed, []⟩ : Scanner).toCursor := by
  rw [readUntilFrom_of_peek (peek_toCursor _)]
  rfl

/-- What a scanner comes to that has read `value` so far, when what is ahead reads as told. -/
def closing (value : String) (s : Scanner) : Quoted.Reading → Scanned String
  | .closed more rest => .ok (value ++ String.ofList more) (s.advanceTo rest)
  | .badEscape escaped rest => .error ((s.advanceTo rest).error (.invalidEscape escaped)) (s.advanceTo rest)
  | .unclosed => .error (s.toEnd.error .endOfQuoteExpected) s.toEnd

theorem closing_cons (value : String) (next : Char) (s : Scanner) (r : Quoted.Reading) :
    closing value s (r.cons next) = closing (value.push next) s r := by
  cases r with
  | closed more rest =>
    have hvalue : value ++ String.ofList (next :: more) = value.push next ++ String.ofList more := by
      rw [← String.toList_inj]
      simp
    rw [Quoted.Reading.cons, closing, closing, hvalue]
  | badEscape escaped rest => rfl
  | unclosed => rfl

/-- Passing a character first makes no difference to where reading ends. -/
theorem closing_skip {passed cs : List Char} {r : Quoted.Reading} (h : r.rest <:+ cs) (value : String) (next : Char) :
    closing value ⟨passed, next :: cs⟩ r = closing value ⟨passed ++ [next], cs⟩ r := by
  have hadvance : ∀ rest, rest <:+ cs →
      (⟨passed, next :: cs⟩ : Scanner).advanceTo rest = (⟨passed ++ [next], cs⟩ : Scanner).advanceTo rest := by
    rintro rest ⟨taken, rfl⟩
    rw [← List.cons_append, Scanner.advanceTo_append, Scanner.advanceTo_append, List.append_assoc]
    rfl
  cases r with
  | closed more rest => rw [closing, closing, hadvance rest h]
  | badEscape escaped rest => rw [closing, closing, hadvance rest h]
  | unclosed =>
    rw [closing, closing, Scanner.toEnd, Scanner.toEnd, List.append_assoc]
    rfl

/-- **Run.** From where no backslash came last, the loop comes to what is told by the text ahead. -/
theorem readUntilFrom_toCursor (terminator : Char) (value : String) (passed rest : List Char) :
    readUntilFrom terminator false value (⟨passed, rest⟩ : Scanner).toCursor
      = .ok (closing value ⟨passed, rest⟩ (Quoted.readUntil terminator rest)).result
          (closing value ⟨passed, rest⟩ (Quoted.readUntil terminator rest)).scanner.toCursor := by
  fun_induction Quoted.readUntil terminator rest generalizing passed value with
  | case1 =>
    rw [readUntilFrom_nil, closing, Scanner.toEnd, List.append_nil]
    rfl
  | case2 =>
    rw [readUntilFrom_cons, if_neg Bool.false_ne_true, if_pos rfl, readUntilFrom_nil]
    rfl
  | case3 d ds hmay ih =>
    -- Two turns: over the backslash, and over the character that it stands before.
    rw [readUntilFrom_cons, if_neg Bool.false_ne_true, if_pos rfl, readUntilFrom_cons, if_pos rfl, if_pos hmay, ih,
      closing_cons]
    have hsuffix := Quoted.rest_readUntil_suffix terminator ds
    rw [closing_skip (hsuffix.trans (List.suffix_cons d ds)), closing_skip hsuffix]
  | case4 d ds hmay =>
    -- The step back leads in front of the character behind the backslash.
    have hstop : (⟨passed, Quoted.backslash :: d :: ds⟩ : Scanner).advanceTo (d :: ds)
        = ⟨passed ++ [Quoted.backslash], d :: ds⟩ := Scanner.advanceTo_append passed [Quoted.backslash] (d :: ds)
    rw [readUntilFrom_cons, if_neg Bool.false_ne_true, if_pos rfl, readUntilFrom_cons, if_pos rfl, if_neg hmay, closing,
      hstop]
    rfl
  | case5 cs hne =>
    have hstop : (⟨passed, terminator :: cs⟩ : Scanner).advanceTo cs = ⟨passed ++ [terminator], cs⟩ :=
      Scanner.advanceTo_append passed [terminator] cs
    rw [readUntilFrom_cons, if_neg Bool.false_ne_true, if_neg hne, if_pos rfl, closing, hstop, String.ofList_nil,
      String.append_empty]
    rfl
  | case6 c cs hbackslash hterminator ih =>
    rw [readUntilFrom_cons, if_neg Bool.false_ne_true, if_neg hbackslash, if_neg hterminator, ih, closing_cons,
      closing_skip (Quoted.rest_readUntil_suffix terminator cs)]

theorem agrees_readUntil (terminator : Char) (s : Scanner) :
    (readUntil terminator).Agrees s (s.readUntil terminator) := by
  have hclosing : s.readUntil terminator = closing "" s (Quoted.readUntil terminator s.rest) := by
    unfold Scanner.readUntil closing
    cases Quoted.readUntil terminator s.rest with
    | closed more rest =>
      dsimp only
      rw [String.empty_append]
    | badEscape escaped rest => rfl
    | unclosed => rfl
  rw [hclosing]
  exact readUntilFrom_toCursor terminator "" s.passed s.rest

/-- A quote is passed first. -/
theorem agrees_opened (quote : Char) (s : Scanner) :
    (read >>= fun _ => readUntil quote).Agrees s (s.skip.readUntil quote) := by
  unfold Reader.Agrees
  rw [bind_of_ok (read_toCursor s)]
  exact agrees_readUntil quote s.skip

theorem agrees_readQuoted (s : Scanner) : readQuoted.Agrees s s.readQuoted := by
  unfold Reader.Agrees
  show (peek >>= _).run s.toCursor = _
  rw [bind_of_ok (peek_toCursor s)]
  unfold Scanner.readQuoted
  cases s.peek? with
  | none => rfl
  | some quote =>
    dsimp only
    split
    · exact agrees_opened quote s
    · rfl

theorem agrees_readString (s : Scanner) : readString.Agrees s s.readString := by
  unfold Reader.Agrees
  show (peek >>= _).run s.toCursor = _
  rw [bind_of_ok (peek_toCursor s)]
  unfold Scanner.readString
  cases s.peek? with
  | none => rfl
  | some quote =>
    dsimp only
    split
    · exact agrees_opened quote s
    · rw [bind_of_ok (readRun_toCursor isWordChar s)]
      rfl

/-! ## Truth values and symbols -/

theorem agrees_readBool (s : Scanner) : readBool.Agrees s s.readBool := by
  unfold Reader.Agrees
  show (readString >>= _).run s.toCursor = _
  rw [bind_of_ok (agrees_readString s)]
  have hprecedes := s.precedes_readString
  unfold Scanner.readBool
  cases hread : s.readString with
  | error e t => rfl
  | ok value t =>
    rw [hread] at hprecedes
    simp only [Scanned.result, Scanned.scanner_ok]
    split
    · rfl
    · split
      · rfl
      · split
        · rfl
        · have hback : (giveBack s.cursor).run t.toCursor = .ok () s.toCursor := giveBack_toCursor hprecedes
          show (giveBack s.cursor >>= fun _ => fail _).run t.toCursor = _
          rw [bind_of_ok hback]
          rfl

theorem agrees_expect (symbol : Char) (s : Scanner) : (expect symbol).Agrees s (s.expect symbol) := by
  unfold Reader.Agrees
  show (peek >>= _).run s.toCursor = _
  rw [bind_of_ok (peek_toCursor s)]
  unfold Scanner.expect
  have hiff : s.nextIs symbol = true ↔ s.peek? = some symbol := beq_iff_eq
  by_cases hnext : s.peek? = some symbol
  · rw [if_pos hnext, if_pos (hiff.mpr hnext), bind_of_ok (read_toCursor s)]
    rfl
  · rw [if_neg hnext, if_neg (mt hiff.mp hnext)]
    rfl

end Cursor

end CommandGrammar
