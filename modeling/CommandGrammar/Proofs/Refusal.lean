import CommandGrammar.Proofs.Escapes
import CommandGrammar.Proofs.Numerals

/-!
# `Proofs.Refusal` — where a truth value that is refused leaves the scanner

A truth value is read as a string, with quotes or without, and judged afterwards. A string that was read and is no
truth value is given back: the scanner stands in front of it again. But the reader of quoted strings has moved the
scanner when it gives up, and two quotes with nothing in between are taken for a value that is missing *behind* them.

* `Scanner.readString_of_unquoted`, `Scanner.readString_of_quote` — the two forms of a string;
* `Scanner.RefusesBool` — the ways of being refused, told by the text, with the error and where the scanner stands;
* `Scanner.readBool_eq_error_iff` — there are exactly these;
* `Scanner.OpensInVain` — a quote opens a string that is empty or that never comes to an end;
* `ArgumentType.bool_restores_place_iff` — the scanner is back at its place exactly when no quote opens in vain.
-/

namespace CommandGrammar

namespace Scanner

variable {s t u : Scanner} {e : Error} {value : String} {quote c : Char} {cs : List Char} {i : Nat}

/-! ## Strings without quotes and with them -/

/-- No quote stands at the place of the scanner. -/
def Unquoted (s : Scanner) : Prop := ∀ c ∈ s.peek?, Quoted.isQuote c = false

theorem ne_backslash_of_isQuote (h : Quoted.isQuote quote) : quote ≠ Quoted.backslash := by
  rintro rfl
  exact absurd h (by decide)

theorem exists_quote_of_not_unquoted (h : ¬ s.Unquoted) : ∃ quote cs, Quoted.isQuote quote ∧ s.rest = quote :: cs := by
  obtain ⟨passed, rest⟩ := s
  cases rest with
  | nil => exact absurd (fun c hc => nomatch hc) h
  | cons quote cs =>
    refine ⟨quote, cs, ?_, rfl⟩
    by_contra hquote
    refine h fun c hc => ?_
    obtain rfl : quote = c := Option.some.inj hc
    simpa using hquote

theorem not_unquoted_of_quote (hquote : Quoted.isQuote quote) (hrest : s.rest = quote :: cs) : ¬ s.Unquoted := by
  intro h
  have hnone : Quoted.isQuote quote = false := h quote (by rw [peek?, hrest]; rfl)
  rw [hquote] at hnone
  cases hnone

theorem readString_of_unquoted (h : s.Unquoted) : s.readString = .ok s.readWord.1 s.readWord.2 := by
  obtain ⟨passed, rest⟩ := s
  cases rest with
  | nil => simp [readString, peek?, readWord, skipWhile]
  | cons c cs =>
    have hc : Quoted.isQuote c = false := h c rfl
    simp [readString, peek?, hc]

theorem readString_of_quote (hquote : Quoted.isQuote quote) (hrest : s.rest = quote :: cs) :
    s.readString = s.skip.readUntil quote := by
  simp [readString, peek?, hrest, hquote]

/-- Without a word character the scanner stays. -/
theorem readWord_eq_self (h : s.readWord.1 = "") : s.readWord.2 = s := by
  have hnone : s.rest.takeWhile isWordChar = [] := by simpa [readWord] using h
  have hall : s.rest.dropWhile isWordChar = s.rest := by
    have hsplit : s.rest.takeWhile isWordChar ++ s.rest.dropWhile isWordChar = s.rest :=
      List.takeWhile_append_dropWhile
    rwa [hnone, List.nil_append] at hsplit
  rw [readWord, skipWhile, hnone, hall, List.append_nil]

/-! ## Places behind the first character -/

theorem rest_skip (h : s.rest = c :: cs) : s.skip.rest = cs := by
  obtain ⟨passed, _⟩ := s
  subst h
  rfl

theorem advance_succ (h : s.rest = c :: cs) (i : Nat) : s.advance (i + 1) = s.skip.advance i := by
  obtain ⟨passed, _⟩ := s
  subst h
  simp [advance, skip]

theorem toEnd_skip (s : Scanner) : s.skip.toEnd = s.toEnd := by
  obtain ⟨passed, rest⟩ := s
  cases rest <;> simp [toEnd, skip]

/-- Moving past characters that are there moves the cursor. -/
theorem cursor_lt_advance (h : s.rest = c :: cs) (i : Nat) : s.cursor < (s.advance (i + 1)).cursor := by
  have hpos := c.utf8Size_pos
  simp only [cursor, advance, h, List.take_succ_cons, Text.size_append, Text.size_cons]
  omega

theorem cursor_lt_toEnd (h : s.rest = c :: cs) : s.cursor < s.toEnd.cursor := by
  have hpos := c.utf8Size_pos
  simp only [cursor, toEnd, h, Text.size_append, Text.size_cons]
  omega

/-! ## What becomes of a string that was read -/

theorem readBool_of_error (h : s.readString = .error e t) : s.readBool = .error e t := by
  rw [readBool, h]

/-- A string that was read is refused when it is empty, behind it, or another word than the two, in front of it. -/
theorem readBool_eq_error_iff_of_ok (h : s.readString = .ok value u) :
    s.readBool = .error e t ↔ value = "" ∧ e = u.error .boolExpected ∧ t = u ∨
      value ∉ ["", "true", "false"] ∧ e = s.error (.invalidBool value) ∧ t = s := by
  rw [readBool, h]
  dsimp only
  by_cases hempty : value = ""
  · rw [if_pos hempty, Scanned.error.injEq]
    constructor
    · rintro ⟨rfl, rfl⟩
      exact .inl ⟨hempty, rfl, rfl⟩
    · rintro (⟨_, rfl, rfl⟩ | ⟨hother, _⟩)
      · exact ⟨rfl, rfl⟩
      · exact absurd (hempty ▸ List.mem_cons_self) hother
  · rw [if_neg hempty]
    by_cases htrue : value = "true"
    · simp [htrue]
    · rw [if_neg htrue]
      by_cases hfalse : value = "false"
      · simp [hfalse]
      · rw [if_neg hfalse, Scanned.error.injEq]
        simp [hempty, htrue, hfalse, eq_comm]

/-! ## The ways of being refused -/

/-- **How a truth value is refused**, told by the text: with which error, and where the scanner stands then. -/
inductive RefusesBool (s : Scanner) : Error → Scanner → Prop where
  /-- Neither a word nor a quote stands there. -/
  | missing (hplain : s.Unquoted) (h : s.readWord.1 = "") : RefusesBool s (s.error .boolExpected) s
  /-- Another word stands there. -/
  | word (hplain : s.Unquoted) (h : s.readWord.1 ∉ ["", "true", "false"]) :
    RefusesBool s (s.error (.invalidBool s.readWord.1)) s
  /-- Another string stands there in quotes. -/
  | string {quote : Char} {value : String} {rest : List Char} (hquote : Quoted.isQuote quote)
      (hrest : s.rest = quote :: (Quoted.escape quote value.toList ++ quote :: rest))
      (h : value ∉ ["", "true", "false"]) :
    RefusesBool s (s.error (.invalidBool value)) s
  /-- Two quotes stand there with nothing in between; the scanner stops behind them. -/
  | empty {quote : Char} {rest : List Char} (hquote : Quoted.isQuote quote) (hrest : s.rest = quote :: quote :: rest) :
    RefusesBool s ((s.advance 2).error .boolExpected) (s.advance 2)
  /-- A quote stands there and a backslash behind it is misused; the scanner stops on the character that is. -/
  | misused {quote c : Char} {cs : List Char} {i : Nat} (hquote : Quoted.isQuote quote) (hrest : s.rest = quote :: cs)
      (h : Quoted.FirstMisused quote cs i c) :
    RefusesBool s ((s.advance (i + 1)).error (.invalidEscape c)) (s.advance (i + 1))
  /-- A quote stands there and nothing ends the string that it opens; the scanner stops at the end of the text. -/
  | unclosed {quote : Char} {cs : List Char} (hquote : Quoted.isQuote quote) (hrest : s.rest = quote :: cs)
      (hclosed : ∀ value rest, cs ≠ Quoted.escape quote value ++ quote :: rest)
      (hmisused : ∀ i c, ¬ Quoted.FirstMisused quote cs i c) :
    RefusesBool s (s.toEnd.error .endOfQuoteExpected) s.toEnd

/-- A quote opens a string that is closed, or one in which a backslash is misused, or one without an end. -/
theorem opened_cases (quote : Char) (cs : List Char) :
    (∃ (value : String) (rest : List Char), cs = Quoted.escape quote value.toList ++ quote :: rest) ∨
      (∃ i c, Quoted.FirstMisused quote cs i c) ∨
      (∀ value rest, cs ≠ Quoted.escape quote value ++ quote :: rest) ∧ ∀ i c, ¬ Quoted.FirstMisused quote cs i c := by
  by_cases hclosed : ∃ value rest, cs = Quoted.escape quote value ++ quote :: rest
  · obtain ⟨value, rest, heq⟩ := hclosed
    exact .inl ⟨String.ofList value, rest, by rw [String.toList_ofList, heq]⟩
  · by_cases hmisused : ∃ i c, Quoted.FirstMisused quote cs i c
    · exact .inr (.inl hmisused)
    · push Not at hclosed hmisused
      exact .inr (.inr ⟨hclosed, hmisused⟩)

/-- A string in quotes is read with the quotes. -/
theorem readString_of_closed {rest : List Char} (hquote : Quoted.isQuote quote)
    (hrest : s.rest = quote :: (Quoted.escape quote value.toList ++ quote :: rest)) :
    s.readString = .ok value ⟨s.skip.passed ++ (Quoted.escape quote value.toList ++ [quote]), rest⟩ := by
  rw [readString_of_quote hquote hrest]
  exact (readUntil_eq_ok_iff (ne_backslash_of_isQuote hquote)).mpr ⟨rest, rest_skip hrest, rfl⟩

theorem readString_of_empty {rest : List Char} (hquote : Quoted.isQuote quote)
    (hrest : s.rest = quote :: quote :: rest) : s.readString = .ok "" (s.advance 2) := by
  have hescaped : s.rest = quote :: (Quoted.escape quote "".toList ++ quote :: rest) := hrest
  rw [readString_of_closed hquote hescaped]
  obtain ⟨passed, _⟩ := s
  subst hrest
  simp [skip, advance, Quoted.escape]

theorem readString_of_misused (hquote : Quoted.isQuote quote) (hrest : s.rest = quote :: cs)
    (h : Quoted.FirstMisused quote cs i c) :
    s.readString = .error ((s.advance (i + 1)).error (.invalidEscape c)) (s.advance (i + 1)) := by
  rw [readString_of_quote hquote hrest, advance_succ hrest]
  exact readUntil_of_firstMisused (ne_backslash_of_isQuote hquote) (rest_skip hrest ▸ h)

theorem readString_of_unclosed (hquote : Quoted.isQuote quote) (hrest : s.rest = quote :: cs)
    (hclosed : ∀ value rest, cs ≠ Quoted.escape quote value ++ quote :: rest)
    (hmisused : ∀ i c, ¬ Quoted.FirstMisused quote cs i c) :
    s.readString = .error (s.toEnd.error .endOfQuoteExpected) s.toEnd := by
  rw [readString_of_quote hquote hrest, readUntil, rest_skip hrest,
    Quoted.readUntil_eq_unclosed (ne_backslash_of_isQuote hquote) hclosed hmisused, toEnd_skip]

/-- Where no quote stands, the word that was read decides. -/
theorem refusesBool_of_unquoted (hplain : s.Unquoted) (h : s.readBool = .error e t) : s.RefusesBool e t := by
  rcases (readBool_eq_error_iff_of_ok (readString_of_unquoted hplain)).mp h with
    ⟨hempty, rfl, rfl⟩ | ⟨hother, rfl, rfl⟩
  · rw [readWord_eq_self hempty]
    exact .missing hplain hempty
  · exact .word hplain hother

/-- Where a quote stands, it matters how the string that it opens ends, and, where it is closed, what it holds. -/
theorem refusesBool_of_quote (hquote : Quoted.isQuote quote) (hrest : s.rest = quote :: cs)
    (h : s.readBool = .error e t) : s.RefusesBool e t := by
  rcases opened_cases quote cs with ⟨value, rest, rfl⟩ | ⟨i, c, hfirst⟩ | ⟨hopen, hright⟩
  · by_cases hempty : value = ""
    · subst hempty
      rcases (readBool_eq_error_iff_of_ok (readString_of_empty hquote hrest)).mp h with
        ⟨_, rfl, rfl⟩ | ⟨hother, _, _⟩
      · exact .empty hquote hrest
      · exact absurd List.mem_cons_self hother
    · rcases (readBool_eq_error_iff_of_ok (readString_of_closed hquote hrest)).mp h with
        ⟨hempty', _, _⟩ | ⟨hother, rfl, rfl⟩
      · exact absurd hempty' hempty
      · exact .string hquote hrest hother
  · rw [readBool_of_error (readString_of_misused hquote hrest hfirst)] at h
    cases h
    exact .misused hquote hrest hfirst
  · rw [readBool_of_error (readString_of_unclosed hquote hrest hopen hright)] at h
    cases h
    exact .unclosed hquote hrest hopen hright

/-- **A truth value is refused in exactly these ways.** -/
theorem readBool_eq_error_iff : s.readBool = .error e t ↔ s.RefusesBool e t := by
  constructor
  · intro h
    by_cases hplain : s.Unquoted
    · exact refusesBool_of_unquoted hplain h
    · obtain ⟨quote, cs, hquote, hrest⟩ := exists_quote_of_not_unquoted hplain
      exact refusesBool_of_quote hquote hrest h
  · intro h
    cases h with
    | missing hplain h =>
      have hstring := readString_of_unquoted hplain
      rw [readWord_eq_self h] at hstring
      exact (readBool_eq_error_iff_of_ok hstring).mpr (.inl ⟨h, rfl, rfl⟩)
    | word hplain h => exact (readBool_eq_error_iff_of_ok (readString_of_unquoted hplain)).mpr (.inr ⟨h, rfl, rfl⟩)
    | string hquote hrest h =>
      exact (readBool_eq_error_iff_of_ok (readString_of_closed hquote hrest)).mpr (.inr ⟨h, rfl, rfl⟩)
    | empty hquote hrest =>
      exact (readBool_eq_error_iff_of_ok (readString_of_empty hquote hrest)).mpr (.inl ⟨rfl, rfl, rfl⟩)
    | misused hquote hrest h => exact readBool_of_error (readString_of_misused hquote hrest h)
    | unclosed hquote hrest hopen hmisused =>
      exact readBool_of_error (readString_of_unclosed hquote hrest hopen hmisused)

/-! ## Quotes that open in vain -/

/-- A quote stands at the place of the scanner, and it opens a string that is empty or that nothing closes. -/
def OpensInVain (s : Scanner) : Prop :=
  ∃ quote cs, Quoted.isQuote quote ∧ s.rest = quote :: cs ∧
    ∀ value rest, cs = Quoted.escape quote value ++ quote :: rest → value = []

/-- **The scanner is back at its place exactly when no quote opens in vain**; otherwise it stands further on. -/
theorem RefusesBool.place (h : s.RefusesBool e t) :
    ¬ s.OpensInVain ∧ t = s ∨ s.OpensInVain ∧ s.cursor < t.cursor ∧ t.text = s.text := by
  have hplain : s.Unquoted → ¬ s.OpensInVain := by
    rintro hplain ⟨quote, cs, hquote, hrest, _⟩
    exact not_unquoted_of_quote hquote hrest hplain
  cases h with
  | missing h _ => exact .inl ⟨hplain h, rfl⟩
  | word h _ => exact .inl ⟨hplain h, rfl⟩
  | @string quote value rest hquote hrest h =>
    refine .inl ⟨?_, rfl⟩
    rintro ⟨quote', cs, _, hrest', hvain⟩
    obtain ⟨rfl, rfl⟩ := List.cons.inj (hrest.symm.trans hrest')
    have hempty : value = "" := String.toList_eq_nil_iff.mp (hvain value.toList rest rfl)
    exact h (hempty ▸ List.mem_cons_self)
  | @empty quote rest hquote hrest =>
    refine .inr ⟨⟨quote, quote :: rest, hquote, hrest, ?_⟩, cursor_lt_advance hrest 1, (s.precedes_advance 2).text_eq⟩
    -- Nothing but the empty string is closed by a quote that comes at once.
    intro value rest' heq
    have hempty : quote :: rest = Quoted.escape quote [] ++ quote :: rest := rfl
    exact (Quoted.escape_append_inj (ne_backslash_of_isQuote hquote) (hempty.symm.trans heq)).1.symm
  | @misused quote c cs i hquote hrest h =>
    refine .inr ⟨⟨quote, cs, hquote, hrest, ?_⟩, cursor_lt_advance hrest i, (s.precedes_advance (i + 1)).text_eq⟩
    intro value rest heq
    have ht := ne_backslash_of_isQuote hquote
    have hread := (Quoted.readUntil_eq_badEscape_iff ht).mpr ⟨i, h, rfl⟩
    rw [(Quoted.readUntil_eq_closed_iff ht).mpr heq] at hread
    cases hread
  | @unclosed quote cs hquote hrest hopen _ =>
    refine .inr ⟨⟨quote, cs, hquote, hrest, ?_⟩, cursor_lt_toEnd hrest, s.precedes_toEnd.text_eq⟩
    exact fun value rest heq => absurd heq (hopen value rest)

/-- Where a quote opens in vain, a truth value is refused. -/
theorem OpensInVain.exists_refusesBool (h : s.OpensInVain) : ∃ e t, s.RefusesBool e t := by
  obtain ⟨quote, cs, hquote, hrest, hvain⟩ := h
  rcases opened_cases quote cs with ⟨value, rest, rfl⟩ | ⟨i, c, hfirst⟩ | ⟨hopen, hright⟩
  · obtain rfl : value = "" := String.toList_eq_nil_iff.mp (hvain value.toList rest rfl)
    exact ⟨_, _, .empty hquote hrest⟩
  · exact ⟨_, _, .misused hquote hrest hfirst⟩
  · exact ⟨_, _, .unclosed hquote hrest hopen hright⟩

end Scanner

/-! ## Arguments -/

/-- **Where a refused truth value leaves the scanner.** An argument that is a truth value is refused as a truth value
    is, and that is in exactly the ways that `Scanner.RefusesBool` lists. The scanner is then over the same text, and
    its cursor is where it was exactly when no quote opens in vain: nothing, a wrong word and a wrong string in quotes
    are given back. Where a quote opens an empty string, or one that is not closed or misuses a backslash, a truth value
    is always refused, and the cursor is then further on. -/
theorem ArgumentType.bool_restores_place_iff (s : Scanner) :
    (∀ e t, ArgumentType.bool.read s = .error e t ↔ s.readBool = .error e t) ∧
    (∀ e t, s.readBool = .error e t ↔ s.RefusesBool e t) ∧
    (∀ e t, s.readBool = .error e t → t.text = s.text ∧ (t.cursor = s.cursor ↔ ¬ s.OpensInVain)) ∧
    (s.OpensInVain → ∃ e t, s.readBool = .error e t ∧ s.cursor < t.cursor) := by
  have hbool : Function.Injective (Scanned.map Value.bool) := Scanned.map_injective fun _ _ => Value.bool.inj
  have hplace : ∀ e t, s.readBool = .error e t →
      ¬ s.OpensInVain ∧ t = s ∨ s.OpensInVain ∧ s.cursor < t.cursor ∧ t.text = s.text :=
    fun e t hread => (Scanner.readBool_eq_error_iff.mp hread).place
  refine ⟨fun e t => ?_, fun e t => Scanner.readBool_eq_error_iff, fun e t hread => ?_, fun hvain => ?_⟩
  · show s.readBool.map Value.bool = Scanned.map Value.bool (.error e t) ↔ _
    exact hbool.eq_iff
  · rcases hplace e t hread with ⟨hkept, rfl⟩ | ⟨hvain, hlt, htext⟩
    · exact ⟨rfl, iff_of_true rfl hkept⟩
    · exact ⟨htext, iff_of_false (by omega) (not_not_intro hvain)⟩
  · obtain ⟨e, t, hrefused⟩ := hvain.exists_refusesBool
    have hread : s.readBool = .error e t := Scanner.readBool_eq_error_iff.mpr hrefused
    rcases hplace e t hread with ⟨hkept, _⟩ | ⟨_, hlt, _⟩
    · exact absurd hvain hkept
    · exact ⟨e, t, hread, hlt⟩

/-- **A refused truth value can cost its place.** Behind an accented word, a quote that is never closed, a backslash in
    front of a character that may not be escaped, and two quotes with nothing in between: in each case the truth value
    is refused, and the cursor, which stood at 4, does not stand there any more. -/
theorem ArgumentType.bool_passes_open_quote :
    let start (rest : String) : Scanner := ⟨"né ".toList, rest.toList⟩
    let read (rest : String) := (start rest).readBool
    (∀ rest, (start rest).cursor = 4 ∧ ArgumentType.bool.read (start rest) = (read rest).map Value.bool) ∧
      (read "\"tru").result = .error ⟨.endOfQuoteExpected, some ⟨"né \"tru", 8⟩⟩ ∧ (read "\"tru").scanner.cursor = 8 ∧
      (read "'\\true'").result = .error ⟨.invalidEscape 't', some ⟨"né '\\true'", 6⟩⟩ ∧
      (read "'\\true'").scanner.cursor = 6 ∧
      (read "'' x").result = .error ⟨.boolExpected, some ⟨"né '' x", 6⟩⟩ ∧ (read "'' x").scanner.cursor = 6 := by
  intro start read
  exact ⟨fun _ => ⟨rfl, rfl⟩, by decide +kernel⟩

end CommandGrammar
