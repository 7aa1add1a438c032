import CommandGrammar.Argument

/-!
# `Proofs.Quoting` — a string that was written is read back

A string is written as it is where it holds word characters only, and otherwise in double quotes with its quotes and
backslashes escaped. The reader undoes both, at any place of a text, as long as no further character of the text
could belong to the string:

* `Quoted.readUntil_escape` — reading up to a terminator undoes escaping, and takes the terminator along;
* `Scanner.readString_word`, `Scanner.readString_quoted` — the two forms on a scanner;
* `Scanner.readString_encode` — the two together, for the writer that chooses between them.
-/

namespace CommandGrammar

/-! ## Plain lists of characters -/

namespace Quoted

theorem readUntil_terminator {t : Char} (ht : t ≠ backslash) (rest : List Char) :
    readUntil t (t :: rest) = .closed [] rest := by
  rw [readUntil.eq_def]
  simp [ht]

theorem readUntil_plain {t c : Char} (hc : c ≠ t) (hbackslash : c ≠ backslash) (rest : List Char) :
    readUntil t (c :: rest) = (readUntil t rest).cons c := by
  rw [readUntil.eq_def]
  simp [hc, hbackslash]

theorem readUntil_escaped {t c : Char} (hc : c = t ∨ c = backslash) (rest : List Char) :
    readUntil t (backslash :: c :: rest) = (readUntil t rest).cons c := by
  rw [readUntil, if_pos rfl, if_pos hc]

/-- **Reading undoes escaping.** What stands behind the terminator is left. -/
theorem readUntil_escape {t : Char} (ht : t ≠ backslash) (cs rest : List Char) :
    readUntil t (escape t cs ++ t :: rest) = .closed cs rest := by
  induction cs with
  | nil => exact readUntil_terminator ht rest
  | cons c cs ih =>
    by_cases h : c = t ∨ c = backslash
    · rw [escape, if_pos h, List.cons_append, List.cons_append, readUntil_escaped h, ih, Reading.cons]
    · obtain ⟨hc, hbackslash⟩ := not_or.mp h
      rw [escape, if_neg h, List.cons_append, readUntil_plain hc hbackslash, ih, Reading.cons]

theorem isQuote_of_isWordChar {c : Char} (h : isWordChar c) : isQuote c = false := by
  unfold isQuote
  by_cases hdouble : c = '"'
  · subst hdouble
    exact absurd h (by decide)
  · by_cases hsingle : c = '\''
    · subst hsingle
      exact absurd h (by decide)
    · simp [hdouble, hsingle]

theorem encode_of_all {text : String} (h : text.toList.all isWordChar) : encode text = text := if_pos h

theorem toList_encode_of_not_all {text : String} (h : ¬ text.toList.all isWordChar) :
    (encode text).toList = '"' :: (escape '"' text.toList ++ ['"']) := by
  rw [encode, if_neg h, String.toList_ofList, List.cons_append]

/-- Only the empty string is written as nothing. -/
theorem toList_encode_eq_nil_iff {text : String} : (encode text).toList = [] ↔ text = "" := by
  by_cases h : text.toList.all isWordChar
  · rw [encode_of_all h, String.toList_eq_nil_iff]
  · rw [toList_encode_of_not_all h]
    refine iff_of_false (by simp) ?_
    rintro rfl
    exact h rfl

end Quoted

/-! ## Scanners -/

namespace Scanner

theorem advanceTo_append (passed taken rest : List Char) :
    (⟨passed, taken ++ rest⟩ : Scanner).advanceTo rest = ⟨passed ++ taken, rest⟩ := by
  simp [advanceTo]

theorem skipWhile_append {p : Char → Bool} {taken rest : List Char} (htaken : ∀ c ∈ taken, p c)
    (hrest : ∀ c ∈ rest.head?, p c = false) (passed : List Char) :
    (⟨passed, taken ++ rest⟩ : Scanner).skipWhile p = ⟨passed ++ taken, rest⟩ ∧
      (taken ++ rest).takeWhile p = taken := by
  have hstop : rest.takeWhile p = [] := by
    cases rest with
    | nil => rfl
    | cons c rest => rw [List.takeWhile_cons_of_neg (by simp [hrest c rfl])]
  have hdrop : rest.dropWhile p = rest := by
    cases rest with
    | nil => rfl
    | cons c rest => rw [List.dropWhile_cons_of_neg (by simp [hrest c rfl])]
  have htake : (taken ++ rest).takeWhile p = taken := by
    rw [List.takeWhile_append_of_pos htaken, hstop, List.append_nil]
  refine ⟨?_, htake⟩
  rw [skipWhile, htake, List.dropWhile_append_of_pos htaken, hdrop]

/-- A word is read to its end. -/
theorem readWord_append {word rest : List Char} (hword : ∀ c ∈ word, isWordChar c)
    (hrest : ∀ c ∈ rest.head?, isWordChar c = false) (passed : List Char) :
    (⟨passed, word ++ rest⟩ : Scanner).readWord = (String.ofList word, ⟨passed ++ word, rest⟩) := by
  obtain ⟨hskip, htake⟩ := skipWhile_append hword hrest passed
  rw [readWord, hskip, htake]

/-- A string of word characters is read to its end: neither they nor what follows them opens quotes. -/
theorem readString_word {word rest : List Char} (hword : ∀ c ∈ word, isWordChar c)
    (hrest : ∀ c ∈ rest.head?, c = separator) (passed : List Char) :
    (⟨passed, word ++ rest⟩ : Scanner).readString = .ok (String.ofList word) ⟨passed ++ word, rest⟩ := by
  have hstop : ∀ c ∈ rest.head?, isWordChar c = false := by
    intro c hc
    rw [hrest c hc]
    decide
  have hread := readWord_append hword hstop passed
  unfold readString
  split
  · next hpeek =>
    obtain ⟨rfl, rfl⟩ := List.append_eq_nil_iff.mp (List.head?_eq_none_iff.mp hpeek)
    simp
  · next quote hpeek =>
    have hquote : Quoted.isQuote quote = false := by
      have hhead : (word ++ rest).head? = some quote := hpeek
      rw [List.head?_append, Option.or_eq_some_iff] at hhead
      rcases hhead with hfirst | ⟨_, hfirst⟩
      · exact Quoted.isQuote_of_isWordChar (hword quote (List.mem_of_head? hfirst))
      · rw [hrest quote hfirst]
        decide
    rw [hquote, hread]
    rfl

/-- A string in double quotes is read up to the quote that closes it. -/
theorem readString_quoted (text rest passed : List Char) :
    (⟨passed, '"' :: (Quoted.escape '"' text ++ '"' :: rest)⟩ : Scanner).readString
      = .ok (String.ofList text) ⟨passed ++ '"' :: (Quoted.escape '"' text ++ ['"']), rest⟩ := by
  have hclosed := Quoted.readUntil_escape (t := '"') (by decide) text rest
  have hadvance := advanceTo_append (passed ++ ['"']) (Quoted.escape '"' text ++ ['"']) rest
  rw [List.append_assoc, List.singleton_append, List.append_assoc, List.singleton_append] at hadvance
  simp only [readString, peek?, List.head?_cons]
  rw [if_pos (by decide), skip, readUntil, hclosed]
  exact congrArg (Scanned.ok _) hadvance

/-- **What was written is read back**, at any place of a text where it stands in front of a separator or at the
    end. -/
theorem readString_encode (text : String) (passed : List Char) {rest : List Char}
    (hrest : ∀ c ∈ rest.head?, c = separator) :
    (⟨passed, (Quoted.encode text).toList ++ rest⟩ : Scanner).readString
      = .ok text ⟨passed ++ (Quoted.encode text).toList, rest⟩ := by
  by_cases hplain : text.toList.all isWordChar
  · rw [Quoted.encode_of_all hplain, readString_word (List.all_eq_true.mp hplain) hrest, String.ofList_toList]
  · have hquoted := readString_quoted text.toList rest passed
    rw [String.ofList_toList] at hquoted
    rw [Quoted.toList_encode_of_not_all hplain]
    simpa using hquoted

end Scanner

end CommandGrammar
