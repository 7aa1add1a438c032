import CommandGrammar.Proofs.Completion
import CommandGrammar.Proofs.Quoting

/-!
# `Proofs.Escapes` — what the reader of quoted strings accepts

The reader passes one character after the other and only remembers whether the last one was a backslash. What it
does is told here without it: a character of a text is escaped when it stands behind a backslash that is not escaped
itself, and reading ends at the first place where an unescaped terminator or a wrongly escaped character stands.

* `Quoted.Escaped`, `Quoted.ClosesAt`, `Quoted.MisusedAt`, `Quoted.EndsAt` — the places of a text that matter;
* `Quoted.Passed` — characters at which reading goes on, one plain one or a pair with a backslash;
* `Quoted.Reading.Explained` — what each result of reading says about the text, and `explained_readUntil` — that it
  does;
* `Quoted.readUntil_eq_closed_iff`, `readUntil_eq_badEscape_iff`, `readUntil_eq_unclosed_iff` — the results one by
  one, as conditions on the text;
* `Scanner.readUntil_accepts_escapes` — the same for a scanner, with where it stops;
* `ArgumentType.string_reads_encoded` — an argument that was written is read back at any place of a text.
-/

namespace CommandGrammar

namespace Quoted

/-! ## Places of a text -/

/-- The character at a place is escaped: a backslash stands in front of it that is not escaped itself. -/
def Escaped (cs : List Char) : Nat → Prop
  | 0 => False
  | i + 1 => cs[i]? = some backslash ∧ ¬ Escaped cs i

instance Escaped.decidable (cs : List Char) : (i : Nat) → Decidable (Escaped cs i)
  | 0 => inferInstanceAs (Decidable False)
  | i + 1 =>
    have := Escaped.decidable cs i
    inferInstanceAs (Decidable (cs[i]? = some backslash ∧ ¬ Escaped cs i))

/-- A terminator stands at a place and is not escaped. -/
def ClosesAt (t : Char) (cs : List Char) (i : Nat) : Prop := cs[i]? = some t ∧ ¬ Escaped cs i

instance (t : Char) (cs : List Char) (i : Nat) : Decidable (ClosesAt t cs i) :=
  inferInstanceAs (Decidable (_ ∧ _))

/-- The character `c` stands at a place and is escaped, although it is neither the terminator nor a backslash. -/
def MisusedAt (t : Char) (cs : List Char) (i : Nat) (c : Char) : Prop :=
  cs[i]? = some c ∧ Escaped cs i ∧ c ≠ t ∧ c ≠ backslash

instance (t : Char) (cs : List Char) (i : Nat) (c : Char) : Decidable (MisusedAt t cs i c) :=
  inferInstanceAs (Decidable (_ ∧ _))

/-- Reading cannot go past a place. -/
def EndsAt (t : Char) (cs : List Char) (i : Nat) : Prop := ClosesAt t cs i ∨ ∃ c, MisusedAt t cs i c

/-- The first misuse of a backslash: no terminator closes the string and no other character is misused before. -/
structure FirstMisused (t : Char) (cs : List Char) (i : Nat) (c : Char) : Prop where
  /-- The character is misused. -/
  misused : MisusedAt t cs i c
  /-- The string is still open. -/
  isOpen : ∀ j < i, ¬ ClosesAt t cs j
  /-- No character was misused before. -/
  first : ∀ j < i, ∀ d, ¬ MisusedAt t cs j d

variable {t c d : Char} {cs : List Char} {i j : Nat}

theorem escaped_succ : Escaped cs (i + 1) ↔ cs[i]? = some backslash ∧ ¬ Escaped cs i := Iff.rfl

theorem MisusedAt.not_closesAt (h : MisusedAt t cs i c) : ¬ ClosesAt t cs i := fun hcloses => hcloses.2 h.2.1

theorem not_endsAt_of_none (h : cs[i]? = none) : ¬ EndsAt t cs i := by
  rintro (⟨hchar, _⟩ | ⟨c, hchar, _⟩)
  · rw [h] at hchar
    cases hchar
  · rw [h] at hchar
    cases hchar

/-- At the first place only a terminator can end reading, since nothing is escaped there. -/
theorem not_endsAt_zero (hc : c ≠ t) : ¬ EndsAt t (c :: cs) 0 := by
  rintro (⟨hchar, _⟩ | ⟨d, _, hescaped, _⟩)
  · exact hc (Option.some.inj hchar)
  · exact hescaped

theorem FirstMisused.not_endsAt (h : FirstMisused t cs i c) (hj : j < i) : ¬ EndsAt t cs j := by
  rintro (hcloses | ⟨d, hmisused⟩)
  · exact h.isOpen j hj hcloses
  · exact h.first j hj d hmisused

theorem firstMisused_of_not_endsAt (h : MisusedAt t cs i c) (hfirst : ∀ j < i, ¬ EndsAt t cs j) :
    FirstMisused t cs i c where
  misused := h
  isOpen := fun j hj hcloses => hfirst j hj (.inl hcloses)
  first := fun j hj d hmisused => hfirst j hj (.inr ⟨d, hmisused⟩)

/-- There is only one first place at which reading ends. -/
theorem eq_of_first_endsAt (hi : EndsAt t cs i) (hbefore : ∀ k < i, ¬ EndsAt t cs k) (hj : EndsAt t cs j)
    (hbefore' : ∀ k < j, ¬ EndsAt t cs k) : i = j := by
  rcases Nat.lt_trichotomy i j with hlt | heq | hlt
  · exact absurd hi (hbefore' i hlt)
  · exact heq
  · exact absurd hj (hbefore j hlt)

/-! ## Characters that are passed -/

/-- Characters in front of a text that reading passes: nothing ends at them, and they escape nothing behind them. -/
structure Passed (t : Char) (front cs : List Char) : Prop where
  /-- Reading goes on at each of them. -/
  goesOn : ∀ j < front.length, ¬ EndsAt t (front ++ cs) j
  /-- The character behind them is not escaped. -/
  unescaped : ¬ Escaped (front ++ cs) front.length

/-- A character that is neither the terminator nor a backslash is passed. -/
theorem passed_plain (hc : c ≠ t) (hbackslash : c ≠ backslash) : Passed t [c] cs where
  goesOn := by
    intro j hj
    obtain rfl : j = 0 := Nat.lt_one_iff.mp hj
    exact not_endsAt_zero hc
  unescaped := fun hescaped => hbackslash (Option.some.inj hescaped.1)

theorem escaped_one : Escaped (backslash :: cs) 1 := ⟨rfl, id⟩

/-- A terminator or a backslash is passed together with the backslash that escapes it. -/
theorem passed_pair (ht : t ≠ backslash) (hd : d = t ∨ d = backslash) : Passed t [backslash, d] cs where
  goesOn := by
    intro j hj
    match j, hj with
    | 0, _ => exact not_endsAt_zero ht.symm
    | 1, _ =>
      -- It does not close the string, because it is escaped, and it may be.
      rintro (⟨_, hunescaped⟩ | ⟨c, hchar, _, hterminator, hbackslash⟩)
      · exact hunescaped escaped_one
      · obtain rfl : d = c := Option.some.inj hchar
        exact hd.elim hterminator hbackslash
  unescaped := fun hescaped => hescaped.2 escaped_one

namespace Passed

variable {front : List Char}

theorem getElem?_behind (front cs : List Char) (i : Nat) : (front ++ cs)[front.length + i]? = cs[i]? := by
  rw [List.getElem?_append_right (Nat.le_add_right _ _), Nat.add_sub_cancel_left]

theorem escaped_iff (h : Passed t front cs) : Escaped (front ++ cs) (front.length + i) ↔ Escaped cs i := by
  induction i with
  | zero => exact iff_of_false h.unescaped id
  | succ i ih => rw [← Nat.add_assoc, escaped_succ, ih, getElem?_behind, escaped_succ]

theorem closesAt_iff (h : Passed t front cs) : ClosesAt t (front ++ cs) (front.length + i) ↔ ClosesAt t cs i := by
  rw [ClosesAt, ClosesAt, getElem?_behind, h.escaped_iff]

theorem misusedAt_iff (h : Passed t front cs) :
    MisusedAt t (front ++ cs) (front.length + i) c ↔ MisusedAt t cs i c := by
  rw [MisusedAt, MisusedAt, getElem?_behind, h.escaped_iff]

/-- What does not end a text early does not end it early behind them either. -/
theorem not_endsAt (h : Passed t front cs) (hfirst : ∀ j < i, ¬ EndsAt t cs j) (hj : j < front.length + i) :
    ¬ EndsAt t (front ++ cs) j := by
  by_cases hfront : j < front.length
  · exact h.goesOn j hfront
  · obtain ⟨k, rfl⟩ := Nat.exists_eq_add_of_le (Nat.le_of_not_lt hfront)
    rintro (hcloses | ⟨c, hmisused⟩)
    · exact hfirst k (by omega) (.inl (h.closesAt_iff.mp hcloses))
    · exact hfirst k (by omega) (.inr ⟨c, h.misusedAt_iff.mp hmisused⟩)

end Passed

/-! ## What a result of reading says about the text -/

/-- **What a result of reading says about the text.** -/
def Reading.Explained (t : Char) (cs : List Char) : Reading → Prop
  | .closed value rest =>
    cs = escape t value ++ t :: rest ∧ ∃ i, ClosesAt t cs i ∧ ∀ j < i, ¬ EndsAt t cs j
  | .badEscape c rest => ∃ i, MisusedAt t cs i c ∧ (∀ j < i, ¬ EndsAt t cs j) ∧ rest = cs.drop i
  | .unclosed => ∀ i, ¬ EndsAt t cs i

/-- Characters that are passed, and are how `d` is written, change nothing but the places. -/
theorem Reading.Explained.cons {r : Reading} {front : List Char} (h : r.Explained t cs) (hpassed : Passed t front cs)
    (hwritten : ∀ value, escape t (d :: value) = front ++ escape t value) : (r.cons d).Explained t (front ++ cs) := by
  cases r with
  | closed value rest =>
    obtain ⟨happend, i, hcloses, hfirst⟩ := h
    refine ⟨?_, front.length + i, hpassed.closesAt_iff.mpr hcloses, fun j => hpassed.not_endsAt hfirst⟩
    rw [hwritten, List.append_assoc, ← happend]
  | badEscape e rest =>
    obtain ⟨i, hmisused, hfirst, hrest⟩ := h
    refine ⟨front.length + i, hpassed.misusedAt_iff.mpr hmisused, fun j => hpassed.not_endsAt hfirst, ?_⟩
    rw [List.drop_length_add_append, hrest]
  | unclosed =>
    intro i
    have hbehind : i < front.length + (i + 1) := by omega
    exact hpassed.not_endsAt (fun j _ => h j) hbehind

/-- **What the reader says about a text holds of it.** -/
theorem explained_readUntil (ht : t ≠ backslash) (cs : List Char) : (readUntil t cs).Explained t cs := by
  fun_induction readUntil t cs with
  | case1 => exact fun i => not_endsAt_of_none rfl
  | case2 =>
    -- A backslash at the very end escapes nothing.
    intro i
    cases i with
    | zero => exact not_endsAt_zero ht.symm
    | succ i => exact not_endsAt_of_none rfl
  | case3 d ds hd ih => exact ih.cons (passed_pair ht hd) fun value => if_pos hd
  | case4 d ds hd =>
    obtain ⟨hterminator, hbackslash⟩ := not_or.mp hd
    refine ⟨1, ⟨rfl, escaped_one, hterminator, hbackslash⟩, ?_, rfl⟩
    intro j hj
    obtain rfl : j = 0 := by omega
    exact not_endsAt_zero ht.symm
  | case5 cs hbackslash => exact ⟨rfl, 0, ⟨rfl, id⟩, fun j hj => absurd hj (Nat.not_lt_zero j)⟩
  | case6 c cs hbackslash hc ih =>
    exact ih.cons (passed_plain hc hbackslash) fun value => if_neg (not_or.mpr ⟨hc, hbackslash⟩)

/-! ## The results one by one -/

section

variable {value rest : List Char}

/-- **Accepted is exactly what writing produces**, with the terminator behind it. -/
theorem readUntil_eq_closed_iff (ht : t ≠ backslash) :
    readUntil t cs = .closed value rest ↔ cs = escape t value ++ t :: rest := by
  constructor
  · intro hread
    have hexplained := explained_readUntil ht cs
    rw [hread] at hexplained
    exact hexplained.1
  · rintro rfl
    exact readUntil_escape ht value rest

/-- A string and what stands behind it can be told apart in one way only. -/
theorem escape_append_inj (ht : t ≠ backslash) {value' rest' : List Char}
    (h : escape t value ++ t :: rest = escape t value' ++ t :: rest') : value = value' ∧ rest = rest' := by
  have hread := readUntil_escape ht value rest
  rw [h, readUntil_escape ht value' rest'] at hread
  obtain ⟨rfl, rfl⟩ := Reading.closed.inj hread
  exact ⟨rfl, rfl⟩

/-- A misused backslash is reported for exactly the first character that is misused. -/
theorem readUntil_eq_badEscape_iff (ht : t ≠ backslash) :
    readUntil t cs = .badEscape c rest ↔ ∃ i, FirstMisused t cs i c ∧ rest = cs.drop i := by
  have hexplained := explained_readUntil ht cs
  constructor
  · intro hread
    rw [hread] at hexplained
    obtain ⟨i, hmisused, hfirst, hrest⟩ := hexplained
    exact ⟨i, firstMisused_of_not_endsAt hmisused hfirst, hrest⟩
  · rintro ⟨i, hmisused, rfl⟩
    have hends : EndsAt t cs i := .inr ⟨c, hmisused.misused⟩
    -- The reader ends somewhere too, and there is only one first place for that.
    cases hread : readUntil t cs with
    | closed value rest =>
      rw [hread] at hexplained
      obtain ⟨_, j, hcloses, hfirst⟩ := hexplained
      obtain rfl := eq_of_first_endsAt hends (fun k => hmisused.not_endsAt) (.inl hcloses) hfirst
      exact absurd hcloses hmisused.misused.not_closesAt
    | badEscape d rest =>
      rw [hread] at hexplained
      obtain ⟨j, hmisused', hfirst, rfl⟩ := hexplained
      obtain rfl := eq_of_first_endsAt hends (fun k => hmisused.not_endsAt) (.inr ⟨d, hmisused'⟩) hfirst
      obtain rfl : c = d := Option.some.inj (hmisused.misused.1.symm.trans hmisused'.1)
      rfl
    | unclosed =>
      rw [hread] at hexplained
      exact absurd hends (hexplained i)

/-- Where a backslash is misused before the string is closed, some character is the first that is misused. -/
theorem exists_firstMisused (ht : t ≠ backslash) (hmisused : MisusedAt t cs i c) (hopen : ∀ j < i, ¬ ClosesAt t cs j) :
    ∃ k d, FirstMisused t cs k d := by
  have hexplained := explained_readUntil ht cs
  have hends : EndsAt t cs i := .inr ⟨c, hmisused⟩
  cases hread : readUntil t cs with
  | closed value rest =>
    rw [hread] at hexplained
    obtain ⟨_, j, hcloses, hfirst⟩ := hexplained
    rcases Nat.lt_trichotomy i j with hlt | rfl | hlt
    · exact absurd hends (hfirst i hlt)
    · exact absurd hcloses hmisused.not_closesAt
    · exact absurd hcloses (hopen j hlt)
  | badEscape d rest =>
    obtain ⟨k, hfirst, _⟩ := (readUntil_eq_badEscape_iff ht).mp hread
    exact ⟨k, d, hfirst⟩
  | unclosed =>
    rw [hread] at hexplained
    exact absurd hends (hexplained i)

/-- A string that is neither closed nor ended by a misused backslash is reported as not closed. -/
theorem readUntil_eq_unclosed (ht : t ≠ backslash) (hclosed : ∀ value rest, cs ≠ escape t value ++ t :: rest)
    (hmisused : ∀ i c, ¬ FirstMisused t cs i c) : readUntil t cs = .unclosed := by
  cases hread : readUntil t cs with
  | closed value rest => exact absurd ((readUntil_eq_closed_iff ht).mp hread) (hclosed value rest)
  | badEscape c rest =>
    obtain ⟨i, hfirst, _⟩ := (readUntil_eq_badEscape_iff ht).mp hread
    exact absurd hfirst (hmisused i c)
  | unclosed => rfl

end

end Quoted

/-! ## Scanners -/

namespace Scanner

theorem advanceTo_behind_terminator {s : Scanner} {t : Char} {taken rest : List Char}
    (h : s.rest = taken ++ t :: rest) : s.advanceTo rest = ⟨s.passed ++ (taken ++ [t]), rest⟩ := by
  have hadvance := advanceTo_append s.passed (taken ++ [t]) rest
  rw [List.append_assoc, List.singleton_append, ← h] at hadvance
  exact hadvance

theorem advanceTo_drop {s : Scanner} {i : Nat} (h : i ≤ s.rest.length) : s.advanceTo (s.rest.drop i) = s.advance i := by
  rw [advanceTo, advance, List.length_drop, Nat.sub_sub_self h]

theorem peek?_advance (s : Scanner) (i : Nat) : (s.advance i).peek? = s.rest[i]? := by
  rw [peek?, advance, List.head?_drop]

theorem readUntil_eq_ok_iff {t : Char} (ht : t ≠ Quoted.backslash) {s after : Scanner} {value : String} :
    s.readUntil t = .ok value after ↔
      ∃ rest, s.rest = Quoted.escape t value.toList ++ t :: rest ∧
        after = ⟨s.passed ++ (Quoted.escape t value.toList ++ [t]), rest⟩ := by
  constructor
  · intro hread
    unfold readUntil at hread
    split at hread
    · next found rest hclosed =>
      cases hread
      have happend := (Quoted.readUntil_eq_closed_iff ht).mp hclosed
      rw [String.toList_ofList]
      exact ⟨rest, happend, advanceTo_behind_terminator happend⟩
    · cases hread
    · cases hread
  · rintro ⟨rest, happend, rfl⟩
    rw [readUntil, (Quoted.readUntil_eq_closed_iff ht).mpr happend, ← advanceTo_behind_terminator happend]
    exact congrArg (Scanned.ok · _) String.ofList_toList

theorem readUntil_of_firstMisused {t c : Char} (ht : t ≠ Quoted.backslash) {s : Scanner} {i : Nat}
    (h : Quoted.FirstMisused t s.rest i c) :
    s.readUntil t = .error ((s.advance i).error (.invalidEscape c)) (s.advance i) := by
  obtain ⟨hlength, _⟩ := List.getElem?_eq_some_iff.mp h.misused.1
  rw [readUntil, (Quoted.readUntil_eq_badEscape_iff ht).mpr ⟨i, h, rfl⟩, ← advanceTo_drop (Nat.le_of_lt hlength)]

/-- **The reader of quoted strings accepts exactly its grammar.** It succeeds with a string exactly when the string,
    its terminators and backslashes escaped, and a terminator stand in front of it, and stops behind the terminator;
    so the string and what is left are determined by the text. Where a backslash is misused before the string is
    closed, it fails and stops on the first character that is misused. Everywhere else it fails at the end of the
    text. -/
theorem readUntil_accepts_escapes {t : Char} (ht : t ≠ Quoted.backslash) (s : Scanner) :
    (∀ value after, s.readUntil t = .ok value after ↔
      ∃ rest, s.rest = Quoted.escape t value.toList ++ t :: rest ∧
        after = ⟨s.passed ++ (Quoted.escape t value.toList ++ [t]), rest⟩) ∧
    (∀ value rest value' rest',
      Quoted.escape t value ++ t :: rest = Quoted.escape t value' ++ t :: rest' → value = value' ∧ rest = rest') ∧
    ((∃ i c, Quoted.MisusedAt t s.rest i c ∧ ∀ j < i, ¬ Quoted.ClosesAt t s.rest j) →
      ∃ i c, Quoted.FirstMisused t s.rest i c ∧ (s.advance i).peek? = some c ∧
        s.readUntil t = .error ((s.advance i).error (.invalidEscape c)) (s.advance i)) ∧
    ((∀ value rest, s.rest ≠ Quoted.escape t value ++ t :: rest) →
      (¬ ∃ i c, Quoted.MisusedAt t s.rest i c ∧ ∀ j < i, ¬ Quoted.ClosesAt t s.rest j) →
      s.readUntil t = .error (s.toEnd.error .endOfQuoteExpected) s.toEnd) := by
  refine ⟨fun value after => readUntil_eq_ok_iff ht, fun value rest value' rest' => Quoted.escape_append_inj ht, ?_, ?_⟩
  · rintro ⟨i, c, hmisused, hopen⟩
    obtain ⟨k, d, hfirst⟩ := Quoted.exists_firstMisused ht hmisused hopen
    exact ⟨k, d, hfirst, (s.peek?_advance k).trans hfirst.misused.1, readUntil_of_firstMisused ht hfirst⟩
  · intro hclosed hmisused
    have hnone : ∀ i c, ¬ Quoted.FirstMisused t s.rest i c := by
      intro i c hfirst
      exact hmisused ⟨i, c, hfirst.misused, hfirst.isOpen⟩
    rw [readUntil, Quoted.readUntil_eq_unclosed ht hclosed hnone]

/-- Behind an accented character: a string with an escaped quote is read up to the quote that closes it, and an
    accented character behind a backslash is where reading stops. -/
theorem readUntil_accepts_escapes_accented :
    let good : Scanner := ⟨['é'], "\\\"é\" x".toList⟩
    let bad : Scanner := ⟨['é'], "a\\éb\"".toList⟩
    '"' ≠ Quoted.backslash ∧ good.readUntil '"' = .ok "\"é" ⟨"é\\\"é\"".toList, " x".toList⟩ ∧
      bad.readUntil '"' = .error ⟨.invalidEscape 'é', some ⟨"éa\\éb\"", 4⟩⟩ ⟨"éa\\".toList, "éb\"".toList⟩ := by
  intro good bad
  have ht : '"' ≠ Quoted.backslash := by decide
  have hgood := (readUntil_accepts_escapes ht good).1 "\"é" ⟨"é\\\"é\"".toList, " x".toList⟩
  obtain ⟨i, c, hfirst, hpeek, hread⟩ :=
    (readUntil_accepts_escapes ht bad).2.2.1 ⟨2, 'é', by decide, by decide⟩
  -- The first two places are not escaped, and the third one holds the accented character.
  obtain rfl : i = 2 := by
    rcases Nat.lt_trichotomy i 2 with hlt | heq | hlt
    · have hplain : ∀ j < 2, ¬ Quoted.Escaped bad.rest j := by decide
      exact absurd hfirst.misused.2.1 (hplain i hlt)
    · exact heq
    · exact absurd (by decide) (hfirst.first 2 hlt 'é')
  obtain rfl : 'é' = c := Option.some.inj hpeek
  have herror : (bad.advance 2).error (.invalidEscape 'é') = ⟨.invalidEscape 'é', some ⟨"éa\\éb\"", 4⟩⟩ := by decide
  rw [herror] at hread
  exact ⟨ht, hgood.mpr ⟨" x".toList, by decide, by decide⟩, hread⟩

end Scanner

/-! ## Arguments -/

/-- **An argument that was written is read back**, at any place of a text where it stands in front of a separator or
    at the end: reading from there succeeds with the string and stops where it ends. -/
theorem ArgumentType.string_reads_encoded (front text rest : String) (hrest : rest = "" ∨ ∃ more, rest = " " ++ more) :
    let line := front ++ Quoted.encode text ++ rest
    ∃ start stop, (Scanner.ofString line).moveTo (Text.byteSize front) = .ok start ∧
      ArgumentType.string.read start = .ok (.string text) stop ∧
      stop.text = line ∧ stop.remaining = rest ∧
      stop.cursor = Text.byteSize front + Text.byteSize (Quoted.encode text) := by
  intro line
  have hstop : ∀ c ∈ rest.toList.head?, c = Scanner.separator := by
    intro c hc
    rcases hrest with rfl | ⟨more, rfl⟩
    · cases hc
    · rw [String.toList_append] at hc
      exact (Option.some.inj hc).symm
  have hread := Scanner.readString_encode text front.toList hstop
  have hstart := Scanner.moveTo_append front (Quoted.encode text ++ rest)
  rw [String.toList_append, ← String.append_assoc] at hstart
  refine ⟨_, ⟨front.toList ++ (Quoted.encode text).toList, rest.toList⟩, hstart, ?_, ?_, String.ofList_toList,
    Text.size_append _ _⟩
  · rw [ArgumentType.read, hread]
    rfl
  · rw [Scanner.text, Scanner.chars]
    simp only [line, ← String.toList_append, String.ofList_toList]

/-- A string that holds a quote, a backslash, a separator and an accented character, behind an accented word. -/
theorem ArgumentType.string_reads_encoded_quoted :
    let line := "né " ++ Quoted.encode "\"\\ ü" ++ " x"
    line = "né \"\\\"\\\\ ü\" x" ∧ (" x" = "" ∨ ∃ more, " x" = " " ++ more) ∧
      ∃ start stop, (Scanner.ofString line).moveTo 4 = .ok start ∧
        ArgumentType.string.read start = .ok (.string "\"\\ ü") stop ∧ stop.cursor = 13 ∧ stop.remaining = " x" := by
  intro line
  have hrest : " x" = "" ∨ ∃ more, " x" = " " ++ more := .inr ⟨"x", by decide⟩
  obtain ⟨start, stop, hstart, hread, _, hremaining, hcursor⟩ :=
    string_reads_encoded "né " "\"\\ ü" " x" hrest
  have hsize : Text.byteSize "né " + Text.byteSize (Quoted.encode "\"\\ ü") = 13 := by decide
  exact ⟨by decide, hrest, start, stop, hstart, hread, hcursor.trans hsize, hremaining⟩

end CommandGrammar
