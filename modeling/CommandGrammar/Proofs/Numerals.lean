import CommandGrammar.Proofs.Quoting
import Mathlib.Data.Nat.Digits.Defs

/-!
# `Proofs.Numerals` — which whole numbers are read

A number is read in three steps that can each refuse it: the run of number characters has to be a numeral, its value
has to fit into the width, and it has to lie within the bounds. Wherever it is refused, the scanner is back where it
started, and so is the place of the error.

* `Number.Numeral` — digits with an optional minus sign, and the number that they spell by their places;
* `Number.int?_eq_some_iff`, `Number.fitting?_eq_some_iff` — the readers of runs accept exactly these;
* `Bounds.Decides` — what reading a whole number within bounds comes to, told by the run alone, and
  `Bounds.read_eq_iff` — that reading does come to that;
* `Number.numeral_intText` — what writing a number produces is a numeral of it;
* `ArgumentType.whole_numbers_decided` — the same for arguments of both widths, with what was written read back.
-/

namespace CommandGrammar

/-! ## Numerals -/

namespace Number

/-- The number that a decimal digit stands for. -/
def digit (c : Char) : Nat := c.toNat - '0'.toNat

/-- The number that decimal digits spell, each counted by its place. -/
def placeValue (digits : List Char) : Nat := Nat.ofDigits 10 (digits.reverse.map digit)

/-- **Numerals of whole numbers**: one digit or more, with a minus sign in front or without. -/
inductive Numeral : List Char → Int → Prop where
  /-- Digits alone. -/
  | plain {digits : List Char} (hne : digits ≠ []) (hdigits : ∀ c ∈ digits, c.isDigit) :
    Numeral digits (placeValue digits)
  /-- Digits behind a minus sign. -/
  | negative {digits : List Char} (hne : digits ≠ []) (hdigits : ∀ c ∈ digits, c.isDigit) :
    Numeral ('-' :: digits) (-placeValue digits)

/-- A number can be stored in `bits` bits with a sign. -/
def Fits (bits : Nat) (v : Int) : Prop := -2 ^ (bits - 1) ≤ v ∧ v < 2 ^ (bits - 1)

instance (bits : Nat) (v : Int) : Decidable (Fits bits v) := inferInstanceAs (Decidable (_ ∧ _))

/-- Reading digits from the left adds them up by their places. -/
theorem value_eq_placeValue (digits : List Char) : value digits = placeValue digits := by
  rw [placeValue, Nat.ofDigits_eq_foldr, List.foldr_map, List.foldr_reverse, value]
  congr 1
  funext n c
  exact Nat.add_comm _ _

theorem nat?_eq_some_iff {cs : List Char} {n : Nat} :
    nat? cs = some n ↔ (cs ≠ [] ∧ ∀ c ∈ cs, c.isDigit) ∧ placeValue cs = n := by
  unfold nat?
  rw [value_eq_placeValue]
  split
  · next h =>
    rw [List.all_eq_true] at h
    exact ⟨fun hn => ⟨h, Option.some.inj hn⟩, fun hn => congrArg some hn.2⟩
  · next h =>
    rw [List.all_eq_true] at h
    exact iff_of_false (by simp) fun hn => h hn.1

theorem int?_negative (digits : List Char) : int? ('-' :: digits) = (nat? digits).map fun n : Nat => -(n : Int) := by
  rw [int?]
  cases nat? digits <;> rfl

theorem int?_plain {cs : List Char} (h : ∀ digits, cs ≠ '-' :: digits) :
    int? cs = (nat? cs).map fun n : Nat => (n : Int) := by
  unfold int?
  split
  · next digits => exact absurd rfl (h digits)
  · cases nat? cs <;> rfl

/-- **The reader of whole numbers accepts exactly the numerals**, and gives what they spell. -/
theorem int?_eq_some_iff {cs : List Char} {v : Int} : int? cs = some v ↔ Numeral cs v := by
  constructor
  · intro h
    by_cases hsign : ∃ digits, cs = '-' :: digits
    · obtain ⟨digits, rfl⟩ := hsign
      rw [int?_negative, Option.map_eq_some_iff] at h
      obtain ⟨n, hread, rfl⟩ := h
      obtain ⟨⟨hne, hdigits⟩, rfl⟩ := nat?_eq_some_iff.mp hread
      exact .negative hne hdigits
    · rw [int?_plain (not_exists.mp hsign), Option.map_eq_some_iff] at h
      obtain ⟨n, hread, rfl⟩ := h
      obtain ⟨⟨hne, hdigits⟩, rfl⟩ := nat?_eq_some_iff.mp hread
      exact .plain hne hdigits
  · intro h
    cases h with
    | plain hne hdigits =>
      -- A minus sign is no digit.
      have hsign : ∀ digits, cs ≠ '-' :: digits := by
        rintro digits rfl
        exact absurd (hdigits '-' List.mem_cons_self) (by decide)
      rw [int?_plain hsign, nat?_eq_some_iff.mpr ⟨⟨hne, hdigits⟩, rfl⟩]
      rfl
    | negative hne hdigits =>
      rw [int?_negative, nat?_eq_some_iff.mpr ⟨⟨hne, hdigits⟩, rfl⟩]
      rfl

theorem fitting?_eq_some_iff {bits : Nat} {cs : List Char} {v : Int} :
    fitting? bits cs = some v ↔ Numeral cs v ∧ Fits bits v := by
  have htwo : ((twoTo (bits - 1) : Nat) : Int) = 2 ^ (bits - 1) := by simp [twoTo]
  rw [fitting?, Option.filter_eq_some_iff, int?_eq_some_iff, htwo, Bool.and_eq_true, decide_eq_true_iff,
    decide_eq_true_iff, Fits]

variable {cs : List Char} {v : Int}

theorem Numeral.ne_nil (h : Numeral cs v) : cs ≠ [] := by
  cases h with
  | plain hne _ => exact hne
  | negative => exact List.cons_ne_nil _ _

/-- All characters of a numeral are number characters, so a numeral is never cut short. -/
theorem Numeral.isNumberChar (h : Numeral cs v) : ∀ c ∈ cs, isNumberChar c := by
  have hdigit : ∀ {c : Char}, c.isDigit → CommandGrammar.isNumberChar c := by
    intro c hc
    simp [CommandGrammar.isNumberChar, hc]
  intro c hc
  cases h with
  | plain _ hdigits => exact hdigit (hdigits c hc)
  | negative _ hdigits =>
    rcases List.mem_cons.mp hc with rfl | hmem
    · decide
    · exact hdigit (hdigits c hmem)

/-- **What writing a number produces is a numeral of it.** -/
theorem numeral_intText (v : Int) : Numeral (intText v).toList v := by
  have hdigits : ∀ c ∈ Nat.toDigits 10 v.natAbs, c.isDigit := fun c hc =>
    Nat.isDigit_of_mem_toDigits (by decide) (by decide) hc
  have hvalue : placeValue (Nat.toDigits 10 v.natAbs) = v.natAbs := by
    rw [← value_eq_placeValue]
    exact Nat.ofDigitChars_ten_toDigits
  by_cases hsign : v < 0
  · have hnumeral := Numeral.negative Nat.toDigits_ne_nil hdigits
    rw [hvalue, show -(v.natAbs : Int) = v by omega] at hnumeral
    rw [intText, if_pos hsign, String.toList_append, Nat.toList_repr]
    exact hnumeral
  · have hnumeral := Numeral.plain Nat.toDigits_ne_nil hdigits
    rw [hvalue, show (v.natAbs : Int) = v by omega] at hnumeral
    rw [intText, if_neg hsign, Nat.toList_repr]
    exact hnumeral

end Number

/-! ## Runs of number characters -/

namespace Scanner

/-- The longest run of number characters at the place of the scanner. -/
def numberRun (s : Scanner) : List Char := s.rest.takeWhile isNumberChar

variable {α : Type} {kind : NumberKind} {read? : List Char → Option α} {s : Scanner}

theorem readNumber_of_nil (h : s.numberRun = []) :
    s.readNumber kind read? = .error (s.error (.numberExpected kind)) s := if_pos h

theorem readNumber_of_none (hne : s.numberRun ≠ []) (h : read? s.numberRun = none) :
    s.readNumber kind read? = .error (s.error (.invalidNumber kind (String.ofList s.numberRun))) s := by
  unfold numberRun at hne h ⊢
  rw [readNumber, if_neg hne, h]

theorem readNumber_of_some (hne : s.numberRun ≠ []) {v : α} (h : read? s.numberRun = some v) :
    s.readNumber kind read? = .ok v (s.skipWhile isNumberChar) := by
  unfold numberRun at hne h
  rw [readNumber, if_neg hne, h]

/-- A number that is refused is refused where it starts. -/
theorem place_of_readNumber_error {e : Error} {after : Scanner} (h : s.readNumber kind read? = .error e after) :
    e.place = some s.place := by
  by_cases hne : s.numberRun = []
  · rw [readNumber_of_nil hne] at h
    cases h
    rfl
  · cases hread : read? s.numberRun with
    | none =>
      rw [readNumber_of_none hne hread] at h
      cases h
      rfl
    | some v =>
      rw [readNumber_of_some hne hread] at h
      cases h

end Scanner

/-! ## Numbers within bounds -/

namespace Bounds

/-- A number that is refused, for whatever reason, leaves the scanner where it was, and that is where the error is. -/
theorem restores_of_read_error {α : Type} [LT α] [DecidableLT α] {bounds : Bounds α} {kind : NumberKind}
    {render : α → String} {read? : List Char → Option α} {s after : Scanner} {e : Error}
    (h : bounds.read kind render read? s = .error e after) : after = s ∧ e.place = some s.place := by
  unfold read at h
  cases hread : s.readNumber kind read? with
  | error e' t =>
    rw [hread] at h
    cases h
    exact ⟨Scanner.scanner_of_readNumber_error hread, Scanner.place_of_readNumber_error hread⟩
  | ok v t =>
    rw [hread, check] at h
    split at h
    · cases h
      exact ⟨rfl, rfl⟩
    · split at h
      · cases h
        exact ⟨rfl, rfl⟩
      · cases h

/-- **What reading a whole number of a width within bounds comes to**, told by the run of number characters. -/
inductive Decides (bounds : Bounds Int) (kind : NumberKind) (bits : Nat) (s : Scanner) : Scanned Int → Prop where
  /-- The run is a numeral of a number that fits and lies within the bounds. -/
  | accepted {v : Int} (hnumeral : Number.Numeral s.numberRun v) (hfits : Number.Fits bits v)
      (hleast : bounds.least ≤ v) (hgreatest : v ≤ bounds.greatest) :
    Decides bounds kind bits s (.ok v (s.skipWhile isNumberChar))
  /-- There is no number character. -/
  | missing (h : s.numberRun = []) : Decides bounds kind bits s (.error (s.error (.numberExpected kind)) s)
  /-- The run is no numeral, or one of a number that does not fit. -/
  | invalid (hne : s.numberRun ≠ []) (h : ∀ v, Number.Numeral s.numberRun v → ¬ Number.Fits bits v) :
    Decides bounds kind bits s (.error (s.error (.invalidNumber kind (String.ofList s.numberRun))) s)
  /-- The number is below the least one allowed. -/
  | tooLow {v : Int} (hnumeral : Number.Numeral s.numberRun v) (hfits : Number.Fits bits v)
      (h : v < bounds.least) :
    Decides bounds kind bits s
      (.error (s.error (.tooLow kind (Number.intText v) (Number.intText bounds.least))) s)
  /-- The number is above the greatest one allowed, and not below the least one. -/
  | tooHigh {v : Int} (hnumeral : Number.Numeral s.numberRun v) (hfits : Number.Fits bits v)
      (hleast : bounds.least ≤ v) (h : bounds.greatest < v) :
    Decides bounds kind bits s
      (.error (s.error (.tooHigh kind (Number.intText v) (Number.intText bounds.greatest))) s)

section

variable {bounds : Bounds Int} {kind : NumberKind} {bits : Nat} {s : Scanner} {v : Int} {r : Scanned Int}

/-- A numeral that fits is handed on to the bounds. -/
theorem read_of_numeral (hnumeral : Number.Numeral s.numberRun v) (hfits : Number.Fits bits v) :
    bounds.read kind Number.intText (Number.fitting? bits) s
      = bounds.check kind Number.intText s (.ok v (s.skipWhile isNumberChar)) := by
  have hread : Number.fitting? bits s.numberRun = some v := Number.fitting?_eq_some_iff.mpr ⟨hnumeral, hfits⟩
  rw [read, Scanner.readNumber_of_some hnumeral.ne_nil hread]

/-- **Reading a whole number within bounds comes to exactly that.** -/
theorem read_eq_iff : bounds.read kind Number.intText (Number.fitting? bits) s = r ↔ bounds.Decides kind bits s r := by
  constructor
  · rintro rfl
    by_cases hne : s.numberRun = []
    · rw [read, Scanner.readNumber_of_nil hne]
      exact .missing hne
    · cases hread : Number.fitting? bits s.numberRun with
      | none =>
        rw [read, Scanner.readNumber_of_none hne hread]
        refine .invalid hne fun v hnumeral hfits => ?_
        rw [Number.fitting?_eq_some_iff.mpr ⟨hnumeral, hfits⟩] at hread
        cases hread
      | some v =>
        obtain ⟨hnumeral, hfits⟩ := Number.fitting?_eq_some_iff.mp hread
        rw [read_of_numeral hnumeral hfits, check]
        split
        · next hlow => exact .tooLow hnumeral hfits hlow
        · next hlow =>
          split
          · next hhigh => exact .tooHigh hnumeral hfits (by omega) hhigh
          · next hhigh => exact .accepted hnumeral hfits (by omega) (by omega)
  · intro h
    cases h with
    | accepted hnumeral hfits hleast hgreatest =>
      rw [read_of_numeral hnumeral hfits, check, if_neg (by omega), if_neg (by omega)]
    | missing h => rw [read, Scanner.readNumber_of_nil h, check]
    | invalid hne h =>
      have hread : Number.fitting? bits s.numberRun = none := by
        cases hfound : Number.fitting? bits s.numberRun with
        | none => rfl
        | some v =>
          obtain ⟨hnumeral, hfits⟩ := Number.fitting?_eq_some_iff.mp hfound
          exact absurd hfits (h v hnumeral)
      rw [read, Scanner.readNumber_of_none hne hread, check]
    | tooLow hnumeral hfits h => rw [read_of_numeral hnumeral hfits, check, if_pos h]
    | tooHigh hnumeral hfits hleast h => rw [read_of_numeral hnumeral hfits, check, if_neg (by omega), if_pos h]

/-- A number that was written in front of a separator or at the end is read back. -/
theorem read_intText (hfits : Number.Fits bits v) (hleast : bounds.least ≤ v) (hgreatest : v ≤ bounds.greatest)
    (passed : List Char) {rest : List Char} (hrest : ∀ c ∈ rest.head?, c = Scanner.separator) :
    bounds.read kind Number.intText (Number.fitting? bits) ⟨passed, (Number.intText v).toList ++ rest⟩
      = .ok v ⟨passed ++ (Number.intText v).toList, rest⟩ := by
  have hnumeral := Number.numeral_intText v
  have hstop : ∀ c ∈ rest.head?, isNumberChar c = false := by
    intro c hc
    rw [hrest c hc]
    decide
  obtain ⟨hskip, hrun⟩ := Scanner.skipWhile_append hnumeral.isNumberChar hstop passed
  rw [← hskip]
  exact read_eq_iff.mpr (.accepted (by rw [Scanner.numberRun, hrun]; exact hnumeral) hfits hleast hgreatest)

end

end Bounds

/-! ## Arguments -/

theorem Scanned.eq_error_of_map {α β : Type} {f : α → β} {r : Scanned α} {e : Error} {after : Scanner}
    (h : r.map f = .error e after) : r = .error e after := by
  cases r with
  | ok value t => cases h
  | error e' t =>
    cases h
    rfl

theorem Scanned.map_injective {α β : Type} {f : α → β} (hf : Function.Injective f) :
    Function.Injective (Scanned.map f) := by
  intro r r' h
  cases r with
  | ok value t =>
    cases r' with
    | ok value' t' =>
      obtain ⟨hvalue, rfl⟩ := Scanned.ok.inj h
      rw [hf hvalue]
    | error e t' => cases h
  | error e t =>
    cases r' with
    | ok value' t' => cases h
    | error e' t' =>
      obtain ⟨rfl, rfl⟩ := Scanned.error.inj h
      rfl

/-- **Which whole numbers are read.** Reading an argument of 32 or of 64 bits comes to exactly what the run of number
    characters decides: it succeeds if and only if the run is a numeral whose number fits into the width and lies
    within the bounds, and then stops behind the run. Otherwise the error says whether the run is missing, is no
    numeral that fits, or spells a number below or above the bounds, and both the scanner and the error are where the
    number starts. So a number within the bounds that was written in front of a separator or at the end is read back.
    Floating-point numbers that are refused leave the scanner and the error there, too. -/
theorem ArgumentType.whole_numbers_decided (bounds : Bounds Int) (s : Scanner) :
    (∀ r, (ArgumentType.int bounds).read s = r.map .int ↔ bounds.Decides .integer 32 s r) ∧
    (∀ r, (ArgumentType.long bounds).read s = r.map .long ↔ bounds.Decides .long 64 s r) ∧
    (∀ v passed rest, bounds.least ≤ v → v ≤ bounds.greatest → (∀ c ∈ rest.head?, c = Scanner.separator) →
      let start : Scanner := ⟨passed, (Number.intText v).toList ++ rest⟩
      let stop : Scanner := ⟨passed ++ (Number.intText v).toList, rest⟩
      (Number.Fits 32 v → (ArgumentType.int bounds).read start = .ok (.int v) stop) ∧
      (Number.Fits 64 v → (ArgumentType.long bounds).read start = .ok (.long v) stop)) ∧
    (∀ limits e after, (ArgumentType.double limits).read s = .error e after → after = s ∧ e.place = some s.place) ∧
    (∀ limits e after, (ArgumentType.single limits).read s = .error e after → after = s ∧ e.place = some s.place) := by
  have hint : Function.Injective (Scanned.map Value.int) := Scanned.map_injective fun _ _ => Value.int.inj
  have hlong : Function.Injective (Scanned.map Value.long) := Scanned.map_injective fun _ _ => Value.long.inj
  refine ⟨fun r => ?_, fun r => ?_, ?_, ?_, ?_⟩
  · rw [ArgumentType.read, hint.eq_iff, Bounds.read_eq_iff]
  · rw [ArgumentType.read, hlong.eq_iff, Bounds.read_eq_iff]
  · intro v passed rest hleast hgreatest hrest start stop
    refine ⟨fun hfits => ?_, fun hfits => ?_⟩
    · rw [ArgumentType.read, Bounds.read_intText hfits hleast hgreatest passed hrest]
      rfl
    · rw [ArgumentType.read, Bounds.read_intText hfits hleast hgreatest passed hrest]
      rfl
  · intro limits e after h
    exact Bounds.restores_of_read_error (Scanned.eq_error_of_map h)
  · intro limits e after h
    exact Bounds.restores_of_read_error (Scanned.eq_error_of_map h)

end CommandGrammar
