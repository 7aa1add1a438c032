import CommandGrammar.Options
import CommandGrammar.Proofs.Numerals

/-!
# `Proofs.Invocation` — what the words on the command line ask for

The words given to the program are split from left to right: a flag stands alone, and an option takes the word behind
it as its value, whatever that word looks like. What is asked for can then be read off the items, one field at a time.

* `Options.Item`, `Options.Splits` — the items of a list of words;
* `Options.ofItems` — what items ask for: lists, the last one, a count, and whether something occurs;
* `Options.Stops`, `Options.Breaks` — the first word at which there is no item, and what is said about it;
* `Options.parseInto_splits` — reading follows the items, with whatever stands behind them;
* `Options.parse_splits_or_breaks` — reading succeeds exactly on the lists that split.

Reading adds to the options one item after the other. That this comes to the fields of `ofItems` is one step,
`Options.ofItems_concat`.
-/

namespace CommandGrammar.Options

/-! ## Items -/

/-- What stands for itself. -/
inductive Flag where
  | help
  | version
  | noBanner
  | sequential
  | exhaustive
  | verbose
  | veryVerbose
deriving DecidableEq, Repr

/-- The words for a flag. -/
def Flag.spellings : Flag → List String
  | help => ["-h", "--help"]
  | version => ["-V", "--version"]
  | noBanner => ["--no-banner"]
  | sequential => ["--sequential"]
  | exhaustive => ["--exhaustive"]
  | verbose => ["-v", "--verbose"]
  | veryVerbose => ["-vv"]

/-- The words for the option whose value is a line to run. -/
def commandSpellings : List String := ["-c", "--command"]

/-- The words for the option whose value is the permission. -/
def permissionSpellings : List String := ["-p", "--permission"]

/-- A word reads as a number of 8 bits: digits, with a plus sign in front or without, that spell at most 255. -/
def ReadsAsByte (word : String) (n : Nat) : Prop :=
  ∃ digits : List Char, (word.toList = digits ∨ word.toList = '+' :: digits) ∧ digits ≠ [] ∧
    (∀ c ∈ digits, c.isDigit) ∧ Number.placeValue digits = n ∧ n ≤ 255

/-- A flag, or an option with its value. -/
inductive Item where
  | flag (flag : Flag)
  | command (line : String)
  | permission (level : Nat)
deriving DecidableEq, Repr

namespace Item

/-- The line to run, if the item gives one. -/
def line? : Item → Option String
  | command line => some line
  | _ => none

/-- The permission, if the item gives one. -/
def level? : Item → Option Nat
  | permission level => some level
  | _ => none

end Item

/-- **The words split into the items**, from left to right and without a rest. -/
inductive Splits : List String → List Item → Prop where
  | nil : Splits [] []
  /-- A flag is one word. -/
  | flag {flag : Flag} {word : String} {words : List String} {items : List Item} (hword : word ∈ flag.spellings)
    (hrest : Splits words items) : Splits (word :: words) (.flag flag :: items)
  /-- Any word is a line to run, one that looks like an option among them. -/
  | command {word line : String} {words : List String} {items : List Item} (hword : word ∈ commandSpellings)
    (hrest : Splits words items) : Splits (word :: line :: words) (.command line :: items)
  /-- A permission is a number of 8 bits. -/
  | permission {word value : String} {level : Nat} {words : List String} {items : List Item}
    (hword : word ∈ permissionSpellings) (hvalue : ReadsAsByte value level) (hrest : Splits words items) :
    Splits (word :: value :: words) (.permission level :: items)

/-- **What items ask for**: all lines in their order, the last permission, how often it was asked for more logs, and
    which flags occur. -/
def ofItems (items : List Item) : Options where
  commands := items.filterMap Item.line?
  help := .flag .help ∈ items
  version := .flag .version ∈ items
  noBanner := .flag .noBanner ∈ items
  sequential := .flag .sequential ∈ items
  exhaustive := .flag .exhaustive ∈ items
  verbosity := min 255 (items.count (.flag .verbose) + 2 * items.count (.flag .veryVerbose))
  permission := (items.filterMap Item.level?).getLast?.getD 0

/-- A word that is neither a flag nor an option. -/
def Unknown (word : String) : Prop :=
  (∀ flag : Flag, word ∉ flag.spellings) ∧ word ∉ commandSpellings ∧ word ∉ permissionSpellings

/-- No item starts the words, and this is said about it. -/
inductive Stops : List String → String → Prop where
  /-- The line to run is missing. -/
  | commandMissing {word : String} (hword : word ∈ commandSpellings) : Stops [word] "--command requires a value"
  /-- The permission is missing. -/
  | permissionMissing {word : String} (hword : word ∈ permissionSpellings) :
    Stops [word] "--permission requires a value"
  /-- The permission is no number of 8 bits. -/
  | permissionInvalid {word value : String} {words : List String} (hword : word ∈ permissionSpellings)
    (hvalue : ∀ level, ¬ ReadsAsByte value level) :
    Stops (word :: value :: words) ("invalid --permission value: " ++ value)
  /-- The first word is not known. -/
  | unknown {word : String} {words : List String} (hword : Unknown word) :
    Stops (word :: words) ("unknown option: " ++ word)

/-- **The words split up to a place where no item starts.** -/
def Breaks (words : List String) (message : String) : Prop :=
  ∃ front items rest, words = front ++ rest ∧ Splits front items ∧ Stops rest message

variable {options : Options} {word value message : String} {words : List String} {items : List Item}

/-! ## One item after the other -/

/-- The options with a flag set. -/
def Flag.set (options : Options) : Flag → Options
  | help => { options with help := true }
  | version => { options with version := true }
  | noBanner => { options with noBanner := true }
  | sequential => { options with sequential := true }
  | exhaustive => { options with exhaustive := true }
  | verbose => { options with verbosity := min byteMax (options.verbosity + 1) }
  | veryVerbose => { options with verbosity := min byteMax (options.verbosity + 2) }

/-- The options with one more item. -/
def Item.add (options : Options) : Item → Options
  | flag f => f.set options
  | command line => { options with commands := options.commands ++ [line] }
  | permission level => { options with permission := level }

/-- **Step.** One more item changes what is asked for as reading does. -/
theorem ofItems_concat (items : List Item) (item : Item) : ofItems (items ++ [item]) = item.add (ofItems items) := by
  cases item with
  | flag f =>
    cases f with
    | verbose =>
      simp [ofItems, Item.add, Flag.set, Item.line?, Item.level?, byteMax]
      omega
    | veryVerbose =>
      simp [ofItems, Item.add, Flag.set, Item.line?, Item.level?, byteMax]
      omega
    | _ => simp [ofItems, Item.add, Flag.set, Item.line?, Item.level?]
  | command line => simp [ofItems, Item.add, Item.line?, Item.level?]
  | permission level => simp [ofItems, Item.add, Item.line?, Item.level?]

/-! ## The words that are known -/

/-- The part that the words for a flag play. -/
def Flag.part : Flag → Word
  | help => .help
  | version => .version
  | noBanner => .noBanner
  | sequential => .sequential
  | exhaustive => .exhaustive
  | verbose => .verbose 1
  | veryVerbose => .verbose 2

theorem of?_of_mem_spellings {flag : Flag} (h : word ∈ flag.spellings) : Word.of? word = some flag.part := by
  have hall : ∀ w ∈ flag.spellings, Word.of? w = some flag.part := by cases flag <;> decide
  exact hall word h

theorem of?_of_mem_commandSpellings (h : word ∈ commandSpellings) : Word.of? word = some .command := by
  have hall : ∀ w ∈ commandSpellings, Word.of? w = some .command := by decide
  exact hall word h

theorem of?_of_mem_permissionSpellings (h : word ∈ permissionSpellings) : Word.of? word = some .permission := by
  have hall : ∀ w ∈ permissionSpellings, Word.of? w = some .permission := by decide
  exact hall word h

/-- Every word of the table is a flag or an option. -/
theorem not_unknown_of_mem_table {part : Word} (h : (word, part) ∈ Word.table) : ¬ Unknown word := by
  rintro ⟨hflag, hcommand, hpermission⟩
  cases part with
  | help => exact hflag .help (by simpa [Word.table, Flag.spellings] using h)
  | version => exact hflag .version (by simpa [Word.table, Flag.spellings] using h)
  | noBanner => exact hflag .noBanner (by simpa [Word.table, Flag.spellings] using h)
  | sequential => exact hflag .sequential (by simpa [Word.table, Flag.spellings] using h)
  | exhaustive => exact hflag .exhaustive (by simpa [Word.table, Flag.spellings] using h)
  | command => exact hcommand (by simpa [Word.table, commandSpellings] using h)
  | permission => exact hpermission (by simpa [Word.table, permissionSpellings] using h)
  | verbose amount =>
    -- The amount tells the two flags apart.
    have hword : (word = "-v" ∨ word = "--verbose") ∨ word = "-vv" := by
      simp [Word.table] at h
      tauto
    rcases hword with hword | hword
    · exact hflag .verbose (by simpa [Flag.spellings] using hword)
    · exact hflag .veryVerbose (by simpa [Flag.spellings] using hword)

theorem Unknown.of?_eq_none (h : Unknown word) : Word.of? word = none := by
  rw [Word.of?, List.lookup_eq_none_iff]
  intro entry hentry
  rw [bne_iff_ne]
  rintro rfl
  exact not_unknown_of_mem_table hentry h

/-- A word is a flag, one of the two options, or unknown. -/
theorem word_cases (word : String) :
    (∃ flag : Flag, word ∈ flag.spellings) ∨ word ∈ commandSpellings ∨ word ∈ permissionSpellings ∨ Unknown word := by
  by_cases hflag : ∃ flag : Flag, word ∈ flag.spellings
  · exact .inl hflag
  · by_cases hcommand : word ∈ commandSpellings
    · exact .inr (.inl hcommand)
    · by_cases hpermission : word ∈ permissionSpellings
      · exact .inr (.inr (.inl hpermission))
      · exact .inr (.inr (.inr ⟨fun flag h => hflag ⟨flag, h⟩, hcommand, hpermission⟩))

/-- **The reader of small numbers accepts exactly the numbers of 8 bits.** -/
theorem byte?_eq_some_iff {n : Nat} : byte? word = some n ↔ ReadsAsByte word n := by
  have hread : ∀ digits, (Number.nat? digits).filter (· ≤ byteMax) = some n ↔
      digits ≠ [] ∧ (∀ c ∈ digits, c.isDigit) ∧ Number.placeValue digits = n ∧ n ≤ 255 := by
    intro digits
    rw [Option.filter_eq_some_iff, Number.nat?_eq_some_iff, decide_eq_true_iff, byteMax, and_assoc, and_assoc]
  unfold byte?
  split
  · next cs hcs =>
    rw [hread]
    constructor
    · intro h
      exact ⟨cs, .inr hcs, h⟩
    · rintro ⟨digits, hword | hword, hne, hdigits, hvalue⟩
      · -- A plus sign is no digit.
        rw [← hword, hcs] at hdigits
        exact absurd (hdigits '+' List.mem_cons_self) (by decide)
      · obtain rfl : cs = digits := (List.cons.inj (hcs.symm.trans hword)).2
        exact ⟨hne, hdigits, hvalue⟩
  · next cs hcs =>
    rw [hread]
    constructor
    · intro h
      exact ⟨word.toList, .inl rfl, h⟩
    · rintro ⟨digits, hword | hword, h⟩
      · rwa [hword]
      · exact absurd hword (hcs digits)

theorem byte?_eq_none (h : ∀ n, ¬ ReadsAsByte word n) : byte? word = none :=
  Option.eq_none_iff_forall_ne_some.mpr fun n hn => h n (byte?_eq_some_iff.mp hn)

/-! ## Reading -/

theorem parseInto_flag {flag : Flag} (h : word ∈ flag.spellings) :
    parseInto options (word :: words) = parseInto (flag.set options) words := by
  rw [parseInto.eq_def]
  dsimp only
  rw [of?_of_mem_spellings h]
  cases flag <;> rfl

theorem parseInto_command (h : word ∈ commandSpellings) (line : String) :
    parseInto options (word :: line :: words)
      = parseInto { options with commands := options.commands ++ [line] } words := by
  rw [parseInto, of?_of_mem_commandSpellings h]

theorem parseInto_permission (h : word ∈ permissionSpellings) {level : Nat} (hvalue : ReadsAsByte value level) :
    parseInto options (word :: value :: words) = parseInto { options with permission := level } words := by
  rw [parseInto.eq_def]
  dsimp only
  rw [of?_of_mem_permissionSpellings h]
  dsimp only
  rw [byte?_eq_some_iff.mpr hvalue]

/-- **Run.** Reading follows the items, with whatever stands behind them. -/
theorem parseInto_splits {front : List String} (h : Splits front items) (done : List Item) (rest : List String) :
    parseInto (ofItems done) (front ++ rest) = parseInto (ofItems (done ++ items)) rest := by
  induction h generalizing done with
  | nil => rw [List.append_nil, List.nil_append]
  | @flag f _ _ items hword _ ih =>
    rw [List.append_cons done, ← ih, ofItems_concat]
    exact parseInto_flag hword
  | @command _ line _ items hword _ ih =>
    rw [List.append_cons done, ← ih, ofItems_concat]
    exact parseInto_command hword line
  | @permission _ _ level _ items hword hvalue _ ih =>
    rw [List.append_cons done, ← ih, ofItems_concat]
    exact parseInto_permission hword hvalue

/-- Where no item starts, reading fails, and says so. -/
theorem Stops.parseInto_eq (h : Stops words message) (options : Options) :
    ∃ problem, parseInto options words = .error problem ∧ problem.message = message := by
  cases h with
  | commandMissing hword => exact ⟨.commandMissing, by rw [parseInto, of?_of_mem_commandSpellings hword], rfl⟩
  | permissionMissing hword =>
    exact ⟨.permissionMissing, by rw [parseInto, of?_of_mem_permissionSpellings hword], rfl⟩
  | @permissionInvalid _ value _ hword hvalue =>
    refine ⟨.invalidPermission value, ?_, rfl⟩
    rw [parseInto.eq_def]
    dsimp only
    rw [of?_of_mem_permissionSpellings hword]
    dsimp only
    rw [byte?_eq_none hvalue]
  | @unknown word _ hword =>
    refine ⟨.unknownOption word, ?_, rfl⟩
    rw [parseInto.eq_def]
    dsimp only
    rw [hword.of?_eq_none]

theorem parse_of_splits (h : Splits words items) : parse words = .ok (ofItems items) := by
  have hread := parseInto_splits h [] []
  rw [List.append_nil] at hread
  exact hread

theorem parse_of_breaks (h : Breaks words message) :
    ∃ problem, parse words = .error problem ∧ problem.message = message := by
  obtain ⟨front, items, rest, rfl, hsplits, hstops⟩ := h
  have hread : parse (front ++ rest) = parseInto (ofItems items) rest := parseInto_splits hsplits [] rest
  rw [hread]
  exact hstops.parseInto_eq (ofItems items)

/-! ## Every list of words -/

/-- An item in front of a list that breaks. -/
theorem Breaks.append (front : List String) (h : Breaks words message)
    (hitem : ∀ {rest items}, Splits rest items → ∃ items', Splits (front ++ rest) items') :
    Breaks (front ++ words) message := by
  obtain ⟨front', items, rest, rfl, hsplits, hstops⟩ := h
  obtain ⟨items', hsplits'⟩ := hitem hsplits
  exact ⟨front ++ front', items', rest, (List.append_assoc ..).symm, hsplits', hstops⟩

theorem Stops.breaks (h : Stops words message) : Breaks words message := ⟨[], [], words, rfl, .nil, h⟩

/-- Words split, or there is a first place where they do not. -/
theorem splits_or_breaks : ∀ words : List String, (∃ items, Splits words items) ∨ ∃ message, Breaks words message
  | [] => .inl ⟨[], .nil⟩
  | [word] => by
    rcases word_cases word with ⟨f, hword⟩ | hword | hword | hword
    · exact .inl ⟨[.flag f], .flag hword .nil⟩
    · exact .inr ⟨_, (Stops.commandMissing hword).breaks⟩
    · exact .inr ⟨_, (Stops.permissionMissing hword).breaks⟩
    · exact .inr ⟨_, (Stops.unknown hword).breaks⟩
  | word :: value :: words => by
    rcases word_cases word with ⟨f, hword⟩ | hword | hword | hword
    · -- A flag leaves the next word to be an item of its own.
      rcases splits_or_breaks (value :: words) with ⟨items, hrest⟩ | ⟨message, hrest⟩
      · exact .inl ⟨.flag f :: items, .flag hword hrest⟩
      · exact .inr ⟨message, hrest.append [word] fun h => ⟨_, .flag hword h⟩⟩
    · rcases splits_or_breaks words with ⟨items, hrest⟩ | ⟨message, hrest⟩
      · exact .inl ⟨.command value :: items, .command hword hrest⟩
      · exact .inr ⟨message, hrest.append [word, value] fun h => ⟨_, .command hword h⟩⟩
    · by_cases hvalue : ∃ level, ReadsAsByte value level
      · obtain ⟨level, hlevel⟩ := hvalue
        rcases splits_or_breaks words with ⟨items, hrest⟩ | ⟨message, hrest⟩
        · exact .inl ⟨.permission level :: items, .permission hword hlevel hrest⟩
        · exact .inr ⟨message, hrest.append [word, value] fun h => ⟨_, .permission hword hlevel h⟩⟩
      · exact .inr ⟨_, (Stops.permissionInvalid hword fun level h => hvalue ⟨level, h⟩).breaks⟩
    · exact .inr ⟨_, (Stops.unknown hword).breaks⟩

/-- **Reading succeeds exactly on the lists of words that split, with what their items ask for.** Otherwise it fails,
    with what is said about the first word at which the split breaks. -/
theorem parse_splits_or_breaks (words : List String) :
    (∀ options, parse words = .ok options ↔ ∃ items, Splits words items ∧ options = ofItems items) ∧
      ∀ message, (∃ problem, parse words = .error problem ∧ problem.message = message) ↔ Breaks words message := by
  refine ⟨fun options => ⟨fun hok => ?_, ?_⟩, fun message => ⟨?_, parse_of_breaks⟩⟩
  · rcases splits_or_breaks words with ⟨items, hsplits⟩ | ⟨message, hbreaks⟩
    · exact ⟨items, hsplits, Except.ok.inj (hok.symm.trans (parse_of_splits hsplits))⟩
    · obtain ⟨problem, herror, _⟩ := parse_of_breaks hbreaks
      cases hok.symm.trans herror
  · rintro ⟨items, hsplits, rfl⟩
    exact parse_of_splits hsplits
  · rintro ⟨problem, herror, hmessage⟩
    rcases splits_or_breaks words with ⟨items, hsplits⟩ | ⟨message', hbreaks⟩
    · cases herror.symm.trans (parse_of_splits hsplits)
    · obtain ⟨problem', herror', hmessage'⟩ := parse_of_breaks hbreaks
      obtain rfl : problem = problem' := Except.error.inj (herror.symm.trans herror')
      rwa [← hmessage, hmessage']

-- The word behind `-c` is a line to run, though it looks like an option.
example : parse ["-c", "-p", "-p", "+7", "-vv"] = .ok { commands := ["-p"], permission := 7, verbosity := 2 } := by
  decide

end CommandGrammar.Options
