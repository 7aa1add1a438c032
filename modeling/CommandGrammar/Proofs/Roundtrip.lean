import CommandGrammar.Proofs.Chain
import CommandGrammar.Proofs.Execution
import CommandGrammar.Proofs.Quoting

/-!
# `Proofs.Roundtrip` — a line of strings is read as it was written

A form is a command with some strings to be filled in: a word, and one argument for each string. A line for it holds
the word and the strings, each written so that it can be read back. Reading the line then gives the strings, whatever
characters they hold, and runs the handler of the last one.

There is one exception. The empty string is written as nothing. In the middle of a line the separators around it
still tell where it stands; at the end there is only the separator in front of it, and the descent needs more than a
separator to go on, so that it never comes to the last argument and the line is refused.

* `Matched.Ends`, `Filled` — what a run over some of the strings keeps and adds;
* `exists_filled_singleton`, `exists_filled` — one string, and several in a row;
* `outcomesOf_of_rest` — where the run ends.
-/

namespace CommandGrammar

variable {S : Type}

/-! ## Forms -/

/-- A string argument, what is filled in for it, and what to run when a line ends at it. -/
structure Field (S : Type) where
  /-- The name of the argument. -/
  name : String
  /-- The string that is filled in. -/
  value : String
  /-- What to run when a line ends at the argument. -/
  handler : Option (Handler S) := none

namespace Field

/-- The argument as a node. -/
def link (f : Field S) : Link S := ⟨.argument f.name .string none, f.handler⟩

/-- The string as it is written. -/
def text (f : Field S) : List Char := (Quoted.encode f.value).toList

/-- The strings as they are written behind something else. -/
def tail (fields : List (Field S)) : List Char := fields.flatMap fun f => Scanner.separator :: f.text

/-- The line that a form is filled in with. -/
def line (word : String) (fields : List (Field S)) : String :=
  " ".intercalate (word :: fields.map fun f => Quoted.encode f.value)

theorem toList_line (word : String) (fields : List (Field S)) :
    (line word fields).toList = word.toList ++ tail fields := by
  induction fields generalizing word with
  | nil => simp [line, tail]
  | cons f fields ih =>
    have hrest := ih (Quoted.encode f.value)
    unfold line at hrest ⊢
    rw [List.map_cons, String.intercalate_cons_cons, String.toList_append, hrest]
    simp [Scanner.separator, tail, text]

theorem tail_append (fields fields' : List (Field S)) : tail (fields ++ fields') = tail fields ++ tail fields' :=
  List.flatMap_append

/-- What comes first behind a word or a string is a separator, if anything comes. -/
theorem head?_tail_append (fields : List (Field S)) (rest : List Char)
    (hrest : ∀ c ∈ rest.head?, c = Scanner.separator) :
    ∀ c ∈ (tail fields ++ rest).head?, c = Scanner.separator := by
  cases fields with
  | nil => exact hrest
  | cons f fields => simp [tail]

end Field

/-- A command with strings to be filled in. -/
def Declaration.form (word : String) (fields : List (Field S)) : List (Declaration S) :=
  chain (⟨.literal word, none⟩ :: fields.map Field.link)

/-! ## One match -/

theorem Scanner.skip_of_rest_eq {s : Scanner} {c : Char} {rest : List Char} (h : s.rest = c :: rest) :
    s.skip = ⟨s.passed ++ [c], rest⟩ := by
  obtain ⟨passed, _⟩ := s
  subst h
  rfl

/-- The trail ends with the node that matched. -/
def Matched.Ends (m : Matched S) : Prop := ∃ last ∈ m.trail.steps.getLast?, last.node = m.node

theorem Branch.ends_of_attempt {b : Branch S} {id : NodeId} {s : Scanner} {trail : Trail S (Handler S)}
    {m : Matched S} (h : b.attempt id s trail = .ok m) :
    m.node = id ∧ m.Ends ∧ m.trail.handler = b.handler := by
  obtain ⟨hnode, _⟩ := Branch.attempt_cases h
  obtain ⟨range, _, _, hsteps, _, hhandler, _⟩ := Branch.steps_of_attempt h
  refine ⟨hnode, ⟨⟨id, range⟩, ?_, hnode.symm⟩, hhandler⟩
  rw [hsteps, List.getLast?_concat]
  rfl

/-- A word matches where it stands in front of a separator or at the end. -/
theorem Branch.exists_attempt_of_word {b : Branch S} {word : String} (hlabel : b.label = .literal word)
    (hword : Scanner.separator ∉ word.toList) {passed rest : List Char}
    (hrest : ∀ c ∈ rest.head?, c = Scanner.separator) (id : NodeId) (trail : Trail S (Handler S)) :
    word.toList = (⟨passed, word.toList ++ rest⟩ : Scanner).token ∧
      ∃ m, b.attempt id ⟨passed, word.toList ++ rest⟩ trail = .ok m ∧ m.scanner.rest = rest := by
  have hplain : ∀ c ∈ word.toList, decide (c ≠ Scanner.separator) = true := by
    intro c hc
    have hne : c ≠ Scanner.separator := fun heq => hword (heq ▸ hc)
    simpa using hne
  have hstop : ∀ c ∈ rest.head?, decide (c ≠ Scanner.separator) = false := by
    intro c hc
    simpa using hrest c hc
  obtain ⟨hskip, htoken⟩ := Scanner.skipWhile_append hplain hstop passed
  have htoken' : word.toList = (⟨passed, word.toList ++ rest⟩ : Scanner).token := htoken.symm
  obtain ⟨trail', hread⟩ := Label.read_of_token htoken' id trail
  have hbreak := Scanner.atBreak_skipWhile_token ⟨passed, word.toList ++ rest⟩
  refine ⟨htoken', ⟨id, _, trail'.withHandler b.handler⟩, ?_, congrArg Scanner.rest hskip⟩
  unfold Branch.attempt
  rw [hlabel, hread]
  exact if_pos hbreak

/-- A string that was written matches in front of a separator or at the end, and is captured. -/
theorem Branch.exists_attempt_of_encode {b : Branch S} {name : String} {provider : Option (Provider S)}
    (hlabel : b.label = .argument name .string provider) (value : String) (passed : List Char) {rest : List Char}
    (hrest : ∀ c ∈ rest.head?, c = Scanner.separator) (id : NodeId) (trail : Trail S (Handler S)) :
    ∃ m, b.attempt id ⟨passed, (Quoted.encode value).toList ++ rest⟩ trail = .ok m ∧ m.scanner.rest = rest ∧
      ∃ c : Capture, c.value = .string value ∧ ∀ other, m.trail.captures.lookup other
        = if name = other then some c else trail.captures.lookup other := by
  have hstring := Scanner.readString_encode value passed hrest
  have hread : ArgumentType.string.read ⟨passed, (Quoted.encode value).toList ++ rest⟩
      = .ok (.string value) ⟨passed ++ (Quoted.encode value).toList, rest⟩ := by
    rw [ArgumentType.read, hstring, Scanned.map]
  cases hcapture : ArgumentType.string.capture ⟨passed, (Quoted.encode value).toList ++ rest⟩ with
  | error e u =>
    rw [ArgumentType.capture_eq_error_iff, hread] at hcapture
    cases hcapture
  | ok c u =>
    obtain ⟨hcaptured, _⟩ := ArgumentType.capture_eq_ok_iff.mp hcapture
    rw [hread] at hcaptured
    injection hcaptured with hvalue hscanner
    subst hscanner
    refine ⟨⟨id, ⟨passed ++ (Quoted.encode value).toList, rest⟩,
      ((trail.capture name c).step id c.range).withHandler b.handler⟩, ?_, rfl, c, hvalue.symm, ?_⟩
    · have hbreak : (⟨passed ++ (Quoted.encode value).toList, rest⟩ : Scanner).atBreak := by
        cases rest with
        | nil => rfl
        | cons first rest => simp [Scanner.atBreak, hrest first rfl]
      unfold Branch.attempt
      rw [hlabel, Label.read, hcapture]
      exact if_pos hbreak
    · exact fun other => trail.lookup_capture name c other

/-! ## Runs over strings -/

namespace Tree

variable {t : Tree S}

/-- Reading on behind `m` is reading on behind `m'`, and in between the strings of the fields were captured. -/
structure Filled (t : Tree S) (m : Matched S) (fields : List (Field S)) (m' : Matched S) : Prop where
  /-- There is no other way to go on. -/
  outcomes_eq : t.outcomesOf m = t.outcomesOf m'
  /-- The trail ends with the node that matched last. -/
  ends : m'.Ends
  /-- Each string is captured under the name of its argument. -/
  holds : ∀ f ∈ fields, ∃ c : Capture, m'.trail.captures.lookup f.name = some c ∧ c.value = .string f.value
  /-- The other names hold what they held. -/
  others : ∀ name ∉ fields.map Field.name, m'.trail.captures.lookup name = m.trail.captures.lookup name

theorem Filled.nil {m : Matched S} (h : m.Ends) : t.Filled m [] m := ⟨rfl, h, by simp, fun _ _ => rfl⟩

/-- Two runs after one another, over fields of different names. -/
theorem Filled.append {m m' m'' : Matched S} {fields fields' : List (Field S)} (h : t.Filled m fields m')
    (h' : t.Filled m' fields' m'') (hnames : ((fields ++ fields').map Field.name).Nodup) :
    t.Filled m (fields ++ fields') m'' := by
  rw [List.map_append, List.nodup_append] at hnames
  refine ⟨h.outcomes_eq.trans h'.outcomes_eq, h'.ends, ?_, ?_⟩
  · intro f hf
    rcases List.mem_append.mp hf with hf | hf
    · -- The second run captures other names only.
      have hother : f.name ∉ fields'.map Field.name :=
        fun hmem => hnames.2.2 f.name (List.mem_map_of_mem hf) f.name hmem rfl
      rw [h'.others f.name hother]
      exact h.holds f hf
    · exact h'.holds f hf
  · intro name hname
    rw [List.map_append, List.mem_append, not_or] at hname
    exact (h'.others name hname.2).trans (h.others name hname.1)

/-- **Step.** A string that was written is read by the node below, unless nothing but its separator is to come. -/
theorem exists_filled_singleton {m : Matched S} {f : Field S} {links : List (Link S)} {rest : List Char}
    (hhangs : t.Hangs m.node (f.link :: links)) (hm : m.scanner.rest = Scanner.separator :: (f.text ++ rest))
    (hmore : f.text ++ rest ≠ []) (hrest : ∀ c ∈ rest.head?, c = Scanner.separator) :
    ∃ m', t.Filled m [f] m' ∧ m'.scanner.rest = rest ∧ t.Hangs m'.node links ∧ m'.trail.handler = f.handler := by
  obtain ⟨id, hchildren, hbelow⟩ := hhangs
  have hlabel : (f.link.branch m.node).label = .argument f.name .string none := rfl
  have hskip := Scanner.skip_of_rest_eq hm
  have hread : m.scanner.canReadBytes 2 := by
    have hone : Scanner.separator.utf8Size = 1 := by decide
    have hpos : Text.size (f.text ++ rest) ≠ 0 := fun hzero => hmore (Text.size_eq_zero.mp hzero)
    rw [Scanner.canReadBytes, Scanner.remainingSize, hm, Text.size_cons, hone, decide_eq_true_eq]
    omega
  obtain ⟨m', hattempt, hscanner, c, hvalue, hlookup⟩ := Branch.exists_attempt_of_encode hlabel f.value
    (m.scanner.passed ++ [Scanner.separator]) hrest id m.trail
  obtain ⟨rfl, hends, hhandler⟩ := Branch.ends_of_attempt hattempt
  have houtcomes : t.outcomesOf m = t.outcomesOf m' := by
    rw [outcomesOf, if_pos hread, hskip]
    exact outcomes_of_only hchildren (by simp [hlabel, Label.isLiteral]) rfl hattempt
  refine ⟨m', ⟨houtcomes, hends, ?_, ?_⟩, hscanner, hbelow, hhandler⟩
  · intro f' hf'
    rw [List.mem_singleton.mp hf']
    exact ⟨c, by rw [hlookup, if_pos rfl], hvalue⟩
  · intro name hname
    rw [hlookup, if_neg (by simpa [eq_comm] using hname)]

/-- **Run.** Several strings are read one after the other, as long as something is to come behind them. -/
theorem exists_filled {m : Matched S} {fields : List (Field S)} {links : List (Link S)} {rest : List Char}
    (hends : m.Ends) (hhangs : t.Hangs m.node (fields.map Field.link ++ links))
    (hm : m.scanner.rest = Field.tail fields ++ Scanner.separator :: rest)
    (hnames : (fields.map Field.name).Nodup) :
    ∃ m', t.Filled m fields m' ∧ m'.scanner.rest = Scanner.separator :: rest ∧ t.Hangs m'.node links := by
  induction fields generalizing m with
  | nil => exact ⟨m, .nil hends, hm, hhangs⟩
  | cons f fields ih =>
    have hrest := Field.head?_tail_append fields (Scanner.separator :: rest) (by simp)
    have hm' : m.scanner.rest
        = Scanner.separator :: (f.text ++ (Field.tail fields ++ Scanner.separator :: rest)) := by
      rw [hm]
      simp [Field.tail]
    obtain ⟨m', hfilled, hscanner, hbelow, _⟩ := exists_filled_singleton hhangs hm' (by simp) hrest
    obtain ⟨m'', hfilled', hscanner', hbelow'⟩ := ih hfilled.ends hbelow hscanner (List.nodup_cons.mp hnames).2
    exact ⟨m'', hfilled.append hfilled' hnames, hscanner', hbelow'⟩

/-- Where nothing or a lone separator is to come, reading ends. -/
theorem outcomesOf_of_rest {m : Matched S} (h : m.scanner.rest = [] ∨ m.scanner.rest = [Scanner.separator]) :
    t.outcomesOf m = [{ scanner := m.scanner, trail := m.trail }] := by
  have hread : ¬ m.scanner.canReadBytes 2 := by
    unfold Scanner.canReadBytes Scanner.remainingSize
    rcases h with h | h
    · simp [h]
    · rw [h]
      decide
  rw [outcomesOf, if_neg hread]

end Tree

/-! ## Whole lines -/

/-- The argument of a name that holds a string. -/
theorem Trail.argument_build {trail : Trail S (Handler S)} {name value : String} {c : Capture}
    (h : trail.captures.lookup name = some c) (hvalue : c.value = .string value) (text : String) :
    (trail.build text).argument .string name = .ok value := by
  have hcaptured : (trail.build text).captured? name = some c := by
    rw [Context.captured?, Trail.build, Trail.captures_mapHandler, h]
  rw [Context.argument, hcaptured]
  simp only [hvalue]
  rfl

namespace Dispatcher

/-- The word of a form is read, then all strings but the last. -/
theorem exists_filled_front (settings : Dispatch.Settings) {word : String}
    (hword : Scanner.separator ∉ word.toList) (front : List (Field S)) (last : Field S) (source : S)
    (hnames : (front.map Field.name).Nodup) :
    let fields := front ++ [last]
    let d := ({ settings } : Dispatcher S).registerAll (Declaration.form word fields)
    ∃ m m', d.outcomes (Scanner.ofString (Field.line word fields)) source = d.tree.outcomesOf m ∧
      d.tree.Filled m front m' ∧ m'.scanner.rest = Scanner.separator :: last.text ∧
      d.tree.Hangs m'.node [last.link] := by
  intro fields d
  let first : Link S := ⟨.literal word, none⟩
  have hlinks : fields.map Field.link = front.map Field.link ++ [last.link] := List.map_append
  have hhangs : d.tree.Hangs 0 (first :: fields.map Field.link) := hangs_registerAll_chain settings _
  obtain ⟨id, hchildren, hbelow⟩ := hhangs
  have hlabel : (first.branch 0).label = .literal word := rfl
  have hbreak : ∀ c ∈ (Field.tail fields).head?, c = Scanner.separator := by
    simpa using Field.head?_tail_append fields [] (by simp)
  obtain ⟨htoken, m, hattempt, hrest⟩ :=
    Branch.exists_attempt_of_word hlabel hword hbreak id (Trail.start source 0 0)
  obtain ⟨rfl, hends, _⟩ := Branch.ends_of_attempt hattempt
  have houtcomes : d.outcomes (Scanner.ofString (Field.line word fields)) source = d.tree.outcomesOf m := by
    rw [outcomes, Scanner.ofString, Field.toList_line]
    exact Tree.outcomes_of_only hchildren (fun _ => htoken) rfl hattempt
  have hlast : Field.tail [last] = Scanner.separator :: last.text := by simp [Field.tail]
  rw [Field.tail_append, hlast] at hrest
  rw [hlinks] at hbelow
  obtain ⟨m', hfilled, hrest', hbelow'⟩ := Tree.exists_filled hends hbelow hrest hnames
  exact ⟨m, m', houtcomes, hfilled, hrest', hbelow'⟩

variable {d : Dispatcher S} {s : Scanner} {source : S} {m m' : Matched S} {fields : List (Field S)}

theorem parseFrom_of_filled (houtcomes : d.outcomes s source = d.tree.outcomesOf m)
    (hfilled : d.tree.Filled m fields m')
    (hrest : m'.scanner.rest = [] ∨ m'.scanner.rest = [Scanner.separator]) :
    d.parseFrom s source = { scanner := m'.scanner, trail := m'.trail } := by
  refine parseFrom_of_outcomes_eq ?_
  rw [houtcomes, hfilled.outcomes_eq, Tree.outcomesOf_of_rest hrest]

/-- Where the strings end, the line does: it was read as a whole and runs the last handler. -/
theorem executes_of_filled (houtcomes : d.outcomes s source = d.tree.outcomesOf m)
    (hfilled : d.tree.Filled m fields m') (hrest : m'.scanner.rest = []) {run : Handler S}
    (hhandler : m'.trail.handler = some run) :
    let p := d.parseFrom s source
    p.isComplete ∧ p.errors = [] ∧
      (∀ f ∈ fields, (p.trail.build s.text).argument .string f.name = .ok f.value) ∧
      d.handlerOf p = .ok run ∧ d.execute p = run (p.trail.build s.text) := by
  intro p
  have hp : p = { scanner := m'.scanner, trail := m'.trail } := parseFrom_of_filled houtcomes hfilled (.inl hrest)
  have hcomplete : p.isComplete := by simp [hp, Parse.isComplete, Scanner.canRead, hrest]
  have hsteps : ¬ p.trail.steps.isEmpty := by
    obtain ⟨step, hstep, _⟩ := hfilled.ends
    simpa [hp] using List.ne_nil_of_mem (List.mem_of_getLast? hstep)
  have htrail : p.trail.handler = some run := by rw [hp, hhandler]
  have hrun : d.handlerOf p = .ok run := by
    rw [handlerOf, if_neg (Parse.isComplete_iff.mp hcomplete), if_neg hsteps, htrail]
  refine ⟨hcomplete, by rw [hp], ?_, hrun, by rw [execute, hrun, d.input_parseFrom]⟩
  intro f hf
  obtain ⟨c, hlookup, hc⟩ := hfilled.holds f hf
  exact Trail.argument_build (by rw [hp, hlookup]) hc s.text

/-- Where a separator is left over in front of another argument, the line is refused there. -/
theorem refuses_of_filled (houtcomes : d.outcomes s source = d.tree.outcomesOf m)
    (hfilled : d.tree.Filled m fields m') (hrest : m'.scanner.rest = [Scanner.separator])
    (hinner : d.tree.children m'.node ≠ []) :
    let p := d.parseFrom s source
    ¬ p.isComplete ∧
      d.execute p = (.error ⟨.incorrectArgument, some ⟨s.text, Text.byteSize s.text - 1⟩⟩, source) := by
  intro p
  have hp : p = { scanner := m'.scanner, trail := m'.trail } := parseFrom_of_filled houtcomes hfilled (.inr hrest)
  have hread : p.scanner.canRead := by simp [hp, Scanner.canRead, hrest]
  obtain ⟨step, hstep, hnode⟩ := hfilled.ends
  have hlast : step ∈ p.trail.steps.getLast? := by rw [hp]; exact hstep
  have hrefuses : d.Refuses p (p.scanner.error .incorrectArgument) :=
    .unfit hread (by rw [hp]) hlast (by rw [hnode]; exact hinner)
  have htext : p.scanner.text = s.text := d.input_parseFrom s source
  -- What is left over is the separator, and it is one byte.
  have hcursor : Text.byteSize s.text - 1 = p.scanner.cursor := by
    have hone : Scanner.separator.utf8Size = 1 := by decide
    have hseparator : p.scanner.rest = [Scanner.separator] := by rw [hp, hrest]
    rw [← htext, Text.byteSize, Scanner.toList_text, Text.size_append, hseparator, Scanner.cursor]
    simp [hone]
  refine ⟨fun hcomplete => Parse.isComplete_iff.mp hcomplete hread, ?_⟩
  rw [hcursor, ← htext]
  exact d.execute_of_refuses s source hrefuses

/-- **A form that was filled in is read as it was filled in**, but for an empty string at the end. Under all
    settings, the line that holds the word `set` and the strings, each written so that it can be read back, is read
    to its end, every argument holds exactly its string, and executing runs the handler of the last argument. Where
    the last string is empty, the separator in front of it is left over, and the line is refused there without a
    handler having run. -/
theorem filled_form_is_read_back (settings : Dispatch.Settings) (front : List (Field S)) (name value : String)
    (run : Handler S) (source : S) (hnames : (front.map Field.name ++ [name]).Nodup) :
    let fields := front ++ [⟨name, value, some run⟩]
    let d := ({ settings } : Dispatcher S).registerAll (Declaration.form "set" fields)
    let line := Field.line "set" fields
    let p := d.parse line source
    (value ≠ "" → p.isComplete ∧ p.errors = [] ∧
      (∀ f ∈ fields, (p.trail.build line).argument .string f.name = .ok f.value) ∧
      d.handlerOf p = .ok run ∧ d.execute p = run (p.trail.build line)) ∧
    (value = "" → ¬ p.isComplete ∧
      d.execute p = (.error ⟨.incorrectArgument, some ⟨line, Text.byteSize line - 1⟩⟩, source)) := by
  intro fields d line p
  let last : Field S := ⟨name, value, some run⟩
  have hword : Scanner.separator ∉ "set".toList := by decide
  have hline : (Scanner.ofString line).text = line := String.ofList_toList
  obtain ⟨m, m', houtcomes, hfilled, hrest, hhangs⟩ :=
    exists_filled_front settings hword front last source (List.nodup_append.mp hnames).1
  constructor
  · intro hvalue
    have htext : last.text ++ [] ≠ [] := by
      rw [List.append_nil]
      exact fun hnil => hvalue (Quoted.toList_encode_eq_nil_iff.mp hnil)
    rw [← List.append_nil last.text] at hrest
    obtain ⟨m'', hfilled', hrest', _, hhandler⟩ := Tree.exists_filled_singleton hhangs hrest htext (by simp)
    have hfields : (fields.map Field.name).Nodup := by
      rw [List.map_append]
      exact hnames
    have hread := executes_of_filled houtcomes (hfilled.append hfilled' hfields) hrest' hhandler
    rw [hline] at hread
    exact hread
  · intro hvalue
    have hnil : last.text = [] := Quoted.toList_encode_eq_nil_iff.mpr hvalue
    obtain ⟨id, hchildren, _⟩ := hhangs
    rw [hnil] at hrest
    have hrefused := refuses_of_filled houtcomes hfilled hrest (by rw [hchildren]; exact List.cons_ne_nil _ _)
    rw [hline] at hrefused
    exact hrefused

/-- A form for two strings, of which the first is empty and the second holds a quote, a backslash and a character of
    two bytes. -/
theorem filled_form_is_read_back_quoted :
    let run : Handler Unit := fun c => (.ok (), c.source)
    let front : List (Field Unit) := [⟨"a1", "", none⟩]
    let fields : List (Field Unit) := front ++ [⟨"a2", "é\"\\", some run⟩]
    let d := ({} : Dispatcher Unit).registerAll (Declaration.form "set" fields)
    let line := Field.line "set" fields
    let p := d.parse line ()
    (front.map Field.name ++ ["a2"]).Nodup ∧ line = "set  \"é\\\"\\\\\"" ∧ p.isComplete ∧
      (p.trail.build line).argument .string "a1" = .ok "" ∧
      (p.trail.build line).argument .string "a2" = .ok "é\"\\" ∧ d.execute p = run (p.trail.build line) := by
  intro run front fields d line p
  have hnames : (front.map Field.name ++ ["a2"]).Nodup := by decide
  have hvalue : "é\"\\" ≠ "" := by decide
  obtain ⟨hcomplete, _, harguments, _, hexecute⟩ :=
    (filled_form_is_read_back {} front "a2" "é\"\\" run () hnames).1 hvalue
  have hfirst := harguments ⟨"a1", "", none⟩ List.mem_cons_self
  have hsecond := harguments ⟨"a2", "é\"\\", some run⟩ (List.mem_cons_of_mem _ List.mem_cons_self)
  exact ⟨hnames, by decide, hcomplete, hfirst, hsecond, hexecute⟩

/-- **A line with an empty string at its end is not read back.** Written out, the string leaves no more than the
    separator in front of it; the line is refused, and the handler that would note the string is not run. -/
theorem filled_form_loses_empty_string :
    let note : Handler (List String) := fun c =>
      match c.argument .string "a1" with
      | .ok text => (.ok (), List.concat c.source text)
      | .error e => (.error e, c.source)
    let fields : List (Field (List String)) := [⟨"a1", "", some note⟩]
    let d := ({} : Dispatcher (List String)).registerAll (Declaration.form "set" fields)
    Field.line "set" fields = "set " ∧ ¬ (d.parse "set " []).isComplete ∧
      d.run "set " [] = (.error ⟨.incorrectArgument, some ⟨"set ", 3⟩⟩, []) := by
  intro note fields d
  have hplace : (d.parse "set " []).scanner.place = ⟨"set ", 3⟩ := by decide +kernel
  have hlast : (⟨1, ⟨0, 3, by decide⟩⟩ : Step) ∈ (d.parse "set " []).trail.steps.getLast? := by decide +kernel
  have hrefuses : d.Refuses (d.parse "set " []) ((d.parse "set " []).scanner.error .incorrectArgument) :=
    .unfit (by decide +kernel) (by decide +kernel) hlast (List.cons_ne_nil _ _)
  have hrefused : d.run "set " [] = _ := d.execute_of_refuses (Scanner.ofString "set ") [] hrefuses
  rw [Scanner.error, hplace] at hrefused
  exact ⟨by decide, by decide +kernel, hrefused⟩

end Dispatcher

end CommandGrammar
