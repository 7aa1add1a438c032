import CommandGrammar.Proofs.Outcomes
import Mathlib.Data.List.Chain

/-!
# `Proofs.Path` — what a line was read as

However a line was read, the trail describes one way down the tree together with where it runs through the
text. `Tree.Traces` puts that into one statement: the nodes form a path from the root, their ranges follow
each other with exactly one separator in between, and the captures and the handler are those of the nodes on
the path.

The invariant that carries it through the search is `Tree.Stands`: a trail that traces a path, and a scanner
that stands right behind it, past the separator. One match extends the path (`Tree.Stands.extend`), passing
the separator re-establishes the invariant (`Tree.Stands.descend`), and `Tree.Outcome` does the induction.
-/

namespace CommandGrammar

variable {S : Type}

/-! ## Places in a text -/

/-- The character `c` stands at byte offset `n` of a text. -/
def Text.CharAt (text : String) (n : Nat) (c : Char) : Prop :=
  ∃ before rest : List Char, before ++ c :: rest = text.toList ∧ Text.size before = n

namespace Scanner

@[simp] theorem toList_text (s : Scanner) : s.text.toList = s.passed ++ s.rest := by
  simp [text, chars]

@[simp] theorem text_ofString (line : String) : (ofString line).text = line := by
  simp [text, chars, ofString]

/-- A scanner never stands inside a character. -/
theorem isBoundary_cursor (s : Scanner) : Text.IsBoundary s.text s.cursor :=
  ⟨s.passed, s.rest, s.toList_text.symm, rfl⟩

theorem charAt_cursor {s : Scanner} {c : Char} {rest : List Char} (h : s.rest = c :: rest) :
    Text.CharAt s.text s.cursor c :=
  ⟨s.passed, rest, by rw [toList_text, h], rfl⟩

theorem Precedes.text_eq {s u : Scanner} (h : s.Precedes u) : u.text = s.text := by
  rw [text, text, h.chars_eq]

/-- Passing a separator moves the cursor by one byte. -/
theorem cursor_skip_of_separator {s : Scanner} {rest : List Char} (h : s.rest = separator :: rest) :
    s.skip.cursor = s.cursor + 1 := by
  obtain ⟨passed, _⟩ := s
  subst h
  show Text.size (passed ++ [separator]) = Text.size passed + 1
  rw [Text.size_append]
  rfl

end Scanner

/-! ## The arguments on a path -/

/-- Where a value stands, the type reads it: from the start of its range, and no further than its end. -/
def ArgumentType.Reads (type : ArgumentType) (text : String) (c : Capture) : Prop :=
  ∃ s u : Scanner, s.text = text ∧ s.cursor = c.range.start ∧ type.read s = .ok c.value u ∧
    u.cursor = c.range.stop

/-- The type of a label that is an argument of the given name. -/
def Label.typeNamed? (name : String) : Label S → Option ArgumentType
  | literal _ => none
  | argument name' type _ => if name' = name then some type else none

namespace Tree

/-- What a step matched, when its node is an argument of the given name. -/
def argumentStep? (t : Tree S) (name : String) (step : Step) : Option (ArgumentType × Range) :=
  ((t.branch? step.node).bind fun b => b.label.typeNamed? name).map fun type => (type, step.range)

/-- The last of the steps whose node is an argument of the given name. -/
def lastArgument? (t : Tree S) (name : String) (steps : List Step) : Option (ArgumentType × Range) :=
  (steps.filterMap (t.argumentStep? name)).getLast?

theorem lastArgument?_concat (t : Tree S) (name : String) (steps : List Step) (step : Step) :
    t.lastArgument? name (steps ++ [step])
      = (t.argumentStep? name step).or (t.lastArgument? name steps) := by
  unfold lastArgument?
  rw [List.filterMap_append, List.getLast?_append]
  cases h : t.argumentStep? name step with
  | none => simp [h]
  | some found => simp [h]

end Tree

/-! ## Entries under names -/

section

variable {α : Type} {entries : List (String × α)}

/-- Forgetting one name keeps what is held under the others. -/
theorem lookup_forget {name other : String} (h : other ≠ name) :
    (entries.filter (·.1 ≠ name)).lookup other = entries.lookup other := by
  induction entries with
  | nil => rfl
  | cons entry entries ih =>
    obtain ⟨key, value⟩ := entry
    rw [List.filter_cons]
    by_cases hkey : key = name
    · have hother : (other == key) = false := by simpa [hkey] using h
      rw [if_neg (by simpa using hkey), List.lookup_cons, hother]
      exact ih
    · rw [if_pos (by simpa using hkey), List.lookup_cons, List.lookup_cons, ih]

/-- An entry replaces what its name held, and every other name holds what it held. -/
theorem lookup_replace (name : String) (value : α) (other : String) :
    ((name, value) :: entries.filter (·.1 ≠ name)).lookup other
      = if name = other then some value else entries.lookup other := by
  by_cases hname : name = other
  · simp [hname]
  · have hother : (other == name) = false := by simpa using Ne.symm hname
    rw [List.lookup_cons, hother, if_neg hname]
    exact lookup_forget (Ne.symm hname)

end

namespace Trail

variable {H : Type}

/-- After a capture its name holds it, and every other name holds what it held. -/
theorem lookup_capture (trail : Trail S H) (name : String) (c : Capture) (other : String) :
    (trail.capture name c).captures.lookup other
      = if name = other then some c else trail.captures.lookup other :=
  lookup_replace name c other

/-- A name is captured at most once. -/
theorem nodup_captures_capture {trail : Trail S H} {name : String} {c : Capture}
    (h : (trail.captures.map Prod.fst).Nodup) :
    ((trail.capture name c).captures.map Prod.fst).Nodup := by
  show (((name, c) :: trail.captures.filter (·.1 ≠ name)).map Prod.fst).Nodup
  rw [List.map_cons, List.nodup_cons]
  constructor
  · intro hmem
    obtain ⟨entry, hentry, hname⟩ := List.mem_map.mp hmem
    have hne := (List.mem_filter.mp hentry).2
    simp [hname] at hne
  · exact h.sublist (List.filter_sublist.map Prod.fst)

end Trail

/-! ## Trails that trace a path -/

namespace Tree

/-- `id` is a child of `parent`. -/
def IsChild (t : Tree S) (parent id : NodeId) : Prop := ∃ b, (b, id) ∈ t.children parent

/-- The handler of the node with an id. -/
def handlerAt? (t : Tree S) (id : NodeId) : Option (Handler S) := (t.branch? id).bind Branch.handler

/-- A name is captured exactly when an argument among the steps has it, and then holds what the last such
    argument reads at its range. -/
def Captures (t : Tree S) (text : String) (steps : List Step) (captures : List (String × Capture)) :
    Prop :=
  ∀ name, Option.Rel (fun found c => c.range = found.2 ∧ found.1.Reads text c)
    (t.lastArgument? name steps) (captures.lookup name)

/-- **The trail describes a way down the tree and where it runs through the text.** -/
structure Traces (t : Tree S) (text : String) (start : Nat) (trail : Trail S (Handler S)) : Prop where
  /-- The first node is a child of the root, and each node a child of the one before it. -/
  path : List.IsChain t.IsChild (0 :: trail.steps.map Step.node)
  /-- The first node starts where reading started. -/
  first : ∀ step ∈ trail.steps.head?, step.range.start = start
  /-- A separator follows each node but the last, and the next node starts right behind it. -/
  next : trail.steps.IsChain fun a b =>
    Text.CharAt text a.range.stop Scanner.separator ∧ b.range.start = a.range.stop + 1
  /-- No range leaves the text or cuts a character. -/
  bounds : ∀ step ∈ trail.steps,
    Text.IsBoundary text step.range.start ∧ Text.IsBoundary text step.range.stop
  /-- The whole range runs from the start to the end of the last node. -/
  range : trail.range.start = start ∧
    trail.range.stop = trail.steps.getLast?.elim start fun last => last.range.stop
  /-- Every name is captured at most once. -/
  names : (trail.captures.map Prod.fst).Nodup
  /-- The captures are those of the arguments on the path. -/
  captures : t.Captures text trail.steps trail.captures
  /-- The handler is that of the last node. -/
  handler : trail.handler = trail.steps.getLast?.bind fun last => t.handlerAt? last.node

/-- The invariant of the descent: the trail traces a path to `node`, and the scanner stands behind it,
    past the separator. -/
structure Stands (t : Tree S) (text : String) (start : Nat) (node : NodeId) (s : Scanner)
    (trail : Trail S (Handler S)) : Prop where
  /-- What was matched so far is a path. -/
  traces : t.Traces text start trail
  /-- The path leads to the node. -/
  node_eq : (0 :: trail.steps.map Step.node).getLast? = some node
  /-- The scanner is in the text. -/
  text_eq : s.text = text
  /-- Without a match the scanner has not moved. -/
  unmoved : trail.steps = [] → s.cursor = start
  /-- Behind a match the scanner has passed one separator. -/
  behind : ∀ last ∈ trail.steps.getLast?,
    Text.CharAt text last.range.stop Scanner.separator ∧ s.cursor = last.range.stop + 1

variable {t : Tree S} {text : String} {start : Nat} {node : NodeId} {s : Scanner}
  {trail : Trail S (Handler S)}

theorem stands_start (t : Tree S) (s : Scanner) (source : S) :
    t.Stands s.text s.cursor 0 s (Trail.start source 0 s.cursor) where
  traces :=
    { path := .singleton 0
      first := by simp [Trail.start]
      next := .nil
      bounds := by simp [Trail.start]
      range := ⟨rfl, rfl⟩
      names := List.nodup_nil
      captures := fun _ => .none
      handler := rfl }
  node_eq := rfl
  text_eq := rfl
  unmoved := fun _ => rfl
  behind := by simp [Trail.start]

/-- The range of everything matched ends no later than where the scanner stands. -/
theorem Stands.range_stop_le (h : t.Stands text start node s trail) : trail.range.stop ≤ s.cursor := by
  rw [h.traces.range.2]
  cases hlast : trail.steps.getLast? with
  | none => exact Nat.le_of_eq (h.unmoved (List.getLast?_eq_none_iff.mp hlast)).symm
  | some last =>
    show last.range.stop ≤ s.cursor
    rw [(h.behind last hlast).2]
    exact Nat.le_succ _

/-! ## One match -/

/-- A match adds the argument that it read, if it read one. -/
theorem Stands.captures_attempt (h : t.Stands text start node s trail) {b : Branch S} {id : NodeId}
    {m : Matched S} (hbranch : t.branch? id = some b) (hattempt : b.attempt id s trail = .ok m) :
    (m.trail.captures.map Prod.fst).Nodup ∧ t.Captures text m.trail.steps m.trail.captures := by
  obtain ⟨_, _, _, range, hstart, hstop, hcases⟩ := Branch.attempt_cases hattempt
  rcases hcases with ⟨word, hlabel, htrail⟩ | ⟨name', type, provider, value, hlabel, hread, htrail⟩
  · -- a word captures nothing and is no argument of any name
    rw [htrail]
    refine ⟨h.traces.names, fun name => ?_⟩
    show Option.Rel _ (t.lastArgument? name (trail.steps ++ [⟨id, range⟩])) _
    have hnone : t.argumentStep? name ⟨id, range⟩ = none := by
      simp [argumentStep?, hbranch, hlabel, Label.typeNamed?]
    rw [lastArgument?_concat, hnone, Option.none_or]
    exact h.traces.captures name
  · -- an argument becomes the last one of its own name and leaves the other names alone
    rw [htrail]
    refine ⟨Trail.nodup_captures_capture h.traces.names, fun name => ?_⟩
    show Option.Rel _ (t.lastArgument? name (trail.steps ++ [⟨id, range⟩]))
      ((trail.capture name' ⟨range, value⟩).captures.lookup name)
    rw [lastArgument?_concat, Trail.lookup_capture]
    by_cases hname : name' = name
    · have hsome : t.argumentStep? name ⟨id, range⟩ = some (type, range) := by
        simp [argumentStep?, hbranch, hlabel, Label.typeNamed?, hname]
      rw [hsome, if_pos hname]
      exact .some ⟨rfl, s, m.scanner, h.text_eq, hstart.symm, hread, hstop.symm⟩
    · have hnone : t.argumentStep? name ⟨id, range⟩ = none := by
        simp [argumentStep?, hbranch, hlabel, Label.typeNamed?, hname]
      rw [hnone, if_neg hname, Option.none_or]
      exact h.traces.captures name

/-- **Step.** A match at the end of a path makes the path one node longer. -/
theorem Stands.extend (h : t.Stands text start node s trail) {m : Matched S}
    (hm : m ∈ successes (t.attempts node s trail)) : t.Traces text start m.trail := by
  obtain ⟨b, id, hmem, _, hattempt⟩ := mem_successes_iff.mp hm
  have hchild : (b, id) ∈ t.children node := mem_children_of_mem_candidates hmem
  have hbranch : t.branch? id = some b := branch?_of_mem_children hchild
  have hprecedes : s.Precedes m.scanner := (Branch.attempt_cases hattempt).2.1
  obtain ⟨hnames, hcaptures⟩ := h.captures_attempt hbranch hattempt
  obtain ⟨range, hstart, hstop, hsteps, hrange, hhandler, _⟩ := Branch.steps_of_attempt hattempt
  have hle : s.cursor ≤ m.scanner.cursor := hprecedes.cursor_le
  have hbefore : trail.range.stop ≤ s.cursor := h.range_stop_le
  have hstartRange : trail.range.start = start := h.traces.range.1
  have hordered := trail.range.start_le_stop
  refine ⟨?_, ?_, ?_, ?_, ⟨?_, ?_⟩, hnames, hcaptures, ?_⟩
  · -- The new node is a child of the one that the path led to.
    rw [hsteps, List.map_append, ← List.cons_append, List.isChain_append]
    refine ⟨h.traces.path, .singleton _, ?_⟩
    intro last hlast child hsingle
    rw [h.node_eq] at hlast
    obtain rfl : node = last := Option.some.inj hlast
    obtain rfl : id = child := Option.some.inj hsingle
    exact ⟨b, hchild⟩
  · -- The new node is the first one only where nothing was matched before.
    intro step hstep
    rw [hsteps, List.head?_append] at hstep
    cases hhead : trail.steps.head? with
    | none =>
      rw [hhead] at hstep
      obtain rfl : (⟨id, range⟩ : Step) = step := Option.some.inj hstep
      rw [hstart]
      exact h.unmoved (List.head?_eq_none_iff.mp hhead)
    | some first =>
      rw [hhead] at hstep
      obtain rfl : first = step := Option.some.inj hstep
      exact h.traces.first first hhead
  · -- Its range starts where the scanner stands, which is one byte behind the last range.
    rw [hsteps, List.isChain_append]
    refine ⟨h.traces.next, .singleton _, ?_⟩
    intro last hlast step hsingle
    obtain rfl : (⟨id, range⟩ : Step) = step := Option.some.inj hsingle
    obtain ⟨hseparator, hcursor⟩ := h.behind last hlast
    exact ⟨hseparator, hstart.trans hcursor⟩
  · intro step hstep
    rw [hsteps, List.mem_append, List.mem_singleton] at hstep
    rcases hstep with hstep | rfl
    · exact h.traces.bounds step hstep
    · show Text.IsBoundary text range.start ∧ Text.IsBoundary text range.stop
      rw [hstart, hstop, ← h.text_eq]
      refine ⟨s.isBoundary_cursor, ?_⟩
      rw [← hprecedes.text_eq]
      exact m.scanner.isBoundary_cursor
  · -- The hull keeps its start and takes over the new end, since the scanner never goes back.
    rw [hrange, Range.start_hull, hstart]
    omega
  · rw [hrange, Range.stop_hull, hstop, hsteps, List.getLast?_concat]
    show max trail.range.stop m.scanner.cursor = range.stop
    omega
  · rw [hhandler, hsteps, List.getLast?_concat]
    show b.handler = t.handlerAt? id
    rw [handlerAt?, hbranch]
    rfl

/-- Passing the separator behind a match leads to the next level. -/
theorem Stands.descend (h : t.Stands text start node s trail) {m : Matched S}
    (hm : m ∈ successes (t.attempts node s trail)) (hread : m.scanner.canReadBytes 2) :
    t.Stands text start m.node m.scanner.skip m.trail := by
  have htraces := h.extend hm
  obtain ⟨b, id, _, _, hattempt⟩ := mem_successes_iff.mp hm
  obtain ⟨hnode, hprecedes, hbreak, _⟩ := Branch.attempt_cases hattempt
  obtain ⟨range, _, hstop, hsteps, _⟩ := Branch.steps_of_attempt hattempt
  obtain ⟨rest, hrest⟩ := Scanner.rest_eq_separator_cons hbreak hread
  have htext : m.scanner.text = text := hprecedes.text_eq.trans h.text_eq
  refine ⟨htraces, ?_, ?_, ?_, ?_⟩
  · rw [hsteps, List.map_append, ← List.cons_append, hnode]
    exact List.getLast?_concat
  · exact m.scanner.precedes_skip.text_eq.trans htext
  · intro hnil
    rw [hsteps] at hnil
    simp at hnil
  · intro last hlast
    rw [hsteps, List.getLast?_concat] at hlast
    obtain rfl : (⟨id, range⟩ : Step) = last := Option.some.inj hlast
    show Text.CharAt text range.stop Scanner.separator ∧ m.scanner.skip.cursor = range.stop + 1
    rw [hstop, ← htext]
    exact ⟨Scanner.charAt_cursor hrest, Scanner.cursor_skip_of_separator hrest⟩

/-! ## Whole lines -/

/-- **Run.** Every way of reading on from the end of a path ends with a path. -/
theorem Outcome.traces {p : Parse S} (h : t.Outcome node s trail p)
    (hstands : t.Stands text start node s trail) : t.Traces text start p.trail := by
  induction h with
  | stalled _ => exact hstands.traces
  | finished hm _ => exact hstands.extend hm
  | followed hm hread _ ih => exact ih (hstands.descend hm hread)

end Tree

/-- **Whatever a line was read as is a path.** For every grammar, every strategy and every place of a text,
    the trail of the result traces a path from the root over the text from that place on. -/
theorem Dispatcher.parseFrom_traces (d : Dispatcher S) (s : Scanner) (source : S) :
    d.tree.Traces s.text s.cursor (d.parseFrom s source).trail :=
  (d.outcome_parseFrom s source).traces (d.tree.stands_start s source)

end CommandGrammar
