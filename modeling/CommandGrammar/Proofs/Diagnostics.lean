import CommandGrammar.Proofs.Script
import CommandGrammar.Proofs.Selection

/-!
# `Proofs.Diagnostics` — what is said about a line that fails

A line that fails is given one error. If all failures are to be reported, the other candidates that failed are named as
well, each in a line of its own. The candidate whose error the line was given is left out of them, and it is told from
the others by its error; so a candidate that fails in the same way at the same place is left out with it.

* `Parse.Blames` — whose error a line was given, and which candidates failed besides;
* `Dispatcher.exists_blames` — the error of every line that fails is that of the candidate registered first, or of no
  candidate at all, though one of a type of the author's own may have failed with the same words;
* `Console.diagnostics_of_blames` — the lines that are shown;
* `Console.diagnostics_name_others_iff` — all that failed besides are named exactly if none of them failed in the same
  way; `Console.diagnostics_omit_twin` shows that this occurs.
-/

namespace CommandGrammar

variable {S : Type}

/-! ## Whose error a line is given -/

/-- A line was given an error, and `others` are the candidates that failed besides. -/
inductive Parse.Blames (p : Parse S) (e : Error) : List (NodeId × Error) → Prop where
  /-- Something was left over, and the error is that of the candidate that failed first. -/
  | candidate {id : NodeId} {others : List (NodeId × Error)} (hread : p.scanner.canRead)
      (herrors : p.errors = (id, e) :: others) : Blames p e others
  /-- The error is that of no candidate. -/
  | nobody (hother : ∀ failure ∈ p.errors, failure.2 ≠ e) : Blames p e p.errors
  /-- There was nothing to read, and the error says so. It is that of no candidate either, but a type that the author of
      the grammar brought along refused the empty line with just this error. -/
  | blank {id : NodeId} {type : CustomType} {u : Scanner} (hread : p.isComplete) (hmem : (id, e) ∈ p.errors)
      (hrefuses : type.read p.scanner = .error e u) : Blames p e p.errors

namespace Dispatcher

/-- A candidate that says that a command is unknown has a type of the author's own. -/
theorem custom_of_mem_errors (d : Dispatcher S) (s : Scanner) (source : S) {failure : NodeId × Error}
    (h : failure ∈ (d.parseFrom s source).errors) (hunknown : failure.2.kind = .unknownCommand) :
    ∃ (type : CustomType) (u : Scanner), type.read (d.parseFrom s source).scanner = .error failure.2 u := by
  obtain ⟨_, _, _, _, _, _, hfails⟩ := d.argument_of_mem_errors s source h
  rcases hfails.kind with hof | hseparator | ⟨type, u, _, hrefuses⟩
  · rw [hunknown] at hof
    cases hof
  · rw [hunknown] at hseparator
    cases hseparator
  · exact ⟨type, u, hrefuses⟩

/-- Where there is nothing to read, the error is that of no candidate, whatever the candidates failed with. -/
theorem blames_of_blank (d : Dispatcher S) (s : Scanner) (source : S) (hread : (d.parseFrom s source).isComplete) :
    let p := d.parseFrom s source
    p.Blames (p.scanner.error .unknownCommand) p.errors := by
  intro p
  by_cases hother : ∀ failure ∈ p.errors, failure.2 ≠ p.scanner.error .unknownCommand
  · exact .nobody hother
  · push Not at hother
    obtain ⟨⟨id, e⟩, hmem, rfl⟩ := hother
    obtain ⟨type, u, hrefuses⟩ := d.custom_of_mem_errors s source hmem rfl
    exact .blank hread hmem hrefuses

/-- Where something matched and nothing is left over, no candidate has failed. -/
theorem errors_of_complete (d : Dispatcher S) (s : Scanner) (source : S)
    (hread : (d.parseFrom s source).isComplete) {last : Step}
    (hlast : last ∈ (d.parseFrom s source).trail.steps.getLast?) : (d.parseFrom s source).errors = [] := by
  rcases d.finished_or_stalled_parseFrom s source with hfinished | hstalled
  · exact hfinished.errors
  · exact absurd (hstalled.behind last hlast).2 (Parse.isComplete_iff.mp hread)

/-- **The error of a line that fails is that of the candidate registered first, or of no candidate.** A handler runs, or
    a node is found to have none, only where no candidate failed; and where candidates failed with nothing to read, the
    error is that of the empty line itself. -/
theorem exists_blames (d : Dispatcher S) (s : Scanner) (source : S) {e : Error}
    (h : (d.execute (d.parseFrom s source)).1 = .error e) : ∃ others, (d.parseFrom s source).Blames e others := by
  have hordered := d.pairwise_errors_parseFrom s source
  have hnobody : (d.parseFrom s source).errors = [] → (d.parseFrom s source).Blames e (d.parseFrom s source).errors :=
    fun hnone => .nobody (by simp [hnone])
  rcases d.executes_or_refuses hordered with ⟨id, handler, hexecutes⟩ | ⟨e', hrefuses⟩
  · obtain ⟨last, hlast, _⟩ := hexecutes.last
    exact ⟨_, hnobody (d.errors_of_complete s source hexecutes.complete hlast)⟩
  · rw [d.execute_of_refuses s source hrefuses] at h
    obtain rfl := Except.error.inj h
    cases hrefuses with
    | @candidate id _ hread hmem hfirst =>
      have hhead := head?_errors hordered hmem hfirst
      cases herrors : (d.parseFrom s source).errors with
      | nil =>
        rw [herrors] at hhead
        cases hhead
      | cons first others =>
        rw [herrors] at hhead
        obtain rfl : first = (id, e') := Option.some.inj hhead
        exact ⟨others, .candidate hread herrors⟩
    | unknown _ hnone _ => exact ⟨_, hnobody hnone⟩
    | trailing _ hnone _ _ => exact ⟨_, hnobody hnone⟩
    | unfit _ hnone _ _ => exact ⟨_, hnobody hnone⟩
    | blank hread _ => exact ⟨_, d.blames_of_blank s source hread⟩
    | unfinished hread hlast _ => exact ⟨_, hnobody (d.errors_of_complete s source hread hlast)⟩

end Dispatcher

/-! ## What is shown -/

namespace Console

variable (c : Console S) {p : Parse S} {e : Error} {others : List (NodeId × Error)}

/-- How a candidate that failed is named: its usage, and what it failed with. -/
def named (failure : NodeId × Error) : String :=
  c.dispatcher.tree.usageOf failure.1 ++ ": " ++ failure.2.message

/-- If all failures are to be reported, those that failed besides are named, but for those that failed in the same way. -/
theorem diagnostics_of_blames (hreport : c.settings.report) (h : p.Blames e others) :
    c.diagnostics p e = (others.filter (·.2 ≠ e)).map c.named ++ [e.message] := by
  unfold diagnostics
  rw [if_pos hreport]
  cases h with
  | nobody hother => rfl
  | blank hread hmem hrefuses => rfl
  | candidate hread herrors =>
    rw [herrors, List.filter_cons_of_neg (by simp)]
    rfl

variable [Feedback S]

theorem diagnostics_runLine {line : String} {source : S} (h : (c.runLine line source).1.error = some e) :
    (c.runLine line source).1.diagnostics = c.diagnostics (c.parse line source) e := by
  have hexecute := (c.error_runLine line source e).mp h
  unfold runLine
  dsimp only
  rw [hexecute]

/-- **All candidates that failed besides are named, unless one of them failed in the same way as the one reported.** Let
    the failures of all candidates be reported. For every console, line and source such that the line fails with an
    error, this is that of the candidate that was registered first among those that failed, or of none of them. What is
    shown are lines in the order of registration, with the error's own text last; of those that failed besides, the ones
    with another error are named, each in a line of its own that starts with its usage. So every one of them is named
    exactly if none has this very error, of the same kind and at the same place. -/
theorem diagnostics_name_others_iff (hreport : c.settings.report) (line : String) (source : S) (e : Error)
    (herror : (c.runLine line source).1.error = some e) :
    let p := c.parse line source
    let shown := (c.runLine line source).1.diagnostics
    (p.errors.map Prod.fst).Pairwise (· < ·) ∧
    ∃ others, p.Blames e others ∧ shown = (others.filter (·.2 ≠ e)).map c.named ++ [e.message] ∧
      (shown = others.map c.named ++ [e.message] ↔ ∀ failure ∈ others, failure.2 ≠ e) := by
  intro p shown
  have hexecute := (c.error_runLine line source e).mp herror
  obtain ⟨others, hblames⟩ := c.dispatcher.exists_blames _ source hexecute
  have hshown : shown = (others.filter (·.2 ≠ e)).map c.named ++ [e.message] :=
    (c.diagnostics_runLine herror).trans (c.diagnostics_of_blames hreport hblames)
  refine ⟨c.dispatcher.pairwise_errors_parseFrom _ source, others, hblames, hshown, ?_⟩
  rw [hshown]
  constructor
  · intro hall
    -- As many lines as candidates: so none of them was left out.
    have hlength : (others.filter (·.2 ≠ e)).length = others.length := by
      simpa using congrArg List.length (List.append_cancel_right hall)
    simpa using List.length_filter_eq_length_iff.mp hlength
  · intro hother
    rw [List.filter_eq_self.mpr (by simpa using hother)]

/-- A number and a truth value below a word, with neither of them there: the truth value is named, with what it failed
    with, and the number's error comes last. -/
theorem diagnostics_name_others_iff_flag :
    let c : Console Unit :=
      { dispatcher := ({} : Dispatcher Unit).registerAll
          [((Declaration.literal "né").followedBy (.argument "n" (.int (Bounds.signed 32)))).followedBy
            (.argument "flag" .bool)] }
    let number : Error := ⟨.numberExpected .integer, some ⟨"né x", 4⟩⟩
    let truth : Error := ⟨.invalidBool "x", some ⟨"né x", 4⟩⟩
    c.settings.report ∧ (c.runLine "/né x" ()).1.error = some number ∧
      (c.runLine "/né x" ()).1.diagnostics = ["<flag>: " ++ truth.message, number.message] := by
  intro c number truth
  have herror : (c.runLine "/né x" ()).1.error = some number := by decide +kernel
  have herrors : (c.parse "/né x" ()).errors = [(2, number), (3, truth)] := by decide +kernel
  obtain ⟨_, others, hblames, _, hnamed⟩ := c.diagnostics_name_others_iff rfl "/né x" () number herror
  have hothers : others = [(3, truth)] := by
    cases hblames with
    | candidate _ hfirst => exact (List.cons.inj (hfirst.symm.trans herrors)).2
    | nobody hother => exact absurd rfl (hother (2, number) (by rw [herrors]; exact List.mem_cons_self))
    | blank hread => exact absurd hread (by decide +kernel)
  rw [hothers] at hnamed
  exact ⟨rfl, herror, hnamed.mpr (by decide)⟩

/-- Two numbers at one place: both fail in the same way, and the second one is not named. -/
theorem diagnostics_omit_twin :
    let c : Console Unit :=
      { dispatcher := ({} : Dispatcher Unit).registerAll
          [.argument "a" (.int (Bounds.signed 32)), .argument "b" (.int (Bounds.signed 32))] }
    let number : Error := ⟨.numberExpected .integer, some ⟨"x", 0⟩⟩
    c.settings.report ∧ (c.runLine "x" ()).1.error = some number ∧
      (c.parse "x" ()).errors = [(1, number), (2, number)] ∧ c.dispatcher.tree.usageOf 2 = "<b>" ∧
      (c.runLine "x" ()).1.diagnostics = [number.message] := by
  intro c number
  exact ⟨rfl, by decide +kernel, by decide +kernel, by decide +kernel, by decide +kernel⟩

end Console

end CommandGrammar
