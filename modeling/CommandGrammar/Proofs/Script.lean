import CommandGrammar.Program
import CommandGrammar.Proofs.Play

/-!
# `Proofs.Script` — a session does what its lines do

A session is fed by an editor, which also hands over interrupts, blank lines and the end of the input; the lines of a
command line are simply run one after the other. Apart from what is shown in between, the two come to the same:

* `LawfulFeedback` — sources that hand over what was said only once;
* `Event.requests` — the lines that a script asks to run;
* `Session.Transcript.Follows` — what a session makes of lines: each is remembered, then run, and nothing else is
  done. `follows_respond_idle` and `follows_respond_line` are its steps, `follows_converse` is the run;
* `Console.Tells` — what is shown about a line is what its own handler said, and `Console.quiet_runLines` — nothing
  is left over for another line;
* `Session.run_agrees_with_commands` — both drivers together.
-/

namespace CommandGrammar

variable {S : Type}

/-! ## Sources -/

/-- What was said and not handed over yet. -/
def Feedback.pending [Feedback S] (source : S) : List String := (Feedback.drain source).1

/-- Sources that forget what they hand over. -/
class LawfulFeedback (S : Type) [Feedback S] : Prop where
  /-- Nothing is left behind. -/
  pending_drained (source : S) : Feedback.pending (Feedback.drain source).2 = []

instance : LawfulFeedback Demo.Player := ⟨fun _ => rfl⟩

/-! ## Scripts -/

namespace Event

/-- The line that an event asks to run. -/
def request? : Event → Option String
  | line text => if Text.allBlank text then none else some text
  | interrupt => none
  | endOfInput => none
  | failure _ => none

/-- The lines that a script asks to run: those that are not blank, up to the first end of the input. -/
def requests (events : List Event) : List String := (events.takeWhile (· ≠ endOfInput)).filterMap request?

/-- The event asks for nothing: it is an interrupt or a blank line. -/
def Idle : Event → Prop
  | line text => Text.allBlank text
  | interrupt => True
  | endOfInput => False
  | failure _ => False

variable {event : Event} {events : List Event}

theorem requests_endOfInput : requests (endOfInput :: events) = [] := rfl

theorem requests_cons (h : event ≠ endOfInput) :
    requests (event :: events) = event.request?.toList ++ requests events := by
  rw [requests, List.takeWhile_cons_of_pos (by simpa using h), List.filterMap_cons]
  cases event.request? <;> rfl

theorem Idle.ne_endOfInput (h : event.Idle) : event ≠ endOfInput := by
  rintro rfl
  exact h

theorem Idle.request?_eq_none (h : event.Idle) : event.request? = none := by
  cases event with
  | line text => exact if_pos h
  | interrupt => rfl
  | endOfInput => rfl
  | failure f => rfl

theorem requests_idle (h : event.Idle) : requests (event :: events) = requests events := by
  rw [requests_cons h.ne_endOfInput, h.request?_eq_none]
  rfl

/-- An idle event can be left out wherever it stands. -/
theorem requests_append_idle (h : event.Idle) (before : List Event) :
    requests (before ++ event :: events) = requests (before ++ events) := by
  induction before with
  | nil => exact requests_idle h
  | cons first before ih =>
    rw [List.cons_append, List.cons_append]
    by_cases hend : first = endOfInput
    · rw [hend, requests_endOfInput, requests_endOfInput]
    · rw [requests_cons hend, requests_cons hend, ih]

end Event

/-! ## Lines run one after the other -/

namespace Console

variable [Feedback S] (c : Console S)

theorem runLines_cons (source : S) (line : String) (lines : List String) :
    c.runLines source (line :: lines)
      = ((c.runLine line source).1 :: (c.runLines (c.runLine line source).2 lines).1,
          (c.runLines (c.runLine line source).2 lines).2) := rfl

theorem runLines_append (source : S) (front back : List String) :
    c.runLines source (front ++ back)
      = ((c.runLines source front).1 ++ (c.runLines (c.runLines source front).2 back).1,
          (c.runLines (c.runLines source front).2 back).2) := by
  induction front generalizing source with
  | nil => rfl
  | cons line front ih =>
    rw [List.cons_append, runLines_cons, ih, runLines_cons]
    rfl

theorem length_runLines (source : S) (lines : List String) : (c.runLines source lines).1.length = lines.length := by
  induction lines generalizing source with
  | nil => rfl
  | cons line lines ih => rw [runLines_cons, List.length_cons, ih, List.length_cons]

/-! ### What is said about a line -/

theorem feedback_runLine (line : String) (source : S) :
    (c.runLine line source).1.feedback = Feedback.pending (c.dispatcher.execute (c.parse line source)).2 := by
  unfold runLine
  dsimp only
  cases (c.dispatcher.execute (c.parse line source)).1 <;> rfl

theorem error_runLine (line : String) (source : S) (e : Error) :
    (c.runLine line source).1.error = some e ↔ (c.dispatcher.execute (c.parse line source)).1 = .error e := by
  unfold runLine
  dsimp only
  cases (c.dispatcher.execute (c.parse line source)).1 with
  | ok _ => exact iff_of_false nofun nofun
  | error found =>
    constructor
    · intro h
      exact congrArg Except.error (Option.some.inj h)
    · intro h
      exact congrArg some (Except.error.inj h)

/-- **What is shown about a line is what its own handler said.** -/
structure Tells (line : String) (source : S) (outcome : Outcome) : Prop where
  /-- A line without a handler to run fails and says nothing. -/
  refused : ∀ e, c.dispatcher.handlerOf (c.parse line source) = .error e →
    outcome.error = some e ∧ outcome.feedback = []
  /-- A handler is run on behalf of the source. What it adds to what was said is shown, and that it fails is shown
      when it does. -/
  ran : ∀ handler, c.dispatcher.handlerOf (c.parse line source) = .ok handler →
    let context := (c.parse line source).trail.build (c.command line)
    context.source = source ∧ (∀ e, outcome.error = some e ↔ (handler context).1 = .error e) ∧
      Feedback.pending (handler context).2 = Feedback.pending source ++ outcome.feedback

theorem tells_runLine {source : S} (h : Feedback.pending source = []) (line : String) :
    c.Tells line source (c.runLine line source).1 where
  refused := by
    intro e hrefused
    have hexecute : c.dispatcher.execute (c.parse line source) = (.error e, source) := by
      rw [Dispatcher.execute, hrefused, parse, Dispatcher.parse, Dispatcher.source_parseFrom]
    rw [error_runLine, feedback_runLine, hexecute]
    exact ⟨rfl, h⟩
  ran := by
    intro handler hhandler context
    have hinput : (c.parse line source).input = c.command line :=
      (c.dispatcher.input_parseFrom _ source).trans String.ofList_toList
    have hexecute : c.dispatcher.execute (c.parse line source) = handler context := by
      rw [Dispatcher.execute, hhandler, hinput]
    refine ⟨?_, fun e => ?_, ?_⟩
    · exact (Trail.source_mapHandler _ _).trans (c.dispatcher.source_parseFrom _ source)
    · rw [error_runLine, hexecute]
    · rw [feedback_runLine, hexecute, h, List.nil_append]

variable [LawfulFeedback S]

theorem quiet_runLine (line : String) (source : S) : Feedback.pending (c.runLine line source).2 = [] := by
  rw [source_runLine]
  exact LawfulFeedback.pending_drained _

/-- Nothing that was said is carried over to the lines that follow. -/
theorem quiet_runLines {source : S} (h : Feedback.pending source = []) (lines : List String) :
    Feedback.pending (c.runLines source lines).2 = [] := by
  induction lines generalizing source with
  | nil => exact h
  | cons line lines ih => exact ih (c.quiet_runLine line source)

end Console

/-! ## What a session does about lines -/

namespace Deed

/-- Each line is remembered, then run. -/
def script (lines : List String) (outcomes : List Outcome) : List Deed :=
  (lines.zip outcomes).flatMap fun done => [record done.1, run done.1 done.2]

theorem script_cons (line : String) (lines : List String) (outcome : Outcome) (outcomes : List Outcome) :
    script (line :: lines) (outcome :: outcomes) = [record line, run line outcome] ++ script lines outcomes := rfl

variable {lines : List String} {outcomes : List Outcome}

theorem filterMap_script (h : outcomes.length = lines.length) :
    (script lines outcomes).filterMap recorded? = lines ∧ (script lines outcomes).filterMap outcome? = outcomes := by
  induction lines generalizing outcomes with
  | nil =>
    rw [List.eq_nil_of_length_eq_zero h]
    exact ⟨rfl, rfl⟩
  | cons line lines ih =>
    cases outcomes with
    | nil => cases h
    | cons outcome outcomes =>
      obtain ⟨hlines, houtcomes⟩ := ih (Nat.succ.inj h)
      rw [script_cons, List.filterMap_append, List.filterMap_append, hlines, houtcomes]
      exact ⟨rfl, rfl⟩

end Deed

namespace Session

variable [Feedback S] {c : Console S} {source : S} {lines : List String} {t : Transcript S}

/-- **What a session makes of lines.** -/
structure Transcript.Follows (c : Console S) (source : S) (lines : List String) (t : Transcript S) : Prop where
  /-- The session ends well. -/
  result_eq : t.result = .ok ()
  /-- The source is as the lines leave it. -/
  source_eq : t.source = (c.runLines source lines).2
  /-- Each line is remembered, then run; nothing else is done. -/
  deeds_eq : t.deeds = Deed.script lines (c.runLines source lines).1

theorem Transcript.Follows.outcomes_eq (h : t.Follows c source lines) : t.outcomes = (c.runLines source lines).1 := by
  rw [outcomes, h.deeds_eq]
  exact (Deed.filterMap_script (c.length_runLines source lines)).2

theorem Transcript.Follows.history_eq (h : t.Follows c source lines) : t.history = lines := by
  rw [history, h.deeds_eq]
  exact (Deed.filterMap_script (c.length_runLines source lines)).1

variable {session : Session S} {event : Event} {events : List Event}

theorem converse_of_respond {r : Response S} (h : session.respond source event = r) (hgoes : r.ending = none) :
    session.converse source (event :: events) = (session.converse r.source events).after r := by
  rw [converse, h]
  simp only [hgoes]

/-- **Step.** An idle event leaves everything to what follows it. -/
theorem follows_respond_idle (h : event.Idle)
    (hrest : (session.converse source events).Follows session.console source lines) :
    (session.converse source (event :: events)).Follows session.console source lines := by
  -- The answer changes neither the source nor what was done, whichever of the two the event is.
  have hanswer : ∃ output, session.respond source event = { source, output } := by
    cases event with
    | line text => exact ⟨{}, if_pos h⟩
    | interrupt => exact ⟨_, rfl⟩
    | endOfInput => exact h.elim
    | failure f => exact h.elim
  obtain ⟨output, hanswer⟩ := hanswer
  rw [converse_of_respond hanswer rfl]
  exact ⟨hrest.result_eq, hrest.source_eq, hrest.deeds_eq⟩

/-- **Step.** A line that is not blank is remembered and run, and what follows goes on from there. -/
theorem follows_respond_line {text : String} (h : ¬ Text.allBlank text)
    (hrest : (session.converse (session.console.runLine text source).2 events).Follows session.console
      (session.console.runLine text source).2 lines) :
    (session.converse source (.line text :: events)).Follows session.console source (text :: lines) := by
  have hanswer : session.respond source (.line text) =
      { source := (session.console.runLine text source).2
        output := (session.console.runLine text source).1.output
        deeds := [.record text, .run text (session.console.runLine text source).1] } := if_neg h
  rw [converse_of_respond hanswer rfl]
  refine ⟨hrest.result_eq, hrest.source_eq, ?_⟩
  rw [Console.runLines_cons, Deed.script_cons, ← hrest.deeds_eq]
  rfl

/-- **Run.** A session over a script follows the lines that the script asks to run. -/
theorem follows_converse (session : Session S) (source : S) (hscript : ∀ failure, .failure failure ∉ events) :
    (session.converse source events).Follows session.console source (Event.requests events) := by
  induction events generalizing source with
  | nil => exact ⟨rfl, rfl, rfl⟩
  | cons event events ih =>
    have hrest := fun source => ih source fun failure hmem => hscript failure (List.mem_cons_of_mem _ hmem)
    cases event with
    | line text =>
      by_cases hblank : Text.allBlank text
      · have hidle : Event.Idle (.line text) := hblank
        rw [Event.requests_idle hidle]
        exact follows_respond_idle hidle (hrest source)
      · have hrequest : Event.request? (.line text) = some text := if_neg hblank
        have hline : Event.line text ≠ .endOfInput := nofun
        rw [Event.requests_cons hline, hrequest]
        exact follows_respond_line hblank (hrest _)
    | interrupt =>
      have hidle : Event.Idle .interrupt := trivial
      rw [Event.requests_idle hidle]
      exact follows_respond_idle hidle (hrest source)
    | endOfInput => exact ⟨rfl, rfl, rfl⟩
    | failure f => exact absurd List.mem_cons_self (hscript f)

theorem follows_run (session : Session S) (source : S) (hscript : ∀ failure, .failure failure ∉ events) :
    (session.run source events).Follows session.console source (Event.requests events) :=
  have h := follows_converse session source hscript
  ⟨h.result_eq, h.source_eq, h.deeds_eq⟩

end Session

/-! ## The lines of a command line -/

namespace Program

theorem runCommands_succeeds_iff [Feedback S] (c : Console S) (source : S) (lines : List String) :
    (runCommands c source lines).2 = true ↔ ∀ outcome ∈ (c.runLines source lines).1, outcome.isSuccess :=
  List.all_eq_true

theorem Status.code_ofBool (success : Bool) : (Status.ofBool success).code = 0 ↔ success = true := by
  cases success with
  | false => exact iff_of_false nofun nofun
  | true => exact iff_of_true rfl rfl

/-- A command line with lines to run does nothing but run them. -/
theorem start_of_commands {words : List String} {options : Options} (hparse : Options.parse words = .ok options)
    (hhelp : options.help = false) (hversion : options.version = false) (hne : options.commands ≠ []) :
    start words =
      let done := runCommands (console options) { permission := options.permission } options.commands
      .finished done.1 (.ofBool done.2) := by
  have hempty : options.commands.isEmpty = false := by rwa [List.isEmpty_eq_false_iff]
  rw [start, hparse]
  simp only [hhelp, hversion, hempty, Bool.false_eq_true, if_false]

end Program

/-! ## Both drivers -/

/-- **A session comes to what its lines come to on a command line.** Over every script of lines, interrupts and an end
    of the input, and from a source for which nothing is left to be said:

    * exactly the lines that are not blank and come before the first end of the input are run, in their order, each
      after it was remembered once; interrupts and blank lines change nothing;
    * the outcomes and the source in the end are those of running these lines one after the other, and so is what a
      command line shows of them;
    * what is shown about a line is what its own handler said, also when it failed, and nothing is left for another
      line;
    * a command line with these lines succeeds if and only if all outcomes are successes. -/
theorem Session.run_agrees_with_commands [Feedback S] [LawfulFeedback S] (session : Session S) (source : S)
    (hquiet : Feedback.pending source = []) (events : List Event) (hscript : ∀ failure, .failure failure ∉ events) :
    let c := session.console
    let lines := Event.requests events
    let t := session.run source events
    (t.result = .ok () ∧ t.deeds = Deed.script lines t.outcomes ∧ t.history = lines ∧
      t.outcomes = (c.runLines source lines).1 ∧ t.source = (c.runLines source lines).2) ∧
    (∀ before idle after, events = before ++ idle :: after → idle.Idle →
      let t' := session.run source (before ++ after)
      t'.result = t.result ∧ t'.deeds = t.deeds ∧ t'.source = t.source) ∧
    (∀ before line after, lines = before ++ line :: after →
      let current := (c.runLines source before).2
      Feedback.pending current = [] ∧
        ∃ outcome, t.outcomes[before.length]? = some outcome ∧ c.Tells line current outcome) ∧
    Feedback.pending t.source = [] ∧
    ((Program.runCommands c source lines).1 = Output.concat (t.outcomes.map Outcome.output) ∧
      ((Program.runCommands c source lines).2 = true ↔ ∀ outcome ∈ t.outcomes, outcome.isSuccess)) ∧
    (∀ words options, Options.parse words = .ok options → options.help = false → options.version = false →
      options.commands = lines → lines ≠ [] →
      let player : Demo.Player := { permission := options.permission }
      ∃ status, Program.start words
          = .finished (Program.runCommands (Program.console options) player lines).1 status ∧
        (status.code = 0 ↔
          ∀ outcome ∈ ((Program.console options).runLines player lines).1, outcome.isSuccess)) := by
  intro c lines t
  have hfollows : t.Follows c source lines := follows_run session source hscript
  refine ⟨⟨hfollows.result_eq, ?_, hfollows.history_eq, hfollows.outcomes_eq, hfollows.source_eq⟩, ?_, ?_, ?_, ?_, ?_⟩
  · rw [hfollows.outcomes_eq]
    exact hfollows.deeds_eq
  · rintro before idle after rfl hidle
    have hscript' : ∀ failure, .failure failure ∉ before ++ after := by
      intro failure hmem
      refine hscript failure ?_
      rcases List.mem_append.mp hmem with hbefore | hafter
      · exact List.mem_append_left _ hbefore
      · exact List.mem_append_right _ (List.mem_cons_of_mem _ hafter)
    have hfollows' := follows_run session source hscript'
    rw [← Event.requests_append_idle hidle] at hfollows'
    exact ⟨hfollows'.result_eq.trans hfollows.result_eq.symm, hfollows'.deeds_eq.trans hfollows.deeds_eq.symm,
      hfollows'.source_eq.trans hfollows.source_eq.symm⟩
  · intro before line after hlines current
    have hcurrent : Feedback.pending current = [] := c.quiet_runLines hquiet before
    refine ⟨hcurrent, (c.runLine line current).1, ?_, c.tells_runLine hcurrent line⟩
    rw [hfollows.outcomes_eq, hlines, Console.runLines_append, Console.runLines_cons,
      List.getElem?_append_right (Nat.le_of_eq (c.length_runLines source before)), c.length_runLines, Nat.sub_self]
    rfl
  · rw [hfollows.source_eq]
    exact c.quiet_runLines hquiet lines
  · rw [hfollows.outcomes_eq]
    exact ⟨rfl, Program.runCommands_succeeds_iff c source lines⟩
  · intro words options hparse hhelp hversion hcommands hne player
    have hstart := Program.start_of_commands hparse hhelp hversion (hcommands ▸ hne)
    rw [hcommands] at hstart
    exact ⟨_, hstart, (Program.Status.code_ofBool _).trans (Program.runCommands_succeeds_iff _ player lines)⟩

/-- A handler that says something and fails, an interrupt, a blank line, a handler that says something else, and a
    line behind the end of the input. The program knows neither line, so there it fails on both. -/
theorem Session.run_agrees_with_commands_grumbling :
    let grumble : Handler Demo.Player := fun context => (.error ⟨.commandFailed "no", none⟩, context.source.say "grr")
    let hum : Handler Demo.Player := fun context => (.ok (), context.source.say "hm")
    let d := ({} : Dispatcher Demo.Player).registerAll
      [(Declaration.literal "grumble").runs grumble, (Declaration.literal "hum").runs hum]
    let session : Session Demo.Player := { console := { dispatcher := d } }
    let events := [.line "/grumble", .interrupt, .line " \t", .line "hum", .endOfInput, .line "hum"]
    let t := session.run {} events
    Feedback.pending ({} : Demo.Player) = [] ∧ (∀ failure, .failure failure ∉ events) ∧
      t.history = ["/grumble", "hum"] ∧ t.outcomes.map Outcome.feedback = [["grr"], ["hm"]] ∧
      t.outcomes.map Outcome.isSuccess = [false, true] ∧ Feedback.pending t.source = [] ∧
      ∃ output status, Program.start ["-c", "/grumble", "-c", "hum"] = .finished output status ∧
        status.code ≠ 0 := by
  intro grumble hum d session events t
  have hscript : ∀ failure, .failure failure ∉ events := by simp [events]
  obtain ⟨⟨_, _, hhistory, houtcomes, _⟩, _, _, hquiet, _, hprogram⟩ :=
    run_agrees_with_commands session {} rfl events hscript
  have hlines : Event.requests events = ["/grumble", "hum"] := by decide
  rw [hlines] at hhistory houtcomes hprogram
  have hfeedback : (session.console.runLines {} ["/grumble", "hum"]).1.map Outcome.feedback = [["grr"], ["hm"]] := by
    decide +kernel
  have hsuccess : (session.console.runLines {} ["/grumble", "hum"]).1.map Outcome.isSuccess = [false, true] := by
    decide +kernel
  have hunknown : ¬ ∀ outcome ∈
      ((Program.console { commands := ["/grumble", "hum"] }).runLines {} ["/grumble", "hum"]).1,
        outcome.isSuccess := by
    decide +kernel
  have hparse : Options.parse ["-c", "/grumble", "-c", "hum"] = .ok { commands := ["/grumble", "hum"] } := by decide
  obtain ⟨status, hstart, hcode⟩ := hprogram _ _ hparse rfl rfl rfl (List.cons_ne_nil _ _)
  refine ⟨rfl, hscript, hhistory, ?_, ?_, hquiet, _, status, hstart, fun hzero => hunknown (hcode.mp hzero)⟩
  · rw [houtcomes, hfeedback]
  · rw [houtcomes, hsuccess]

end CommandGrammar
