import CommandGrammar.Dispatch
import CommandGrammar.Proofs.Ending

/-!
# `Proofs.Execution` — what running a line comes to

A line that was read is either run or refused, and which of the two is decided by what was read alone. Both are
stated as rules, without the order in which the cases are told apart:

* `Dispatcher.Executes` — the line runs the handler of a node: the whole line was read, and the node is the last
  one that matched and has this handler;
* `Dispatcher.Refuses` — the line is refused with an error, by one rule for each way in which it can be wrong;
* `Dispatcher.Journal` — a record that every handler extends by its own node, to count which handlers ran.

`handlerOf_of_executes` and `handlerOf_of_refuses` say that the rules are sound, `executes_or_refuses` that there is
always one that applies.
-/

namespace CommandGrammar

variable {S : Type}

theorem Parse.isComplete_iff {p : Parse S} : p.isComplete ↔ ¬ p.scanner.canRead := by simp [isComplete]

namespace Dispatcher

/-! ## The rules -/

/-- The line runs the handler of a node. -/
structure Executes (d : Dispatcher S) (p : Parse S) (id : NodeId) (handler : Handler S) : Prop where
  /-- The whole line was read. -/
  complete : p.isComplete
  /-- The node is the last one that matched. -/
  last : ∃ last ∈ p.trail.steps.getLast?, last.node = id
  /-- The handler is the node's own. -/
  handler_eq : d.tree.handlerAt? id = some handler

/-- The line is refused with an error. -/
inductive Refuses (d : Dispatcher S) (p : Parse S) : Error → Prop where
  /-- Of the candidates that failed where something was left over, this one was registered first. -/
  | candidate {id : NodeId} {e : Error} (hread : p.scanner.canRead) (hmem : (id, e) ∈ p.errors)
      (hfirst : ∀ failure ∈ p.errors, id ≤ failure.1) : Refuses d p e
  /-- Something was left over, no candidate failed, and nothing matched. -/
  | unknown (hread : p.scanner.canRead) (hnone : p.errors = []) (hsteps : p.trail.steps = []) :
      Refuses d p (p.scanner.error .unknownCommand)
  /-- Something was left over behind a node that nothing can follow. -/
  | trailing {last : Step} (hread : p.scanner.canRead) (hnone : p.errors = [])
      (hlast : last ∈ p.trail.steps.getLast?) (hleaf : d.tree.children last.node = []) :
      Refuses d p (p.scanner.error .separatorExpected)
  /-- Something was left over behind a node that something else could follow. -/
  | unfit {last : Step} (hread : p.scanner.canRead) (hnone : p.errors = [])
      (hlast : last ∈ p.trail.steps.getLast?) (hinner : d.tree.children last.node ≠ []) :
      Refuses d p (p.scanner.error .incorrectArgument)
  /-- There was nothing to read, and nothing matched. -/
  | blank (hread : p.isComplete) (hsteps : p.trail.steps = []) :
      Refuses d p (p.scanner.error .unknownCommand)
  /-- The last node that matched cannot be run. -/
  | unfinished {last : Step} (hread : p.isComplete) (hlast : last ∈ p.trail.steps.getLast?)
      (hnone : d.tree.handlerAt? last.node = none) :
      Refuses d p (p.scanner.error
        (.notExecutable (" ".intercalate (p.trail.steps.map fun step => d.tree.usageOf step.node))))

/-- Every handler of the grammar notes its own node in the journal, behind what stands there already. -/
def Journal (d : Dispatcher S) (journal : S → List NodeId) : Prop :=
  ∀ id handler, d.tree.handlerAt? id = some handler →
    ∀ context, journal (handler context).2 = journal context.source ++ [id]

/-! ## The rules are sound -/

variable {d : Dispatcher S} {p : Parse S}

theorem handlerOf_of_executes {id : NodeId} {handler : Handler S}
    (htrail : p.trail.handler = p.trail.steps.getLast?.bind fun last => d.tree.handlerAt? last.node)
    (h : d.Executes p id handler) : d.handlerOf p = .ok handler := by
  obtain ⟨last, hlast, rfl⟩ := h.last
  have hread : ¬ p.scanner.canRead := Parse.isComplete_iff.mp h.complete
  have hsteps : ¬ p.trail.steps.isEmpty := by
    simpa using List.ne_nil_of_mem (List.mem_of_getLast? hlast)
  have hhandler : p.trail.handler = some handler := by
    rw [htrail, hlast]
    exact h.handler_eq
  rw [handlerOf, if_neg hread, if_neg hsteps, hhandler]

/-- Errors that come in the order of registration start with that of the candidate registered first. -/
theorem head?_errors (hordered : (p.errors.map Prod.fst).Pairwise (· < ·)) {id : NodeId} {e : Error}
    (hmem : (id, e) ∈ p.errors) (hfirst : ∀ failure ∈ p.errors, id ≤ failure.1) :
    p.errors.head? = some (id, e) := by
  cases herrors : p.errors with
  | nil =>
    rw [herrors] at hmem
    cases hmem
  | cons first rest =>
    rw [herrors] at hordered hmem hfirst
    rcases List.mem_cons.mp hmem with rfl | hrest
    · rfl
    · -- A later entry has a greater id, so it is not the least one.
      have hle : id ≤ first.1 := hfirst first List.mem_cons_self
      have hlt : first.1 < id := List.rel_of_pairwise_cons hordered (List.mem_map_of_mem hrest)
      exact absurd hle (Nat.not_le_of_lt hlt)

theorem handlerOf_of_refuses {e : Error}
    (htrail : p.trail.handler = p.trail.steps.getLast?.bind fun last => d.tree.handlerAt? last.node)
    (hordered : (p.errors.map Prod.fst).Pairwise (· < ·)) (h : d.Refuses p e) : d.handlerOf p = .error e := by
  unfold handlerOf
  cases h with
  | candidate hread hmem hfirst =>
    rw [if_pos hread, head?_errors hordered hmem hfirst]
    rfl
  | unknown hread hnone hsteps =>
    rw [if_pos hread, hnone, leftover, hsteps]
    rfl
  | trailing hread hnone hlast hleaf =>
    rw [if_pos hread, hnone, leftover, hlast]
    simp [hleaf]
  | unfit hread hnone hlast hinner =>
    rw [if_pos hread, hnone, leftover, hlast]
    simp [hinner]
  | blank hread hsteps =>
    have hread : ¬ p.scanner.canRead := Parse.isComplete_iff.mp hread
    rw [if_neg hread, if_pos (by simp [hsteps])]
  | @unfinished last hread hlast hnone =>
    have hread : ¬ p.scanner.canRead := Parse.isComplete_iff.mp hread
    have hsteps : ¬ p.trail.steps.isEmpty := by
      simpa using List.ne_nil_of_mem (List.mem_of_getLast? hlast)
    have hhandler : p.trail.handler = none := by
      rw [htrail, hlast]
      exact hnone
    rw [if_neg hread, if_neg hsteps, hhandler]
    rfl

/-! ## One of them always applies -/

/-- Of errors in the order of registration one comes first. -/
theorem exists_first_error (hordered : (p.errors.map Prod.fst).Pairwise (· < ·)) (hne : p.errors ≠ []) :
    ∃ id e, (id, e) ∈ p.errors ∧ ∀ failure ∈ p.errors, id ≤ failure.1 := by
  cases herrors : p.errors with
  | nil => exact absurd herrors hne
  | cons first rest =>
    rw [herrors] at hordered
    refine ⟨first.1, first.2, List.mem_cons_self, ?_⟩
    intro failure hfailure
    rcases List.mem_cons.mp hfailure with rfl | hrest
    · exact Nat.le_refl _
    · exact Nat.le_of_lt (List.rel_of_pairwise_cons hordered (List.mem_map_of_mem hrest))

/-- **A line is run or refused.** -/
theorem executes_or_refuses (d : Dispatcher S) (hordered : (p.errors.map Prod.fst).Pairwise (· < ·)) :
    (∃ id handler, d.Executes p id handler) ∨ ∃ e, d.Refuses p e := by
  by_cases hread : p.scanner.canRead
  · right
    by_cases hnone : p.errors = []
    · cases hlast : p.trail.steps.getLast? with
      | none => exact ⟨_, .unknown hread hnone (List.getLast?_eq_none_iff.mp hlast)⟩
      | some last =>
        by_cases hleaf : d.tree.children last.node = []
        · exact ⟨_, .trailing hread hnone hlast hleaf⟩
        · exact ⟨_, .unfit hread hnone hlast hleaf⟩
    · obtain ⟨id, e, hmem, hfirst⟩ := exists_first_error hordered hnone
      exact ⟨e, .candidate hread hmem hfirst⟩
  · have hcomplete : p.isComplete := Parse.isComplete_iff.mpr hread
    cases hlast : p.trail.steps.getLast? with
    | none => exact .inr ⟨_, .blank hcomplete (List.getLast?_eq_none_iff.mp hlast)⟩
    | some last =>
      -- Everything was read, so only the last node's own handler is left to decide.
      cases hhandler : d.tree.handlerAt? last.node with
      | none => exact .inr ⟨_, .unfinished hcomplete hlast hhandler⟩
      | some handler => exact .inl ⟨last.node, handler, hcomplete, ⟨last, hlast, rfl⟩, hhandler⟩

/-! ## Lines that were read -/

theorem source_parseFrom (d : Dispatcher S) (s : Scanner) (source : S) :
    (d.parseFrom s source).trail.source = source :=
  ((d.outcome_parseFrom s source).granted ⟨rfl, by simp [Trail.start]⟩).1.1

theorem pairwise_errors_parseFrom (d : Dispatcher S) (s : Scanner) (source : S) :
    ((d.parseFrom s source).errors.map Prod.fst).Pairwise (· < ·) := by
  rcases d.finished_or_stalled_parseFrom s source with hfinished | hstalled
  · rw [hfinished.errors]
    exact List.Pairwise.nil
  · exact hstalled.ordered

theorem execute_of_executes (d : Dispatcher S) (s : Scanner) (source : S) {id : NodeId} {handler : Handler S}
    (h : d.Executes (d.parseFrom s source) id handler) :
    d.execute (d.parseFrom s source) = handler ((d.parseFrom s source).trail.build s.text) := by
  have htraces := (d.outcome_parseFrom s source).traces (d.tree.stands_start s source)
  rw [execute, handlerOf_of_executes htraces.handler h, d.input_parseFrom]

theorem execute_of_refuses (d : Dispatcher S) (s : Scanner) (source : S) {e : Error}
    (h : d.Refuses (d.parseFrom s source) e) : d.execute (d.parseFrom s source) = (.error e, source) := by
  have htraces := (d.outcome_parseFrom s source).traces (d.tree.stands_start s source)
  have hordered := d.pairwise_errors_parseFrom s source
  rw [execute, handlerOf_of_refuses htraces.handler hordered h, d.source_parseFrom]

/-- **A line is run by the handler of its last node, or refused for one reason.** For every grammar, strategy, source
    and place of a text, reading and then executing comes to exactly one of two things. Where the rule of `Executes`
    applies, the answer is that of the node's own handler on a context over the whole text; otherwise one of the rules
    of `Refuses` does, the answer is its error, and the source is what it was. An error taken from a candidate is that
    of an argument below the node where reading stopped, which the source may use and which fails there. And a journal
    in which every handler notes its node shows the one node whose handler ran, once, or nothing new. -/
theorem execute_runs_last_or_refuses (d : Dispatcher S) (s : Scanner) (source : S) :
    let p := d.parseFrom s source
    (∀ id handler, d.Executes p id handler → d.execute p = handler (p.trail.build s.text)) ∧
    (∀ e, d.Refuses p e → d.execute p = (.error e, source)) ∧
    Xor (∃ id handler, d.Executes p id handler) (∃ e, d.Refuses p e) ∧
    (∀ failure ∈ p.errors, d.tree.CandidateFails source p.trail.last p.scanner failure) ∧
    ∀ journal, d.Journal journal →
      (∀ id handler, d.Executes p id handler → journal (d.execute p).2 = journal source ++ [id]) ∧
      ((¬ ∃ id handler, d.Executes p id handler) → journal (d.execute p).2 = journal source) := by
  intro p
  have htraces := (d.outcome_parseFrom s source).traces (d.tree.stands_start s source)
  have hordered := d.pairwise_errors_parseFrom s source
  have hsome := d.executes_or_refuses hordered
  refine ⟨fun id handler => d.execute_of_executes s source, fun e => d.execute_of_refuses s source, ?_, ?_, ?_⟩
  · refine (xor_iff_or_and_not_and _ _).mpr ⟨hsome, ?_⟩
    rintro ⟨⟨id, handler, hexecutes⟩, e, hrefuses⟩
    -- Both would decide what the handler is, and differently.
    have hok := handlerOf_of_executes htraces.handler hexecutes
    rw [handlerOf_of_refuses htraces.handler hordered hrefuses] at hok
    cases hok
  · intro failure hfailure
    rcases d.finished_or_stalled_parseFrom s source with hfinished | hstalled
    · rw [hfinished.errors] at hfailure
      cases hfailure
    · exact hstalled.fails failure hfailure
  · intro journal hjournal
    constructor
    · intro id handler hexecutes
      have hsource : (p.trail.build s.text).source = source :=
        (p.trail.source_mapHandler _).trans (d.source_parseFrom s source)
      rw [d.execute_of_executes s source hexecutes, hjournal id handler hexecutes.handler_eq, hsource]
    · intro hnone
      obtain ⟨e, hrefuses⟩ := hsome.resolve_left hnone
      rw [d.execute_of_refuses s source hrefuses]

/-- A command and its argument can both be run, and each notes its node. With the argument given only the handler of
    the argument runs; with a separator too many behind it none does. -/
theorem execute_runs_last_or_refuses_inner :
    let d := ({} : Dispatcher (List NodeId)).registerAll
      [((Declaration.literal "né").runs fun c => (.ok (), c.source ++ [1])).followedBy
        ((Declaration.argument "n" (.int (Bounds.signed 32))).runs fun c => (.ok (), c.source ++ [2]))]
    d.Journal id ∧ (d.run "né 5" [7]).2 = [7, 2] ∧
      d.run "né 5 " [7] = (.error ⟨.separatorExpected, some ⟨"né 5 ", 5⟩⟩, [7]) := by
  intro d
  have hjournal : d.Journal id := by
    intro id handler hhandler context
    match id with
    | 0 => cases hhandler
    | 1 =>
      obtain rfl := Option.some.inj hhandler
      rfl
    | 2 =>
      obtain rfl := Option.some.inj hhandler
      rfl
    | _ + 3 => cases hhandler
  obtain ⟨_, _, _, _, hran⟩ := d.execute_runs_last_or_refuses (Scanner.ofString "né 5") [7]
  have hexecutes : d.Executes (d.parse "né 5" [7]) 2 fun c => (.ok (), c.source ++ [2]) :=
    ⟨by decide +kernel, ⟨⟨2, ⟨4, 5, by decide⟩⟩, by decide +kernel, rfl⟩, rfl⟩
  obtain ⟨_, hrefused, _⟩ := d.execute_runs_last_or_refuses (Scanner.ofString "né 5 ") [7]
  have hrefuses : d.Refuses (d.parse "né 5 " [7]) ⟨.separatorExpected, some ⟨"né 5 ", 5⟩⟩ := by
    have hlast : (⟨2, ⟨4, 5, by decide⟩⟩ : Step) ∈ (d.parse "né 5 " [7]).trail.steps.getLast? := by
      decide +kernel
    exact .trailing (by decide +kernel) (by decide +kernel) hlast rfl
  exact ⟨hjournal, (hran id hjournal).1 2 _ hexecutes, hrefused _ hrefuses⟩

end Dispatcher

end CommandGrammar
