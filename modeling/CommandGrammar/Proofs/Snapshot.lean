import CommandGrammar.Dispatch
import CommandGrammar.Proofs.Completion
import CommandGrammar.Proofs.Stray

/-!
# `Proofs.Snapshot` — the contexts that user code is given

A context is a trail together with a text, and its ranges are meant to be read from that text. A handler is given the
trail over the whole line. A provider is given the same trail over the part of the line in front of the cursor, and
the trail may reach further than that.

* `Context.Consistent` — every range of the context lies in its text and cuts no character;
* `Range.within_append_iff` — which ranges of a line lie in a part at its start;
* `Tree.Traces.stop_le`, `Tree.Traces.exists_step_of_captured` — all ranges of a trail are ranges of its steps, and
  none of them ends behind the last one;
* `Tree.Traces.consistent_build_iff` — hence the trail over a part of the line is consistent exactly when the whole
  range of the trail ends in that part.
-/

namespace CommandGrammar

variable {S : Type}

/-! ## Ranges in the first part of a line -/

theorem Text.isBoundary_left_iff {a b : String} {n : Nat} :
    IsBoundary a n ↔ IsBoundary (a ++ b) n ∧ n ≤ byteSize a := by
  constructor
  · intro h
    obtain ⟨c, e, rfl, rfl⟩ := h.exists_append
    rw [String.append_assoc]
    exact ⟨isBoundary_append c _, by simp⟩
  · rintro ⟨h, hle⟩
    obtain ⟨c, e, happend, rfl⟩ := h.exists_append
    obtain ⟨m, rfl⟩ := exists_append_of_byteSize_le happend hle
    exact isBoundary_append c m

namespace Range

/-- A range lies in the first part of a line when it lies in the line and ends in that part. -/
theorem within_append_iff {range : Range} {a b : String} :
    range.Within a ↔ range.Within (a ++ b) ∧ range.stop ≤ Text.byteSize a := by
  have hle := range.start_le_stop
  constructor
  · rintro ⟨hstart, hstop⟩
    have hfits := Text.isBoundary_left_iff (b := b).mp hstop
    exact ⟨⟨(Text.isBoundary_left_iff.mp hstart).1, hfits.1⟩, hfits.2⟩
  · rintro ⟨⟨hstart, hstop⟩, hfits⟩
    exact ⟨Text.isBoundary_left_iff.mpr ⟨hstart, Nat.le_trans hle hfits⟩,
      Text.isBoundary_left_iff.mpr ⟨hstop, hfits⟩⟩

/-- What a range covers can be read from a line exactly when the range lies in it. -/
theorem exists_text_iff {range : Range} {line : String} :
    (∃ text, range.text line = .ok text) ↔ range.Within line :=
  Fault.exists_slice_iff range.start_le_stop

end Range

/-! ## Consistent contexts -/

/-- **The context is consistent.** Its ranges lie in its text and cut no character. -/
structure Context.Consistent (c : Context S) : Prop where
  /-- What each node matched. -/
  steps : ∀ step ∈ c.trail.steps, step.range.Within c.input
  /-- What each argument was read from. -/
  captures : ∀ name capture, c.captured? name = some capture → capture.range.Within c.input
  /-- Everything that matched. -/
  range : c.trail.range.Within c.input

/-- Steps that follow each other end in that order. -/
theorem Trail.Adjoining.stop_le {steps : List Step} (h : Adjoining steps) {step last : Step} (hstep : step ∈ steps)
    (hlast : last ∈ steps.getLast?) : step.range.stop ≤ last.range.stop := by
  induction steps generalizing step with
  | nil => cases hstep
  | cons first rest ih =>
    -- The last step is looked for behind the first one, so a second one has to be there.
    cases rest with
    | nil =>
      obtain rfl := List.mem_singleton.mp hstep
      obtain rfl : step = last := Option.some.inj hlast
      exact Nat.le_refl _
    | cons next rest =>
      obtain ⟨hnext, hrest⟩ := List.isChain_cons_cons.mp h
      rw [List.getLast?_cons_cons] at hlast
      rcases List.mem_cons.mp hstep with rfl | hstep
      · have hle := ih hrest List.mem_cons_self hlast
        have hordered := next.range.start_le_stop
        omega
      · exact ih hrest hstep hlast

theorem Trail.locate_of_lt {H : Type} {trail : Trail S H} {cursor : Nat} (h : cursor < trail.range.start) :
    trail.locate cursor = .error (.beforeStart cursor trail.range.start) := by
  obtain ⟨_, _, _, _, _, _, _ | child⟩ := trail
  · rw [locate, if_pos h]
  · rw [locate, if_pos h]

namespace Tree.Traces

variable {t : Tree S} {text : String} {start : Nat} {trail : Trail S (Handler S)}

/-- No step ends behind the whole range. -/
theorem stop_le (h : t.Traces text start trail) {step : Step} (hstep : step ∈ trail.steps) :
    step.range.stop ≤ trail.range.stop := by
  rw [h.range.2]
  cases hlast : trail.steps.getLast? with
  | none =>
    rw [List.getLast?_eq_none_iff.mp hlast] at hstep
    cases hstep
  | some last => exact h.adjoining.stop_le hstep hlast

/-- What an argument was read from is what some step matched. -/
theorem exists_step_of_captured (h : t.Traces text start trail) {name : String} {c : Capture}
    (hc : trail.captures.lookup name = some c) : ∃ step ∈ trail.steps, step.range = c.range := by
  have hrel := h.captures name
  rw [hc] at hrel
  cases hfound : t.lastArgument? name trail.steps with
  | none =>
    rw [hfound] at hrel
    cases hrel
  | some found =>
    rw [hfound] at hrel
    cases hrel with
    | some hfits =>
      obtain ⟨step, hstep, hargument⟩ := List.mem_filterMap.mp (List.mem_of_getLast? hfound)
      obtain ⟨type, _, rfl⟩ := Option.map_eq_some_iff.mp hargument
      exact ⟨step, hstep, hfits.1.symm⟩

theorem within_captured (h : t.Traces text start trail) {name : String} {c : Capture}
    (hc : trail.captures.lookup name = some c) : c.range.Within text := by
  obtain ⟨step, hstep, hrange⟩ := h.exists_step_of_captured hc
  rw [← hrange]
  exact h.bounds step hstep

theorem within_range (h : t.Traces text start trail) (hstart : Text.IsBoundary text start) :
    trail.range.Within text := by
  constructor
  · rw [h.range.1]
    exact hstart
  · rw [h.range.2]
    cases hlast : trail.steps.getLast? with
    | none => exact hstart
    | some last => exact (h.bounds last (List.mem_of_getLast? hlast)).2

/-- **A trail over the first part of a line is consistent exactly when it ends there.** -/
theorem consistent_build_iff {a b : String} (h : t.Traces (a ++ b) start trail)
    (hstart : Text.IsBoundary (a ++ b) start) :
    (trail.build a).Consistent ↔ trail.range.stop ≤ Text.byteSize a := by
  constructor
  · intro hconsistent
    have hrange : (trail.mapHandler _).range.Within a := hconsistent.range
    rw [Trail.range_mapHandler] at hrange
    exact (Range.within_append_iff (b := b).mp hrange).2
  · intro hle
    have hsteps : ∀ step ∈ trail.steps, step.range.Within a := fun step hstep =>
      Range.within_append_iff.mpr ⟨h.bounds step hstep, Nat.le_trans (h.stop_le hstep) hle⟩
    refine ⟨?_, ?_, ?_⟩
    · show ∀ step ∈ (trail.mapHandler _).steps, _
      rw [Trail.steps_mapHandler]
      exact hsteps
    · intro name c hc
      rw [Context.captured?, Trail.build, Trail.captures_mapHandler] at hc
      obtain ⟨step, hstep, hrange⟩ := h.exists_step_of_captured hc
      rw [← hrange]
      exact hsteps step hstep
    · show (trail.mapHandler _).range.Within a
      rw [Trail.range_mapHandler]
      exact Range.within_append_iff.mpr ⟨h.within_range hstart, hle⟩

/-- Over the whole line a trail is consistent. -/
theorem consistent_build (h : t.Traces text start trail) (hstart : Text.IsBoundary text start) :
    (trail.build text).Consistent := by
  have hfits : trail.range.stop ≤ Text.byteSize text :=
    ((Text.isBoundary_left_iff (b := "")).mp (h.within_range hstart).2).2
  rw [← String.append_empty (s := text)] at h hstart
  exact (h.consistent_build_iff hstart).mpr hfits

end Tree.Traces

/-! ## What is handed out -/

namespace Dispatcher

/-- **Contexts are consistent up to the cursor.** For every grammar, strategy, source and place of a text, a handler
    that is run gets the trail over the whole text, which is consistent, and the text of each captured argument can be
    read from it. When the suggestions at a cursor are asked for, every child of the slot's node gets the trail over
    the text in front of the cursor. That context is consistent exactly when nothing that matched ends behind the
    cursor, and the text of a captured argument can be read from it exactly when the argument does not. A cursor in
    front of the place where reading started stops the request before anybody is asked. -/
theorem contexts_consistent_up_to_cursor (d : Dispatcher S) (s : Scanner) (source : S) :
    let p := d.parseFrom s source
    (∀ handler, d.handlerOf p = .ok handler → d.execute p = handler (p.trail.build s.text)) ∧
    (p.trail.build s.text).Consistent ∧
    (∀ name c, (p.trail.build s.text).captured? name = some c → ∃ text, c.range.text s.text = .ok text) ∧
    (∀ cursor, cursor < s.cursor → d.complete p cursor = .error (.beforeStart cursor s.cursor)) ∧
    ∀ cursor, s.cursor ≤ cursor → Text.IsBoundary s.text cursor → ∃ slot typed b,
      p.trail.locate cursor = .ok slot ∧ Fault.before s.text cursor = .ok typed ∧
      d.complete p cursor = ((d.tree.children slot.parent).mapM fun child =>
        d.contribution (p.trail.build typed) b child.1).bind (Suggestions.merge s.text) ∧
      ((p.trail.build typed).Consistent ↔ p.trail.range.stop ≤ cursor) ∧
      ∀ name c, (p.trail.build typed).captured? name = some c →
        ((∃ text, c.range.text typed = .ok text) ↔ c.range.stop ≤ cursor) := by
  intro p
  have hinput : p.input = s.text := d.input_parseFrom s source
  have htraces : d.tree.Traces s.text s.cursor p.trail :=
    (d.outcome_parseFrom s source).traces (d.tree.stands_start s source)
  have hwhole : (p.trail.build s.text).Consistent := htraces.consistent_build s.isBoundary_cursor
  refine ⟨?_, hwhole, ?_, ?_, ?_⟩
  · intro handler hhandler
    rw [execute, hhandler, hinput]
  · intro name c hc
    exact Range.exists_text_iff.mpr (hwhole.captures name c hc)
  · intro cursor hlt
    rw [complete, Trail.locate_of_lt (htraces.range.1.symm ▸ hlt), htraces.range.1]
    rfl
  · intro cursor hstart hcursor
    -- What is in front of the cursor is `left ++ token`, and that is the text of the context.
    obtain ⟨slot, left, token, right, hslot, htext, hleft, hsize⟩ :=
      d.exists_token_parseFrom s source hstart hcursor
    rw [← hsize] at hslot ⊢
    have hcomplete := d.complete_of_token (htext.trans hinput.symm) hslot hleft.symm
    rw [hinput] at hcomplete
    have hstartBoundary := s.isBoundary_cursor
    rw [← htext] at htraces hstartBoundary ⊢
    refine ⟨slot, left ++ token, Builder.token left token, hslot, Fault.before_append _ right, ?_,
      htraces.consistent_build_iff hstartBoundary, ?_⟩
    · rw [htext]
      exact hcomplete
    · intro name c hc
      rw [Context.captured?, Trail.build, Trail.captures_mapHandler] at hc
      have hwithin : c.range.Within (left ++ token ++ right) := htraces.within_captured hc
      rw [Range.exists_text_iff, Range.within_append_iff]
      exact and_iff_right hwithin

/-- **A provider can be given an argument that its context does not hold.** The whole line was read as a word and an
    argument, and the cursor stands in front of the argument. The provider of the argument is given what was captured
    and only the text in front of the cursor; reading the captured text from its context is a fault. -/
theorem complete_faults_on_captured_text :
    let echo := (Declaration.argument "to" .word : Declaration Unit).offers fun context b =>
      match context.captured? "to" with
      | none => .ok .empty
      | some c => (((c.range.text context.input).bind b.suggest).bind Builder.build).mapError Failure.fault
    let d : Dispatcher Unit :=
      { tree := (({} : Dispatcher Unit).registerAll [(Declaration.literal "go").followedBy echo]).tree
        settings := { isolate := false } }
    let p := d.parse "go far" ()
    Text.IsBoundary "go far" 3 ∧ (p.trail.build "go far").Consistent ∧ ¬ (p.trail.build "go ").Consistent ∧
      d.complete p 3 = .error .badSlice := by
  intro echo d p
  refine ⟨by decide, ?_, ?_, by decide +kernel⟩
  · exact ((d.outcome_parseFrom _ ()).traces (d.tree.stands_start _ ())).consistent_build (Scanner.isBoundary_cursor _)
  · intro hconsistent
    have hstray : ¬ (p.trail.build "go ").trail.range.Within "go " := by decide +kernel
    exact hstray hconsistent.range

end Dispatcher

end CommandGrammar
