import CommandGrammar.Proofs.Replacement
import CommandGrammar.Proofs.Slot
import CommandGrammar.Suggestion.Builder

/-!
# `Proofs.Token` — the token at a cursor

Completing a line starts from the slot that the cursor stands in: the text from there up to the cursor is the
token to be completed. This module ties the two together for every line that was read:

* `Tree.Outcome.root_eq` — the slots of a line start below the node at which reading started;
* `Dispatcher.exists_token_parseFrom` — with the cursor between two characters, the line falls into what stands
  in front of the token, the token, and what stands behind the cursor;
* `Builder.remaining_ofStart` — a builder for that token can be made and holds it;
* `Dispatcher.locate_finds_greatest_slot` — locating is to take the last slot that does not start behind the
  cursor, with all that follows from it.
-/

namespace CommandGrammar

variable {S : Type}

namespace Tree

variable {t : Tree S} {node : NodeId} {s : Scanner} {trail : Trail S (Handler S)}

theorem root_of_mem_successes {m : Matched S} (hm : m ∈ successes (t.attempts node s trail)) :
    m.trail.root = trail.root := by
  obtain ⟨b, id, _, _, hattempt⟩ := mem_successes_iff.mp hm
  obtain ⟨_, _, _, _, _, _, hcases⟩ := Branch.attempt_cases hattempt
  rcases hcases with ⟨_, _, htrail⟩ | ⟨_, _, _, _, _, _, htrail⟩
  · rw [htrail]
    rfl
  · rw [htrail]
    rfl

/-- However reading goes on, the trail keeps the node at which it started. -/
theorem Outcome.root_eq {p : Parse S} (h : t.Outcome node s trail p) : p.trail.root = trail.root := by
  induction h with
  | stalled _ => rfl
  | finished hm _ => exact root_of_mem_successes hm
  | followed hm _ _ ih => exact ih.trans (root_of_mem_successes hm)

end Tree

/-- A builder for the token `typed` behind `left` can be made, and holds the token. -/
theorem Builder.remaining_ofStart (left typed : String) :
    ofStart (left ++ typed) (Text.byteSize left) = .ok ⟨left ++ typed, Text.byteSize left, []⟩ ∧
      remaining ⟨left ++ typed, Text.byteSize left, []⟩ = .ok typed :=
  ⟨if_pos (by simp), Fault.after_append left typed⟩

namespace Dispatcher

theorem input_parseFrom (d : Dispatcher S) (s : Scanner) (source : S) :
    (d.parseFrom s source).input = s.text :=
  ((d.outcome_parseFrom s source).rests ⟨rfl, by simp [Trail.start]⟩).1.text_eq

/-- The slots of a line that was read: the place where reading started, below the root of the grammar, and the
    places behind the nodes that matched. -/
theorem slots_parseFrom (d : Dispatcher S) (s : Scanner) (source : S) :
    (d.parseFrom s source).trail.slots
      = ⟨0, s.cursor⟩ :: (d.parseFrom s source).trail.steps.map Trail.Slot.behind := by
  have houtcome := d.outcome_parseFrom s source
  have hroot : (d.parseFrom s source).trail.root = 0 := houtcome.root_eq
  have hstart := (houtcome.traces (d.tree.stands_start s source)).range.1
  rw [Trail.slots, hroot, hstart]

/-- **The token at a cursor.** A cursor between two characters divides the line, and the slot that it stands in
    divides what is in front of it. -/
theorem exists_token_parseFrom (d : Dispatcher S) (s : Scanner) (source : S) {cursor : Nat}
    (hstart : s.cursor ≤ cursor) (hcursor : Text.IsBoundary s.text cursor) :
    ∃ slot left typed right, (d.parseFrom s source).trail.locate cursor = .ok slot ∧
      left ++ typed ++ right = s.text ∧ Text.byteSize left = slot.start ∧
      Text.byteSize (left ++ typed) = cursor := by
  obtain ⟨front, back, htext, hsize⟩ := hcursor.exists_append
  have hend : cursor ≤ Text.byteSize s.text := by
    rw [← htext, ← hsize, Text.byteSize_append]
    exact Nat.le_add_right _ _
  obtain ⟨slot, hslot, hholds, hboundary⟩ := d.exists_locate_parseFrom s source hstart hend
  obtain ⟨left, typed, right, hline, hleft, htyped⟩ := hboundary.exists_between hcursor hholds.start_le
  exact ⟨slot, left, typed, right, hslot, hline, hleft, htyped⟩

/-- **Locating a cursor finds the greatest slot.** In a line that was read, the slots are the start, below the
    root, and the places one byte behind each node that matched; they come in the order of their starts. A cursor
    from the start on is located in the slot with the greatest start that does not exceed it. So no node that
    matched begins between that start and the cursor, a later cursor never has an earlier slot, and the slot does
    not start inside a character. With the cursor between characters as well, the builder that completing makes
    for the token can be made, and the token can be read from it. -/
theorem locate_finds_greatest_slot (d : Dispatcher S) (s : Scanner) (source : S) (cursor : Nat)
    (hstart : s.cursor ≤ cursor) (hend : cursor ≤ Text.byteSize s.text) :
    let trail := (d.parseFrom s source).trail
    let slots : List Trail.Slot :=
      ⟨0, s.cursor⟩ :: trail.steps.map fun step => ⟨step.node, step.range.stop + 1⟩
    slots.Pairwise (fun a b => a.start < b.start) ∧
    ∃ slot, trail.locate cursor = .ok slot ∧ slot ∈ slots ∧ slot.start ≤ cursor ∧
      (∀ other ∈ slots, other.start ≤ cursor → other.start ≤ slot.start) ∧
      (∀ step ∈ trail.steps, ¬ (slot.start < step.range.start ∧ step.range.start ≤ cursor)) ∧
      (∀ later, cursor ≤ later → later ≤ Text.byteSize s.text →
        ∃ slot', trail.locate later = .ok slot' ∧ slot.start ≤ slot'.start) ∧
      Text.IsBoundary s.text slot.start ∧
      (Text.IsBoundary s.text cursor → ∃ typed b token, Fault.before s.text cursor = .ok typed ∧
        Builder.ofStart typed (min slot.start cursor) = .ok b ∧ b.remaining = .ok token) := by
  intro trail slots
  have htraces := (d.outcome_parseFrom s source).traces (d.tree.stands_start s source)
  have hslots : trail.slots = slots := d.slots_parseFrom s source
  obtain ⟨slot, hslot, hholds, hboundary⟩ := d.exists_locate_parseFrom s source hstart hend
  rw [hslots] at hholds
  refine ⟨Trail.pairwise_slots 0 htraces.adjoining htraces.first, slot, hslot, hholds.mem, hholds.start_le,
    hholds.greatest, ?_, ?_, hboundary, ?_⟩
  · -- Where a node begins a slot starts, and the slot found is the last one up to the cursor.
    rintro step hstep ⟨hbehind, hle⟩
    obtain ⟨other, hother, heq⟩ := Trail.exists_slot_of_step 0 htraces.adjoining htraces.first hstep
    have hgreatest := hholds.greatest other hother (heq ▸ hle)
    omega
  · intro later hlater hlaterEnd
    obtain ⟨slot', hslot', hholds', _⟩ :=
      d.exists_locate_parseFrom s source (Nat.le_trans hstart hlater) hlaterEnd
    rw [hslots] at hholds'
    exact ⟨slot', hslot', hholds'.greatest slot hholds.mem (Nat.le_trans hholds.start_le hlater)⟩
  · intro hcursor
    obtain ⟨left, typed, right, hline, hleft, hsize⟩ := hboundary.exists_between hcursor hholds.start_le
    obtain ⟨hb, hremaining⟩ := Builder.remaining_ofStart left typed
    refine ⟨left ++ typed, _, typed, ?_, ?_, hremaining⟩
    · rw [← hline, ← hsize]
      exact Fault.before_append _ right
    · rw [Nat.min_eq_left hholds.start_le, ← hleft]
      exact hb

/-- A word, an argument with nothing in it, and a text that no node takes: the cursor at the end stands behind the
    empty argument, and the slot in front of it begins where the empty argument does. -/
theorem locate_finds_greatest_slot_empty_match :
    let d := ({} : Dispatcher Unit).registerAll
      [(Declaration.literal "né").followedBy (.argument "a" .word)]
    let s := Scanner.ofString "né  x"
    let trail := (d.parseFrom s ()).trail
    s.cursor ≤ 6 ∧ 6 ≤ Text.byteSize s.text ∧ trail.steps.map Step.node = [1, 2] ∧
      trail.locate 6 = .ok ⟨2, 5⟩ ∧ trail.locate 4 = .ok ⟨1, 4⟩ ∧ Text.IsBoundary s.text 5 ∧
      ∀ step ∈ trail.steps, ¬ (5 < step.range.start ∧ step.range.start ≤ 6) := by
  intro d s trail
  obtain ⟨_, slot, hslot, _, _, _, hbegins, _, hboundary, _⟩ :=
    locate_finds_greatest_slot d s () 6 (by decide) (by decide)
  have hlocate : trail.locate 6 = .ok ⟨2, 5⟩ := by decide +kernel
  obtain rfl : (⟨2, 5⟩ : Trail.Slot) = slot := Except.ok.inj (hlocate.symm.trans hslot)
  exact ⟨by decide, by decide, by decide +kernel, hlocate, by decide +kernel, hboundary, hbegins⟩

end Dispatcher

end CommandGrammar
