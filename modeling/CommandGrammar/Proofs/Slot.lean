import CommandGrammar.Proofs.Path

/-!
# `Proofs.Slot` — where a cursor stands in a line that was read

A child may stand at the start of the line that was read, below the root, and behind every node that matched,
past one separator. `Trail.slots` lists these places. Locating a cursor scans the ranges of the trail, with a
case of its own for what lies behind all of them; for a trail that traces a path both come to one rule, that a
cursor stands in the last slot that does not start behind it (`Trail.Slot.Holds`):

* `Trail.pairwise_slots` — the slots of a path come in the order of their starts;
* `Trail.slotAmong_holds`, `Trail.slotBehind_holds` — the two cases of locating, each by the rule;
* `Tree.Traces.exists_locate` — so a cursor that is not in front of the trail is located by the rule;
* `Tree.Outcome.rests` — behind every node that matched there is a separator or the end of the text, however
  reading went on;
* `Trail.Rests.isBoundary_of_mem_slots` — hence a slot in the text never starts inside a character.
-/

namespace CommandGrammar

variable {S H : Type}

/-! ## Separators -/

/-- A separator takes one byte. -/
theorem Text.CharAt.isBoundary_succ {text : String} {n : Nat} (h : CharAt text n Scanner.separator) :
    IsBoundary text (n + 1) := by
  obtain ⟨before, rest, happ, rfl⟩ := h
  refine ⟨before ++ [Scanner.separator], rest, by rw [← happ]; simp, ?_⟩
  rw [size_append]
  rfl

/-- Where an argument may end, the text ends or a separator stands. -/
theorem Scanner.cursor_of_atBreak {s : Scanner} (h : s.atBreak) :
    s.cursor = Text.byteSize s.text ∨ Text.CharAt s.text s.cursor separator := by
  cases hrest : s.rest with
  | nil =>
    left
    rw [cursor, Text.byteSize, toList_text, hrest, List.append_nil]
  | cons c rest =>
    right
    obtain rfl : c = separator := by simpa [atBreak, hrest] using h
    exact charAt_cursor hrest

/-! ## Slots -/

namespace Trail

/-- The place behind a step, past one separator. -/
def Slot.behind (step : Step) : Slot := ⟨step.node, step.range.stop + 1⟩

/-- The places where a child may stand: at the start, and behind every step. -/
def slots (trail : Trail S H) : List Slot := ⟨trail.root, trail.range.start⟩ :: trail.steps.map Slot.behind

/-- Each step starts right behind the separator after the one before. -/
def Adjoining (steps : List Step) : Prop := steps.IsChain fun a b => b.range.start = a.range.stop + 1

/-- The cursor stands in the slot: of those that do not start behind the cursor it is the one that starts last. -/
structure Slot.Holds (slots : List Slot) (cursor : Nat) (slot : Slot) : Prop where
  /-- It is one of the slots. -/
  mem : slot ∈ slots
  /-- It does not start behind the cursor. -/
  start_le : slot.start ≤ cursor
  /-- No other one starts between it and the cursor. -/
  greatest : ∀ other ∈ slots, other.start ≤ cursor → other.start ≤ slot.start

variable {cursor start : Nat} {steps : List Step}

/-- Slots come in the order of their starts, and no two start at the same place. -/
theorem pairwise_slots (root : NodeId) (hchain : Adjoining steps)
    (hfirst : ∀ first ∈ steps.head?, first.range.start = start) :
    (⟨root, start⟩ :: steps.map Slot.behind).Pairwise fun a b => a.start < b.start := by
  induction steps generalizing root start with
  | nil => exact List.pairwise_singleton _ _
  | cons first rest ih =>
    obtain ⟨hadjoins, hrest⟩ := List.isChain_cons.mp hchain
    have hbehind := ih first.node hrest hadjoins
    have hstart : start < first.range.stop + 1 := by
      have hordered := first.range.start_le_stop
      have heq := hfirst first rfl
      omega
    rw [List.map_cons, List.pairwise_cons]
    refine ⟨fun slot hslot => ?_, hbehind⟩
    rcases List.mem_cons.mp hslot with rfl | hslot
    · exact hstart
    · exact Nat.lt_trans hstart ((List.pairwise_cons.mp hbehind).1 slot hslot)

/-- Every step starts where a slot does. -/
theorem exists_slot_of_step (root : NodeId) (hchain : Adjoining steps)
    (hfirst : ∀ first ∈ steps.head?, first.range.start = start) {step : Step} (hstep : step ∈ steps) :
    ∃ slot ∈ (⟨root, start⟩ :: steps.map Slot.behind : List Slot), slot.start = step.range.start := by
  induction steps generalizing root start with
  | nil => cases hstep
  | cons first rest ih =>
    obtain ⟨hadjoins, hrest⟩ := List.isChain_cons.mp hchain
    rcases List.mem_cons.mp hstep with rfl | hstep
    · exact ⟨_, List.mem_cons_self, (hfirst step rfl).symm⟩
    · obtain ⟨slot, hslot, heq⟩ := ih first.node hrest hadjoins hstep
      exact ⟨slot, List.mem_cons_of_mem _ hslot, heq⟩

/-- Behind all steps the cursor stands in the slot of the last one. -/
theorem slotBehind_holds (root : NodeId) (hchain : Adjoining steps)
    (hfirst : ∀ first ∈ steps.head?, first.range.start = start)
    (hlast : steps.getLast?.elim start (fun last => last.range.stop + 1) ≤ cursor) :
    Slot.Holds (⟨root, start⟩ :: steps.map Slot.behind) cursor (slotBehind root start steps) := by
  have hsorted := pairwise_slots root hchain hfirst
  unfold slotBehind
  cases hget : steps.getLast? with
  | none =>
    rw [hget] at hlast
    obtain rfl := List.getLast?_eq_none_iff.mp hget
    refine ⟨List.mem_cons_self, hlast, fun other hother _ => ?_⟩
    rw [List.mem_singleton.mp hother]
  | some last =>
    rw [hget] at hlast
    obtain ⟨front, rfl⟩ := List.getLast?_eq_some_iff.mp hget
    rw [List.map_append, ← List.cons_append] at hsorted ⊢
    obtain ⟨_, _, hbefore⟩ := List.pairwise_append.mp hsorted
    refine ⟨List.mem_append_right _ List.mem_cons_self, hlast, fun other hother _ => ?_⟩
    rcases List.mem_append.mp hother with hother | hother
    · exact Nat.le_of_lt (hbefore other hother _ List.mem_cons_self)
    · rw [List.mem_singleton.mp hother]
      exact Nat.le_refl _

/-- Steps that adjoin each other leave no gap: up to the end of the last one, the scan for the first step that
    has the cursor finds the slot that the cursor stands in. -/
theorem slotAmong_holds (root : NodeId) (fallback : Nat) {first : Step} {rest : List Step}
    (hchain : Adjoining (first :: rest))
    (hfirst : first.range.start ≤ cursor)
    (hlast : ∀ last ∈ (first :: rest).getLast?, cursor ≤ last.range.stop) :
    Slot.Holds (⟨root, first.range.start⟩ :: (first :: rest).map Slot.behind) cursor
      (slotAmong cursor fallback root (first :: rest)) := by
  induction rest generalizing root first with
  | nil =>
    have hstop : cursor ≤ first.range.stop := hlast first rfl
    have hcontains : first.range.contains cursor = true := by simp [Range.contains, hfirst, hstop]
    rw [slotAmong, if_pos hcontains]
    refine ⟨List.mem_cons_self, hfirst, fun other hother hle => ?_⟩
    simp only [List.map_cons, List.map_nil, List.mem_cons, List.not_mem_nil, or_false] at hother
    rcases hother with rfl | rfl
    · exact Nat.le_refl _
    · change first.range.stop + 1 ≤ cursor at hle
      omega
  | cons next rest ih =>
    obtain ⟨hadjoins, hrest⟩ := List.isChain_cons_cons.mp hchain
    have hordered := first.range.start_le_stop
    by_cases hstop : cursor ≤ first.range.stop
    · -- The first step has the cursor; all slots but its own start behind it.
      have hcontains : first.range.contains cursor = true := by simp [Range.contains, hfirst, hstop]
      have hfirst' : ∀ step ∈ (first :: next :: rest).head?, step.range.start = first.range.start := by simp
      have hsorted := pairwise_slots root hchain hfirst'
      rw [slotAmong, if_pos hcontains]
      refine ⟨List.mem_cons_self, hfirst, fun other hother hle => ?_⟩
      rcases List.mem_cons.mp hother with rfl | hother
      · exact Nat.le_refl _
      · rw [List.map_cons, List.pairwise_cons, List.pairwise_cons] at hsorted
        have hbehind : first.range.stop + 1 ≤ other.start := by
          rcases List.mem_cons.mp hother with rfl | hother
          · exact Nat.le_refl _
          · exact Nat.le_of_lt (hsorted.2.1 other hother)
        omega
    · -- The cursor is behind the first step, so the next one takes its place.
      have hcontains : ¬ first.range.contains cursor = true := by simp [Range.contains, hstop]
      have hnext : next.range.start ≤ cursor := by omega
      have hholds := ih first.node hrest hnext
        (fun last hmem => hlast last (by rwa [List.getLast?_cons_cons]))
      rw [hadjoins] at hholds
      have hbehind : first.range.stop + 1 ≤ (slotAmong cursor fallback first.node (next :: rest)).start :=
        hholds.greatest (Slot.behind first) List.mem_cons_self (by show first.range.stop + 1 ≤ cursor; omega)
      rw [slotAmong, if_neg hcontains]
      refine ⟨List.mem_cons_of_mem _ hholds.mem, hholds.start_le, fun other hother hle => ?_⟩
      rcases List.mem_cons.mp hother with rfl | hother
      · show first.range.start ≤ _
        omega
      · exact hholds.greatest other hother hle

/-- Nothing continues the trail, and behind every step stands a separator or the end of the text. -/
structure Rests (text : String) (trail : Trail S H) : Prop where
  /-- No other trail continues this one. -/
  child : trail.child = none
  /-- A separator follows, or the end. -/
  behind : ∀ step ∈ trail.steps,
    step.range.stop = Text.byteSize text ∨ Text.CharAt text step.range.stop Scanner.separator

/-- A slot that starts in the text does not start inside a character. -/
theorem Rests.isBoundary_of_mem_slots {text : String} {trail : Trail S H} (h : trail.Rests text)
    (hstart : Text.IsBoundary text trail.range.start) {slot : Slot} (hslot : slot ∈ trail.slots)
    (hle : slot.start ≤ Text.byteSize text) : Text.IsBoundary text slot.start := by
  rcases List.mem_cons.mp hslot with rfl | hmem
  · exact hstart
  · obtain ⟨step, hstep, rfl⟩ := List.mem_map.mp hmem
    rcases h.behind step hstep with hend | hseparator
    · exact absurd hle (by rw [← hend]; exact Nat.not_succ_le_self _)
    · exact hseparator.isBoundary_succ

end Trail

/-! ## Locating a cursor -/

namespace Tree

variable {t : Tree S} {text : String} {start : Nat} {node : NodeId} {s : Scanner}
  {trail : Trail S (Handler S)}

/-- The steps of a path adjoin each other. -/
theorem Traces.adjoining (h : t.Traces text start trail) : Trail.Adjoining trail.steps :=
  h.next.imp fun _ _ hnext => hnext.2

/-- **Locating a cursor finds the slot that it stands in.** -/
theorem Traces.exists_locate (h : t.Traces text start trail) (hchild : trail.child = none) {cursor : Nat}
    (hcursor : start ≤ cursor) :
    ∃ slot, trail.locate cursor = .ok slot ∧ Trail.Slot.Holds trail.slots cursor slot := by
  obtain ⟨hstart, hstop⟩ := h.range
  have hadjoining := h.adjoining
  have hfirst := h.first
  obtain ⟨source, root, range, steps, captures, handler, child⟩ := trail
  obtain rfl : child = none := hchild
  dsimp only at hstart hstop hadjoining hfirst
  rw [← hstart] at hfirst
  rw [Trail.locate, if_neg (by omega)]
  -- Behind the trail the last step decides, within it the scan over the steps.
  by_cases hbehind : range.stop < cursor
  · rw [if_pos hbehind]
    refine ⟨_, rfl, Trail.slotBehind_holds root hadjoining hfirst ?_⟩
    cases hlast : steps.getLast? with
    | none =>
      show range.start ≤ cursor
      omega
    | some last =>
      rw [hlast] at hstop
      change range.stop = last.range.stop at hstop
      show last.range.stop + 1 ≤ cursor
      omega
  · rw [if_neg hbehind]
    refine ⟨_, rfl, ?_⟩
    cases steps with
    | nil =>
      refine ⟨List.mem_cons_self, by show range.start ≤ cursor; omega, fun other hother _ => ?_⟩
      rw [List.mem_singleton.mp hother]
      exact Nat.le_refl _
    | cons first rest =>
      have hfirstStart : first.range.start = range.start := hfirst first rfl
      have hlast : ∀ last ∈ (first :: rest).getLast?, cursor ≤ last.range.stop := by
        intro last hmem
        rw [Option.mem_def] at hmem
        rw [hmem] at hstop
        change range.stop = last.range.stop at hstop
        omega
      have hholds := Trail.slotAmong_holds root range.start hadjoining (by omega) hlast
      rw [hfirstStart] at hholds
      exact hholds

/-- **Step.** A match ends before a separator or at the end of the text. -/
theorem rests_of_mem_successes (h : trail.Rests s.text) {m : Matched S}
    (hm : m ∈ successes (t.attempts node s trail)) : m.trail.Rests m.scanner.text := by
  obtain ⟨b, id, _, _, hattempt⟩ := mem_successes_iff.mp hm
  obtain ⟨_, hprecedes, hbreak, _, _, _, hcases⟩ := Branch.attempt_cases hattempt
  have hchild : m.trail.child = trail.child := by
    rcases hcases with ⟨_, _, htrail⟩ | ⟨_, _, _, _, _, _, htrail⟩
    · rw [htrail]
      rfl
    · rw [htrail]
      rfl
  obtain ⟨range, _, hstop, hsteps, _⟩ := Branch.steps_of_attempt hattempt
  refine ⟨hchild.trans h.child, fun step hstep => ?_⟩
  rw [hsteps, List.mem_append, List.mem_singleton] at hstep
  rcases hstep with hstep | rfl
  · rw [hprecedes.text_eq]
    exact h.behind step hstep
  · show range.stop = _ ∨ Text.CharAt _ range.stop _
    rw [hstop]
    exact Scanner.cursor_of_atBreak hbreak

/-- **Run.** Every way of reading ends in the same text, with a separator or the end behind each match. -/
theorem Outcome.rests {p : Parse S} (h : t.Outcome node s trail p) (hrests : trail.Rests s.text) :
    s.Precedes p.scanner ∧ p.trail.Rests p.scanner.text := by
  induction h with
  | stalled _ => exact ⟨.refl _, hrests⟩
  | finished hm _ =>
    obtain ⟨_, _, _, _, hattempt⟩ := mem_successes_iff.mp hm
    exact ⟨(Branch.attempt_cases hattempt).2.1, rests_of_mem_successes hrests hm⟩
  | @followed _ _ _ m _ hm _ _ ih =>
    obtain ⟨_, _, _, _, hattempt⟩ := mem_successes_iff.mp hm
    -- What follows starts past a separator, in the same text.
    have hskip := m.scanner.precedes_skip
    have hm' := rests_of_mem_successes hrests hm
    rw [← hskip.text_eq] at hm'
    obtain ⟨hprecedes, hp⟩ := ih hm'
    exact ⟨((Branch.attempt_cases hattempt).2.1.trans hskip).trans hprecedes, hp⟩

end Tree

namespace Dispatcher

/-- **Wherever the cursor is put in a line that was read, it stands in a slot of the line**, and the slot does not
    start inside a character. -/
theorem exists_locate_parseFrom (d : Dispatcher S) (s : Scanner) (source : S) {cursor : Nat}
    (hstart : s.cursor ≤ cursor) (hend : cursor ≤ Text.byteSize s.text) :
    ∃ slot, (d.parseFrom s source).trail.locate cursor = .ok slot ∧
      Trail.Slot.Holds (d.parseFrom s source).trail.slots cursor slot ∧ Text.IsBoundary s.text slot.start := by
  have houtcome := d.outcome_parseFrom s source
  have htraces := houtcome.traces (d.tree.stands_start s source)
  obtain ⟨hprecedes, hrests⟩ := houtcome.rests ⟨rfl, by simp [Trail.start]⟩
  rw [hprecedes.text_eq] at hrests
  obtain ⟨slot, hlocate, hholds⟩ := htraces.exists_locate hrests.child hstart
  have hle : slot.start ≤ Text.byteSize s.text := Nat.le_trans hholds.start_le hend
  refine ⟨slot, hlocate, hholds, hrests.isBoundary_of_mem_slots ?_ hholds.mem hle⟩
  rw [htraces.range.1]
  exact s.isBoundary_cursor

end Dispatcher

end CommandGrammar
