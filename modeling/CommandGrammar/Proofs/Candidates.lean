import CommandGrammar.Dispatch

/-!
# `Proofs.Candidates` — what trying a candidate can do

Reading a line is a sequence of attempts, one per level of the grammar. This module says once what an
attempt that succeeds leaves behind, so that everything about whole lines follows by induction over the
levels and nobody opens the readers again:

* `Tree.mem_children`, `Tree.mem_children_of_mem_candidates` — candidates are children, and children are
  the stored nodes that name their parent;
* `Branch.attempt_cases` — the inversion of a successful attempt: the range runs from where the scanner
  stood to where it stands, and the trail grew by exactly that step (and, for an argument, by its value);
  `Branch.steps_of_attempt` is the part that does not depend on the label;
* `Tree.mem_successes_iff`, `Tree.mem_failures_iff` — which attempts are made at a node;
* `Scanner.rest_eq_separator_cons`, `Scanner.length_rest_skip_lt` — the separator passed on the way down,
  and why the descent ends.
-/

namespace CommandGrammar

variable {S : Type}

/-! ## Children and candidates -/

namespace Tree

/-- The children of a node are the stored nodes that name it as their parent. -/
theorem mem_children {t : Tree S} {node id : NodeId} {b : Branch S} :
    (b, id) ∈ t.children node ↔ t.branch? id = some b ∧ b.parent = node := by
  simp only [children, List.mem_filter, List.mem_zipIdx_iff_le_and_getElem?_sub, beq_iff_eq]
  cases id with
  | zero => simp [branch?]
  | succ k => simp [branch?]

theorem branch?_of_mem_children {t : Tree S} {node id : NodeId} {b : Branch S}
    (h : (b, id) ∈ t.children node) : t.branch? id = some b :=
  (mem_children.mp h).1

/-- Whatever is worth trying below a node is a child of it. -/
theorem mem_children_of_mem_candidates {t : Tree S} {node : NodeId} {s : Scanner}
    {c : Branch S × NodeId} (h : c ∈ t.candidates node s) : c ∈ t.children node := by
  unfold candidates at h
  split at h
  · next found hfound =>
    rw [List.mem_singleton] at h
    subst h
    exact List.mem_of_find?_eq_some hfound
  · exact (List.mem_filter.mp h).1

end Tree

/-! ## Moving over a separator -/

namespace Scanner

theorem Precedes.length_rest_le {s t : Scanner} (h : s.Precedes t) :
    t.rest.length ≤ s.rest.length := by
  obtain ⟨taken, _, hrest⟩ := h
  rw [hrest, List.length_append]
  omega

/-- Where an argument ends and more is still to come, a separator stands. -/
theorem rest_eq_separator_cons {s : Scanner} (hbreak : s.atBreak) (hread : s.canReadBytes 2) :
    ∃ rest, s.rest = separator :: rest := by
  obtain ⟨passed, rest⟩ := s
  cases rest with
  | nil => simp [canReadBytes, remainingSize] at hread
  | cons c rest =>
    obtain rfl : c = separator := by simpa [atBreak] using hbreak
    exact ⟨rest, rfl⟩

theorem length_rest_skip_lt {s : Scanner} (hread : s.canReadBytes 2) :
    s.skip.rest.length < s.rest.length := by
  obtain ⟨passed, rest⟩ := s
  cases rest with
  | nil => simp [canReadBytes, remainingSize] at hread
  | cons c rest => simp [skip]

end Scanner

/-! ## A successful attempt -/

/-- **What matching a label does.** The scanner moves on, and the trail grows by one step over what was
    passed; an argument is recorded with the value that its type reads there. -/
theorem Label.read_cases {label : Label S} {id : NodeId} {s u : Scanner}
    {trail trail' : Trail S (Handler S)} (h : label.read id s trail = .ok trail' u) :
    s.Precedes u ∧ ∃ range : Range, range.start = s.cursor ∧ range.stop = u.cursor ∧
      ((∃ name, label = .literal name ∧ trail' = trail.step id range) ∨
        ∃ name type provider value, label = .argument name type provider ∧
          type.read s = .ok value u ∧ trail' = (trail.capture name ⟨range, value⟩).step id range) := by
  cases label with
  | literal name =>
    simp only [Label.read] at h
    split at h
    · next hmatch =>
      injection h with htrail hscanner
      subst hscanner
      have hprefix : name.toList <+: s.rest := by
        rw [Bool.and_eq_true] at hmatch
        exact List.isPrefixOf_iff_prefix.mp hmatch.1
      have hcursor : (s.advance name.toList.length).cursor = s.cursor + Text.byteSize name := by
        rw [Scanner.cursor, Scanner.advance, ← List.prefix_iff_eq_take.mp hprefix, Text.size_append]
        rfl
      exact ⟨s.precedes_advance _, _, rfl, hcursor.symm, Or.inl ⟨name, rfl, htrail.symm⟩⟩
    · cases h
  | argument name type provider =>
    simp only [Label.read] at h
    split at h
    · next c t hcapture =>
      injection h with htrail hscanner
      subst hscanner
      obtain ⟨hread, hstart, hstop⟩ := ArgumentType.capture_eq_ok_iff.mp hcapture
      have hprecedes := type.precedes_read s
      rw [hread] at hprecedes
      exact ⟨hprecedes, c.range, hstart, hstop,
        Or.inr ⟨name, type, provider, c.value, rfl, hread, htrail.symm⟩⟩
    · cases h

/-- **What a successful attempt leaves behind.** -/
theorem Branch.attempt_cases {b : Branch S} {id : NodeId} {s : Scanner}
    {trail : Trail S (Handler S)} {m : Matched S} (h : b.attempt id s trail = .ok m) :
    m.node = id ∧ s.Precedes m.scanner ∧ m.scanner.atBreak ∧
      ∃ range : Range, range.start = s.cursor ∧ range.stop = m.scanner.cursor ∧
        ((∃ name, b.label = .literal name ∧
            m.trail = (trail.step id range).withHandler b.handler) ∨
          ∃ name type provider value, b.label = .argument name type provider ∧
            type.read s = .ok value m.scanner ∧
            m.trail = ((trail.capture name ⟨range, value⟩).step id range).withHandler b.handler) := by
  unfold Branch.attempt at h
  split at h
  · cases h
  · next trail' u hread =>
    split at h
    · next hbreak =>
      injection h with hm
      subst hm
      obtain ⟨hprecedes, range, hstart, hstop, hcases⟩ := Label.read_cases hread
      refine ⟨rfl, hprecedes, hbreak, range, hstart, hstop, ?_⟩
      rcases hcases with ⟨name, hlabel, rfl⟩ | ⟨name, type, provider, value, hlabel, hvalue, rfl⟩
      · exact Or.inl ⟨name, hlabel, rfl⟩
      · exact Or.inr ⟨name, type, provider, value, hlabel, hvalue, rfl⟩
    · cases h

/-- The steps, the range, the handler and the source after a match, whatever the label. -/
theorem Branch.steps_of_attempt {b : Branch S} {id : NodeId} {s : Scanner}
    {trail : Trail S (Handler S)} {m : Matched S} (h : b.attempt id s trail = .ok m) :
    ∃ range : Range, range.start = s.cursor ∧ range.stop = m.scanner.cursor ∧
      m.trail.steps = trail.steps ++ [⟨id, range⟩] ∧ m.trail.range = trail.range.hull range ∧
      m.trail.handler = b.handler ∧ m.trail.source = trail.source := by
  obtain ⟨_, _, _, range, hstart, hstop, hcases⟩ := Branch.attempt_cases h
  refine ⟨range, hstart, hstop, ?_⟩
  rcases hcases with ⟨_, _, htrail⟩ | ⟨_, _, _, _, _, _, htrail⟩
  · rw [htrail]
    exact ⟨rfl, rfl, rfl, rfl⟩
  · rw [htrail]
    exact ⟨rfl, rfl, rfl, rfl⟩

/-! ## The attempts at a node -/

namespace Tree

variable {t : Tree S} {node : NodeId} {s : Scanner} {trail : Trail S (Handler S)}

/-- The matches at a node are those of the candidates that the source may use. -/
theorem mem_successes_iff {m : Matched S} :
    m ∈ successes (t.attempts node s trail) ↔ ∃ b id, (b, id) ∈ t.candidates node s ∧
      b.requirement trail.source ∧ b.attempt id s trail = .ok m := by
  simp only [successes, attempts, List.mem_filterMap, List.mem_map, List.mem_filter]
  constructor
  · rintro ⟨_, ⟨⟨b, id⟩, ⟨hmem, hreq⟩, rfl⟩, hok⟩
    refine ⟨b, id, hmem, hreq, ?_⟩
    cases hattempt : b.attempt id s trail with
    | error e => simp [hattempt, Except.toOption] at hok
    | ok m' => simpa [hattempt, Except.toOption] using hok
  · rintro ⟨b, id, hmem, hreq, hok⟩
    exact ⟨_, ⟨(b, id), ⟨hmem, hreq⟩, rfl⟩, by simp [hok, Except.toOption]⟩

/-- The failures at a node are those of the candidates that the source may use. -/
theorem mem_failures_iff {id : NodeId} {e : Error} :
    (id, e) ∈ failures (t.attempts node s trail) ↔ ∃ b, (b, id) ∈ t.candidates node s ∧
      b.requirement trail.source ∧ b.attempt id s trail = .error e := by
  simp only [failures, attempts, List.mem_filterMap, List.mem_map, List.mem_filter]
  constructor
  · rintro ⟨_, ⟨⟨b, id'⟩, ⟨hmem, hreq⟩, rfl⟩, hfail⟩
    dsimp only at hfail
    split at hfail
    · next e' hattempt =>
      obtain ⟨rfl, rfl⟩ := Prod.mk.inj (Option.some.inj hfail)
      exact ⟨b, hmem, hreq, hattempt⟩
    · cases hfail
  · rintro ⟨b, hmem, hreq, hfail⟩
    exact ⟨_, ⟨(b, id), ⟨hmem, hreq⟩, rfl⟩, by simp [hfail]⟩

/-- Following a match past its separator leaves less to read. -/
theorem length_rest_skip_lt_of_mem {m : Matched S} (hm : m ∈ successes (t.attempts node s trail))
    (hread : m.scanner.canReadBytes 2) : m.scanner.skip.rest.length < s.rest.length := by
  obtain ⟨b, id, _, _, hattempt⟩ := mem_successes_iff.mp hm
  have hprecedes := (Branch.attempt_cases hattempt).2.1
  exact Nat.lt_of_lt_of_le (Scanner.length_rest_skip_lt hread) hprecedes.length_rest_le

end Tree

end CommandGrammar
