import CommandGrammar.Proofs.Candidates
import Mathlib.Data.Bool.Basic
import Mathlib.Data.Prod.Lex

/-!
# `Proofs.Outcomes` — one enumeration behind both strategies

A line can be read in many ways: at every level any matching candidate may be followed. This module lists
all of them, in depth-first order of registration, and shows that the two strategies of the search differ
only in which member of the list they pick:

* `Tree.outcomes` — the list, by recursion on what is still to be read (no fuel);
* `Tree.Outcome`, `Tree.mem_outcomes_iff` — the same as rules, which is what an invariant of reading is
  proved over: one case for a stall, one for a finished match, one for a match that is followed;
* `Tree.search_eq_select` — the search picks the first outcome, or the first of the best ones;
* `Dispatcher.outcome_parseFrom` — so whatever was read is an outcome, under either strategy.

The search chooses a best result at every level anew. That this adds up to the best outcome overall rests
on `Parse.best?_flatMap`: preferring the earlier of two results unless the later one has a smaller rank is
associative, ties included.
-/

namespace CommandGrammar

variable {S : Type}

/-! ## The list of outcomes -/

namespace Tree

/-- The results of all ways of reading the line from a node on, depth first and in the order of
    registration. Each match is a result of its own unless more than a separator stands behind it; then
    the outcomes below it take its place. Where nothing matches, the one outcome is the stall with the
    reasons why. -/
def outcomes (t : Tree S) (node : NodeId) (s : Scanner) (trail : Trail S (Handler S)) :
    List (Parse S) :=
  let tried := t.attempts node s trail
  if successes tried = [] then [{ scanner := s, trail, errors := failures tried }]
  else (successes tried).attach.flatMap fun ⟨m, _⟩ =>
    if m.scanner.canReadBytes 2 then t.outcomes m.node m.scanner.skip m.trail
    else [{ scanner := m.scanner, trail := m.trail }]
termination_by s.rest.length
decreasing_by exact length_rest_skip_lt_of_mem ‹_› ‹_›

/-- The outcomes that start with one match. -/
def outcomesOf (t : Tree S) (m : Matched S) : List (Parse S) :=
  if m.scanner.canReadBytes 2 then t.outcomes m.node m.scanner.skip m.trail
  else [{ scanner := m.scanner, trail := m.trail }]

variable {t : Tree S} {node : NodeId} {s : Scanner} {trail : Trail S (Handler S)}

theorem outcomes_of_stalled (h : successes (t.attempts node s trail) = []) :
    t.outcomes node s trail =
      [{ scanner := s, trail, errors := failures (t.attempts node s trail) }] := by
  rw [outcomes]
  simp [h]

theorem outcomes_of_matched (h : successes (t.attempts node s trail) ≠ []) :
    t.outcomes node s trail = (successes (t.attempts node s trail)).flatMap t.outcomesOf := by
  rw [outcomes]
  simp only [h, if_false]
  rw [List.flatMap_subtype (g := t.outcomesOf) (fun m _ => rfl), List.unattach_attach]

/-! ## Outcomes as rules -/

/-- `p` is the end of one way of reading the line from a node on. -/
inductive Outcome (t : Tree S) : NodeId → Scanner → Trail S (Handler S) → Parse S → Prop where
  /-- No candidate matches. -/
  | stalled {node : NodeId} {s : Scanner} {trail : Trail S (Handler S)} :
      successes (t.attempts node s trail) = [] →
      Outcome t node s trail { scanner := s, trail, errors := failures (t.attempts node s trail) }
  /-- A candidate matches, with at most a separator behind it. -/
  | finished {node : NodeId} {s : Scanner} {trail : Trail S (Handler S)} {m : Matched S} :
      m ∈ successes (t.attempts node s trail) → ¬ m.scanner.canReadBytes 2 →
      Outcome t node s trail { scanner := m.scanner, trail := m.trail }
  /-- A candidate matches and is followed past the separator. -/
  | followed {node : NodeId} {s : Scanner} {trail : Trail S (Handler S)} {m : Matched S}
      {p : Parse S} :
      m ∈ successes (t.attempts node s trail) → m.scanner.canReadBytes 2 →
      Outcome t m.node m.scanner.skip m.trail p → Outcome t node s trail p

/-- The list holds exactly what the rules derive. -/
theorem mem_outcomes_iff {p : Parse S} : p ∈ t.outcomes node s trail ↔ t.Outcome node s trail p := by
  constructor
  · induction node, s, trail using outcomes.induct t with
    | case1 node s trail _ hstall =>
      intro hp
      rw [outcomes_of_stalled hstall, List.mem_singleton] at hp
      subst hp
      exact .stalled hstall
    | case2 node s trail _ hmatch ih =>
      intro hp
      rw [outcomes_of_matched hmatch, List.mem_flatMap] at hp
      obtain ⟨m, hm, hp⟩ := hp
      unfold outcomesOf at hp
      split at hp
      · next hread => exact .followed hm hread (ih m hm hread hp)
      · next hread =>
        rw [List.mem_singleton] at hp
        subst hp
        exact .finished hm hread
  · intro h
    induction h with
    | stalled hstall =>
      rw [outcomes_of_stalled hstall]
      exact List.mem_singleton.mpr rfl
    | finished hm hread =>
      rw [outcomes_of_matched (List.ne_nil_of_mem hm), List.mem_flatMap]
      exact ⟨_, hm, by simp [outcomesOf, hread]⟩
    | followed hm hread _ ih =>
      rw [outcomes_of_matched (List.ne_nil_of_mem hm), List.mem_flatMap]
      exact ⟨_, hm, by simpa [outcomesOf, hread] using ih⟩

end Tree

/-! ## Preferring results -/

namespace Parse

/-- The better of two results: the earlier one, unless the later one has a smaller rank. -/
def prefer (p q : Parse S) : Parse S := if q.rank < p.rank then q else p

theorem prefer_assoc (p q r : Parse S) : prefer (prefer p q) r = prefer p (prefer q r) := by
  unfold prefer
  by_cases hqp : q.rank < p.rank
  · by_cases hrq : r.rank < q.rank
    · have hrp : r.rank < p.rank := by omega
      simp [hqp, hrq, hrp]
    · simp [hqp, hrq]
  · by_cases hrq : r.rank < q.rank
    · simp [hqp, hrq]
    · have hrp : ¬ r.rank < p.rank := by omega
      simp [hqp, hrq, hrp]

instance : Std.Associative (prefer (S := S)) := ⟨prefer_assoc⟩

theorem best?_cons (p : Parse S) (ps : List (Parse S)) :
    best? (p :: ps) = Option.merge prefer (some p) (best? ps) := by
  cases ps with
  | nil => rfl
  | cons q qs =>
    show some (qs.foldl prefer (prefer p q)) = some (prefer p (qs.foldl prefer q))
    rw [List.foldl_assoc]

theorem best?_append (ps qs : List (Parse S)) :
    best? (ps ++ qs) = Option.merge prefer (best? ps) (best? qs) := by
  induction ps with
  | nil =>
    show best? qs = Option.merge prefer none (best? qs)
    cases best? qs <;> rfl
  | cons p ps ih =>
    rw [List.cons_append, best?_cons, best?_cons, ih]
    cases best? ps with
    | none => cases best? qs <;> rfl
    | some b =>
      cases best? qs with
      | none => rfl
      | some c => exact congrArg some (prefer_assoc p b c).symm

/-- **Best of the bests is best of all.** -/
theorem best?_flatMap {α : Type} {f : α → List (Parse S)} {g : α → Parse S} {xs : List α}
    (h : ∀ x ∈ xs, best? (f x) = some (g x)) : best? (xs.flatMap f) = best? (xs.map g) := by
  induction xs with
  | nil => rfl
  | cons x xs ih =>
    have hxs := ih fun y hy => h y (List.mem_cons_of_mem x hy)
    rw [List.flatMap_cons, List.map_cons, best?_append, best?_cons, hxs, h x List.mem_cons_self]

/-- `p` is the first of the results that no other one is better than. -/
def FirstBest (p : Parse S) (ps : List (Parse S)) : Prop :=
  ∃ before after, ps = before ++ p :: after ∧ (∀ q ∈ before, p.rank < q.rank) ∧
    ∀ q ∈ after, p.rank ≤ q.rank

theorem FirstBest.mem {p : Parse S} {ps : List (Parse S)} (h : p.FirstBest ps) : p ∈ ps := by
  obtain ⟨before, after, rfl, _⟩ := h
  exact List.mem_append_right _ List.mem_cons_self

theorem FirstBest.rank_le {p q : Parse S} {ps : List (Parse S)} (h : p.FirstBest ps) (hq : q ∈ ps) :
    p.rank ≤ q.rank := by
  obtain ⟨before, after, rfl, hbefore, hafter⟩ := h
  rw [List.mem_append, List.mem_cons] at hq
  rcases hq with hq | rfl | hq
  · exact Nat.le_of_lt (hbefore q hq)
  · exact Nat.le_refl _
  · exact hafter q hq

/-- A result in front that is as good as the best so far takes its place. -/
theorem FirstBest.cons_of_le {p b : Parse S} {ps : List (Parse S)} (h : b.FirstBest ps)
    (hle : p.rank ≤ b.rank) : p.FirstBest (p :: ps) :=
  ⟨[], ps, rfl, by simp, fun _ hq => Nat.le_trans hle (h.rank_le hq)⟩

/-- A result in front that is worse changes nothing. -/
theorem FirstBest.cons_of_lt {p b : Parse S} {ps : List (Parse S)} (h : b.FirstBest ps)
    (hlt : b.rank < p.rank) : b.FirstBest (p :: ps) := by
  obtain ⟨before, after, hps, hbefore, hafter⟩ := h
  refine ⟨p :: before, after, by rw [hps, List.cons_append], ?_, hafter⟩
  intro q hq
  rcases List.mem_cons.mp hq with rfl | hq
  · exact hlt
  · exact hbefore q hq

theorem firstBest_of_best? {ps : List (Parse S)} {p : Parse S} (h : best? ps = some p) :
    p.FirstBest ps := by
  induction ps generalizing p with
  | nil => cases h
  | cons first ps ih =>
    rw [best?_cons] at h
    cases hbest : best? ps with
    | none =>
      have hnil : ps = [] := by
        cases ps with
        | nil => rfl
        | cons q qs => cases hbest
      subst hnil
      rw [hbest] at h
      obtain rfl : first = p := Option.some.inj h
      exact ⟨[], [], rfl, by simp, by simp⟩
    | some b =>
      rw [hbest] at h
      have hp : prefer first b = p := Option.some.inj h
      unfold prefer at hp
      split at hp
      · next hlt =>
        subst hp
        exact (ih hbest).cons_of_lt hlt
      · next hge =>
        subst hp
        exact (ih hbest).cons_of_le (Nat.le_of_not_lt hge)

/-- The result that a strategy picks from the results of all ways of reading. -/
def select (exhaustive : Bool) (ps : List (Parse S)) : Option (Parse S) :=
  if exhaustive then best? ps else ps.head?

/-- Either strategy may pick from each group first and then among the picks. -/
theorem select_flatMap {α : Type} {f : α → List (Parse S)} {g : α → Parse S} {xs : List α}
    (exhaustive : Bool) (h : ∀ x ∈ xs, select exhaustive (f x) = some (g x)) :
    select exhaustive (xs.flatMap f) = select exhaustive (xs.map g) := by
  cases exhaustive with
  | true => exact best?_flatMap h
  | false =>
    cases xs with
    | nil => rfl
    | cons x xs =>
      have hx : (f x).head? = some (g x) := h x List.mem_cons_self
      show (f x ++ xs.flatMap f).head? = some (g x)
      rw [List.head?_append, hx]
      rfl

end Parse

/-! ## The search picks an outcome -/

namespace Tree

/-- What the search makes of one match. -/
def follow (t : Tree S) (exhaustive : Bool) (fuel : Nat) (m : Matched S) : Parse S :=
  if m.scanner.canReadBytes 2 then t.search exhaustive fuel m.node m.scanner.skip m.trail
  else { scanner := m.scanner, trail := m.trail }

/-- One level of the search: it picks among what it makes of the matches, and stalls without any. -/
theorem search_succ (t : Tree S) (exhaustive : Bool) (fuel : Nat) (node : NodeId) (s : Scanner)
    (trail : Trail S (Handler S)) :
    t.search exhaustive (fuel + 1) node s trail =
      (Parse.select exhaustive ((successes (t.attempts node s trail)).map
        (t.follow exhaustive fuel))).getD
        { scanner := s, trail, errors := failures (t.attempts node s trail) } := by
  cases exhaustive with
  | true => rfl
  | false =>
    rw [search]
    cases successes (t.attempts node s trail) with
    | nil => rfl
    | cons m ms => rfl

/-- **The search is a choice among the outcomes.** With more fuel than characters to come it returns
    the outcome that its strategy picks. -/
theorem search_eq_select {t : Tree S} (exhaustive : Bool) {fuel : Nat} {node : NodeId} {s : Scanner}
    {trail : Trail S (Handler S)} (hfuel : s.rest.length < fuel) :
    Parse.select exhaustive (t.outcomes node s trail)
      = some (t.search exhaustive fuel node s trail) := by
  -- Every level passes a separator, so the fuel left still exceeds what is to come.
  induction fuel generalizing node s trail with
  | zero => omega
  | succ fuel ih =>
    rw [search_succ]
    by_cases hstall : successes (t.attempts node s trail) = []
    · rw [outcomes_of_stalled hstall, hstall]
      cases exhaustive <;> rfl
    · have hbelow : ∀ m ∈ successes (t.attempts node s trail),
          Parse.select exhaustive (t.outcomesOf m) = some (t.follow exhaustive fuel m) := by
        intro m hm
        unfold outcomesOf follow
        split
        · next hread =>
          have hlt := length_rest_skip_lt_of_mem hm hread
          exact ih (by omega)
        · cases exhaustive <;> rfl
      rw [outcomes_of_matched hstall, Parse.select_flatMap exhaustive hbelow]
      obtain ⟨m, ms, hms⟩ := List.exists_cons_of_ne_nil hstall
      rw [hms]
      cases exhaustive <;> rfl

end Tree

/-! ## The two strategies of a dispatcher -/

namespace Parse

/-- How far a result is from perfect, as a pair to be compared first by what was left over and then
    by what failed. -/
def grade (p : Parse S) : Bool ×ₗ Bool := toLex (p.scanner.canRead, !p.errors.isEmpty)

/-- Ranks compare as the pairs do. -/
theorem rank_lt_iff_grade_lt {p q : Parse S} : p.rank < q.rank ↔ p.grade < q.grade := by
  unfold rank grade
  rw [Prod.Lex.toLex_lt_toLex]
  generalize p.scanner.canRead = a, p.errors.isEmpty = b, q.scanner.canRead = c,
    q.errors.isEmpty = e
  revert a b c e
  decide

theorem rank_le_iff_grade_le {p q : Parse S} : p.rank ≤ q.rank ↔ p.grade ≤ q.grade := by
  rw [← Nat.not_lt, ← not_lt, rank_lt_iff_grade_lt]

theorem isComplete_iff_rank_lt {p : Parse S} : p.isComplete ↔ p.rank < 2 := by
  unfold isComplete rank
  cases p.scanner.canRead <;> cases p.errors.isEmpty <;> decide

end Parse

namespace Dispatcher

/-- The dispatcher with a strategy: to try every way of reading, or to take the first one. -/
def withStrategy (d : Dispatcher S) (exhaustive : Bool) : Dispatcher S :=
  { d with settings := { d.settings with exhaustive } }

/-- All ways of reading the rest of a line. -/
def outcomes (d : Dispatcher S) (s : Scanner) (source : S) : List (Parse S) :=
  d.tree.outcomes 0 s (Trail.start source 0 s.cursor)

theorem select_outcomes (d : Dispatcher S) (s : Scanner) (source : S) :
    Parse.select d.settings.exhaustive (d.outcomes s source) = some (d.parseFrom s source) :=
  Tree.search_eq_select _ (Nat.lt_succ_self _)

/-- Whatever was read is the end of one way of reading. -/
theorem outcome_parseFrom (d : Dispatcher S) (s : Scanner) (source : S) :
    d.tree.Outcome 0 s (Trail.start source 0 s.cursor) (d.parseFrom s source) := by
  rw [← Tree.mem_outcomes_iff]
  have hselect := d.select_outcomes s source
  cases hstrategy : d.settings.exhaustive with
  | true =>
    rw [hstrategy] at hselect
    exact (Parse.firstBest_of_best? hselect).mem
  | false =>
    rw [hstrategy] at hselect
    exact List.mem_of_head? hselect

/-- **Both strategies pick from one enumeration.** Taking the first match gives the first outcome, and
    trying everything gives the first outcome of the least grade. So trying everything reads the whole line
    whenever some way of reading does, and it changes nothing where the first match was perfect already. -/
theorem strategies_pick_outcomes (d : Dispatcher S) (s : Scanner) (source : S) :
    let first := (d.withStrategy false).parseFrom s source
    let best := (d.withStrategy true).parseFrom s source
    (d.outcomes s source).head? = some first ∧
    (∃ before after, d.outcomes s source = before ++ best :: after ∧
      (∀ q ∈ before, best.grade < q.grade) ∧ ∀ q ∈ after, best.grade ≤ q.grade) ∧
    (best.isComplete ↔ ∃ q ∈ d.outcomes s source, q.isComplete) ∧
    (first.isComplete → first.errors = [] → best = first) := by
  intro first best
  have hfirst : (d.outcomes s source).head? = some first :=
    (d.withStrategy false).select_outcomes s source
  have hbest : best.FirstBest (d.outcomes s source) :=
    Parse.firstBest_of_best? ((d.withStrategy true).select_outcomes s source)
  have hmem : best ∈ d.outcomes s source := hbest.mem
  have hleast : ∀ q ∈ d.outcomes s source, best.rank ≤ q.rank := fun q hq => hbest.rank_le hq
  obtain ⟨before, after, houtcomes, hbefore, hafter⟩ := hbest
  refine ⟨hfirst, ⟨before, after, houtcomes, ?_, ?_⟩, ⟨?_, ?_⟩, ?_⟩
  · exact fun q hq => Parse.rank_lt_iff_grade_lt.mp (hbefore q hq)
  · exact fun q hq => Parse.rank_le_iff_grade_le.mp (hafter q hq)
  · exact fun hcomplete => ⟨best, hmem, hcomplete⟩
  · rintro ⟨q, hq, hcomplete⟩
    rw [Parse.isComplete_iff_rank_lt] at hcomplete ⊢
    exact Nat.lt_of_le_of_lt (hleast q hq) hcomplete
  · intro hcomplete herrors
    -- A perfect result has rank 0, so nothing that comes after it can be strictly better.
    have hrank : first.rank = 0 := by
      unfold Parse.isComplete at hcomplete
      rw [Bool.not_eq_true'] at hcomplete
      simp [Parse.rank, hcomplete, herrors]
    cases before with
    | nil =>
      rw [houtcomes] at hfirst
      exact Option.some.inj hfirst
    | cons p before =>
      rw [houtcomes] at hfirst
      have hp : p = first := Option.some.inj hfirst
      have hlt := hbefore p List.mem_cons_self
      rw [hp, hrank] at hlt
      exact absurd hlt (Nat.not_lt_zero _)

-- Two commands that start with a word: the first match is a dead end, the other one reads the line.
example :
    let d := ({} : Dispatcher Unit).registerAll
      [(Declaration.argument "key" .word).followedBy (.argument "size" (.int (Bounds.signed 32))),
        (Declaration.argument "verb" .word).followedBy (.argument "object" .word)]
    ((d.withStrategy false).parse "put box" ()).isComplete = false ∧
      ((d.withStrategy true).parse "put box" ()).isComplete = true := by decide

end Dispatcher

end CommandGrammar
