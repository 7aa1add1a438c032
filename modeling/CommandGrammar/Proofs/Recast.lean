import CommandGrammar.Proofs.Outcomes
import Mathlib.Data.List.Basic

/-!
# `Proofs.Recast` — changes that a search does not notice

A line may be read twice under different circumstances: for another source, or behind other text. Then the places,
the trails and the errors of the two runs differ, but in a regular way, and each result of one run can be computed
from a result of the other. A `Recast` is such a change, and what has to be known about it concerns a single level
only: trying the candidates at a node commutes with it (`Recast.Respects`). From there

* `Recast.Respects.outcomes_eq` — the ways of reading a line correspond, one by one;
* `Recast.Respects.parseFrom_eq` — and a dispatcher picks the one that corresponds to its pick.
-/

namespace CommandGrammar

variable {S : Type}

/-- A change of what a search works on. -/
structure Recast (S : Type) where
  /-- What becomes of a place in the line. -/
  scanner : Scanner → Scanner
  /-- What becomes of the record of what was matched. -/
  trail : Trail S (Handler S) → Trail S (Handler S)
  /-- What becomes of an error. -/
  error : Error → Error

namespace Recast

variable (r : Recast S)

/-- What becomes of a match. -/
def matched (m : Matched S) : Matched S := ⟨m.node, r.scanner m.scanner, r.trail m.trail⟩

/-- What becomes of an attempt. -/
def attempted : Except Error (Matched S) → Except Error (Matched S)
  | .ok m => .ok (r.matched m)
  | .error e => .error (r.error e)

/-- What becomes of a result. -/
def parse (p : Parse S) : Parse S :=
  ⟨r.scanner p.scanner, r.trail p.trail, p.errors.map fun failure => (failure.1, r.error failure.2)⟩

/-- **The change commutes with every single level of a search** in the tree, from trails that are `good` on. -/
structure Respects (t : Tree S) (good : Trail S (Handler S) → Prop) : Prop where
  /-- What is still to come stays the same. -/
  rest : ∀ s, (r.scanner s).rest = s.rest
  /-- Passing a character commutes with the change. -/
  skip : ∀ s, (r.scanner s).skip = r.scanner s.skip
  /-- Trying the candidates commutes with the change. -/
  attempts : ∀ node s trail, good trail →
    t.attempts node (r.scanner s) (r.trail trail)
      = (t.attempts node s trail).map fun c => (c.1, r.attempted c.2)
  /-- A match leaves a good trail behind. -/
  good_of_mem : ∀ node s trail m, good trail → m ∈ Tree.successes (t.attempts node s trail) → good m.trail

theorem successes_map (tried : List (NodeId × Except Error (Matched S))) :
    Tree.successes (tried.map fun c => (c.1, r.attempted c.2)) = (Tree.successes tried).map r.matched := by
  unfold Tree.successes
  rw [List.filterMap_map, List.map_filterMap]
  apply List.filterMap_congr
  rintro ⟨id, result⟩ _
  cases result <;> rfl

theorem failures_map (tried : List (NodeId × Except Error (Matched S))) :
    Tree.failures (tried.map fun c => (c.1, r.attempted c.2))
      = (Tree.failures tried).map fun failure => (failure.1, r.error failure.2) := by
  unfold Tree.failures
  rw [List.filterMap_map, List.map_filterMap]
  apply List.filterMap_congr
  rintro ⟨id, result⟩ _
  cases result <;> rfl

namespace Respects

variable {r} {t : Tree S} {good : Trail S (Handler S) → Prop} {node : NodeId} {s : Scanner}
  {trail : Trail S (Handler S)}

theorem canReadBytes_eq (h : r.Respects t good) (s : Scanner) (n : Nat) :
    (r.scanner s).canReadBytes n = s.canReadBytes n := by
  rw [Scanner.canReadBytes, Scanner.remainingSize, h.rest]
  rfl

theorem rank_eq (h : r.Respects t good) (p : Parse S) : (r.parse p).rank = p.rank := by
  have hread : (r.parse p).scanner.canRead = p.scanner.canRead := by
    rw [Scanner.canRead, Scanner.canRead]
    exact congrArg (fun rest => !List.isEmpty rest) (h.rest p.scanner)
  have herrors : (r.parse p).errors.isEmpty = p.errors.isEmpty := List.isEmpty_map
  rw [Parse.rank, Parse.rank, hread, herrors]

/-- **The ways of reading a line correspond.** -/
theorem outcomes_eq (h : r.Respects t good) (hgood : good trail) :
    t.outcomes node (r.scanner s) (r.trail trail) = (t.outcomes node s trail).map r.parse := by
  induction node, s, trail using Tree.outcomes.induct t with
  | case1 node s trail _ hstall =>
    have hattempts := h.attempts node s trail hgood
    have hsuccesses : Tree.successes (t.attempts node (r.scanner s) (r.trail trail)) = [] := by
      rw [hattempts, successes_map, hstall]
      rfl
    rw [Tree.outcomes_of_stalled hsuccesses, Tree.outcomes_of_stalled hstall, hattempts, failures_map]
    rfl
  | case2 node s trail _ hmatch ih =>
    have hsuccesses : Tree.successes (t.attempts node (r.scanner s) (r.trail trail))
        = (Tree.successes (t.attempts node s trail)).map r.matched := by
      rw [h.attempts node s trail hgood, successes_map]
    have hne : Tree.successes (t.attempts node (r.scanner s) (r.trail trail)) ≠ [] := by
      rw [hsuccesses]
      simpa using hmatch
    rw [Tree.outcomes_of_matched hne, Tree.outcomes_of_matched hmatch, hsuccesses, List.flatMap_map,
      List.map_flatMap]
    apply List.flatMap_congr
    intro m hm
    show t.outcomesOf (r.matched m) = (t.outcomesOf m).map r.parse
    have hread : (r.matched m).scanner.canReadBytes 2 = m.scanner.canReadBytes 2 :=
      h.canReadBytes_eq m.scanner 2
    unfold Tree.outcomesOf
    rw [hread]
    split
    · next hmore =>
      show t.outcomes m.node (r.scanner m.scanner).skip (r.trail m.trail) = _
      rw [h.skip]
      exact ih m hm hmore (h.good_of_mem node s trail m hgood hm)
    · rfl

end Respects

end Recast

/-- A strategy picks by ranks alone. -/
theorem Parse.select_map (exhaustive : Bool) {f : Parse S → Parse S} (hf : ∀ p, (f p).rank = p.rank)
    (ps : List (Parse S)) : select exhaustive (ps.map f) = (select exhaustive ps).map f := by
  cases exhaustive with
  | false => exact List.head?_map
  | true =>
    show best? (ps.map f) = (best? ps).map f
    induction ps with
    | nil => rfl
    | cons p ps ih =>
      rw [List.map_cons, best?_cons, best?_cons, ih]
      cases best? ps with
      | none => rfl
      | some b =>
        show some (prefer (f p) (f b)) = some (f (prefer p b))
        unfold prefer
        rw [hf, hf]
        split <;> rfl

/-- **A dispatcher picks the results that correspond.** The two runs have to start from trails that do. -/
theorem Recast.Respects.parseFrom_eq {r : Recast S} {d : Dispatcher S} {good : Trail S (Handler S) → Prop}
    (h : r.Respects d.tree good) {s : Scanner} {source other : S} (hgood : good (.start source 0 s.cursor))
    (hstart : r.trail (.start source 0 s.cursor) = .start other 0 (r.scanner s).cursor) :
    d.parseFrom (r.scanner s) other = r.parse (d.parseFrom s source) := by
  have houtcomes : d.outcomes (r.scanner s) other = (d.outcomes s source).map r.parse := by
    rw [Dispatcher.outcomes, ← hstart]
    exact h.outcomes_eq hgood
  have hselect := d.select_outcomes (r.scanner s) other
  rw [houtcomes, Parse.select_map _ h.rank_eq, d.select_outcomes] at hselect
  exact (Option.some.inj hselect).symm

end CommandGrammar
