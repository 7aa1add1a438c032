import CommandGrammar.Proofs.Snapshot

/-!
# `Proofs.Recipe` — suggestions made from a builder

A provider is given a builder and may do with it what a builder allows: offer texts, start over, start over elsewhere,
take in what other builders collected, and hand in the result. Whatever it does, each suggestion that comes of it puts
another text in place of what the line in front of the cursor ends with, so that it stops at the cursor.

* `Suggestion.Amends` — the suggestion puts another text in place of what the line ends with;
* `Suggestions.UpTo` — a set for a line all of whose entries stop at one place; `exists_create_upTo` and
  `exists_merge_upTo` say that collecting and merging keep to it, and succeed;
* `Builder.Ready` — the invariant of a builder, with one lemma for each operation;
* `Recipe`, `Recipe.run` — what can be done with a builder, as data, and doing it;
* `Recipe.exists_run_of` — the induction over recipes: what all operations keep holds in the end;
* `Recipe.exists_run` — so following a recipe leaves a builder that is ready;
* `Provider.OnlyBuilds` — providers that do no more than follow a recipe, or give up with an error.
-/

namespace CommandGrammar

variable {S : Type}

/-! ## Sets that stop at one place -/

namespace Suggestions

/-- The set was made from suggestions, and its entries replace parts of the line that all stop at one place. -/
structure UpTo (line : String) (stop : Nat) (set : Suggestions) : Prop where
  /-- The set was made from suggestions. -/
  made : set.IsMade
  /-- Its range lies in the line. -/
  within : set.range.Within line
  /-- Its entries stop where they are to stop. -/
  stop_eq : ∀ s ∈ set.list, s.range.stop = stop

variable {line : String} {stop : Nat} {xs : List Suggestion}

/-- Where all ranges stop at one place their hull does. -/
theorem stop_of_hull {range : Range} (h : hull xs = some range) (hstop : ∀ s ∈ xs, s.range.stop = stop) :
    range.stop = stop := by
  have hne : xs ≠ [] := by
    rintro rfl
    cases h
  obtain ⟨s, hs⟩ := List.exists_mem_of_ne_nil xs hne
  -- The range from 0 to the place covers all of them, and the hull covers any one of them.
  apply Nat.le_antisymm
  · have hbound : ∀ t ∈ xs, t.range ≤ (⟨0, stop, Nat.zero_le stop⟩ : Range) := fun t ht =>
      ⟨Nat.zero_le _, Nat.le_of_eq (hstop t ht)⟩
    exact ((hull_le_iff h).mpr hbound).2
  · rw [← hstop s hs]
    exact (le_hull h hs).2

theorem upTo_empty (line : String) (stop : Nat) : empty.UpTo line stop :=
  ⟨isMade_empty, Range.within_point_zero line, by simp [empty]⟩

/-- Suggestions that stop at one place can be collected, and the set stops there. -/
theorem exists_create_upTo (hwithin : ∀ s ∈ xs, s.range.Within line) (hstop : ∀ s ∈ xs, s.range.stop = stop) :
    ∃ set, create line xs = .ok set ∧ set.UpTo line stop := by
  obtain ⟨set, hset⟩ := exists_create_of_within hwithin
  refine ⟨set, hset, ⟨line, xs, hset⟩, within_of_create hwithin hset, ?_⟩
  intro s hs
  obtain ⟨hnormal, ⟨_, rfl⟩ | ⟨hhull, _⟩⟩ := create_cases hset
  · cases hs
  · rw [hnormal.anchored s hs]
    exact stop_of_hull hhull hstop

/-- Sets that stop at one place can be merged, and the result stops there. -/
theorem exists_merge_upTo {sets : List Suggestions} (h : ∀ set ∈ sets, set.UpTo line stop) :
    ∃ merged, merge line sets = .ok merged ∧ merged.UpTo line stop := by
  have hfits : ∀ set ∈ sets, set.Fits line := fun set hset => ⟨(h set hset).made, (h set hset).within⟩
  have hstop : ∀ s ∈ sets.flatMap list, s.range.stop = stop :=
    List.forall_mem_flatMap.mpr fun set hset => (h set hset).stop_eq
  obtain ⟨merged, hmerged, hupTo⟩ := exists_create_upTo (within_flatMap hfits) hstop
  refine ⟨merged, ?_, hupTo⟩
  rw [merge_eq_create fun set hset => (h set hset).made.normal]
  exact hmerged

/-- What stands behind the line plays no part. -/
theorem UpTo.append {set : Suggestions} (h : set.UpTo line stop) (behind : String) :
    set.UpTo (line ++ behind) stop :=
  ⟨h.made, (Range.within_append_iff.mp h.within).1, h.stop_eq⟩

end Suggestions

/-! ## What a builder collects -/

/-- The suggestion puts another text in place of what the line ends with. -/
def Suggestion.Amends (line : String) (s : Suggestion) : Prop :=
  ∃ left typed, left ++ typed = line ∧ s.range.start = Text.byteSize left ∧
    s.range.stop = Text.byteSize line ∧ s.text ≠ typed

theorem Suggestion.Amends.within {line : String} {s : Suggestion} (h : s.Amends line) : s.range.Within line := by
  obtain ⟨left, typed, rfl, hstart, hstop, _⟩ := h
  refine ⟨?_, ?_⟩
  · rw [hstart]
    exact Text.isBoundary_append left typed
  · rw [hstop]
    exact ⟨_, [], List.append_nil _, rfl⟩

theorem Suggestion.Amends.stop_eq {line : String} {s : Suggestion} (h : s.Amends line) :
    s.range.stop = Text.byteSize line := by
  obtain ⟨_, _, _, _, hstop, _⟩ := h
  exact hstop

namespace Builder

/-- The invariant of a builder for a line: its token starts between two characters, and all that it collected puts
    another text in place of what the line ends with. -/
structure Ready (line : String) (b : Builder) : Prop where
  /-- The builder is for the line. -/
  input_eq : b.input = line
  /-- The token starts between two characters. -/
  start : Text.IsBoundary line b.start
  /-- What was collected. -/
  collected : ∀ s ∈ b.collected, s.Amends line

namespace Ready

variable {line : String} {b : Builder}

/-- The token can be read. -/
theorem exists_remaining (h : b.Ready line) :
    ∃ left typed, left ++ typed = line ∧ Text.byteSize left = b.start ∧ b.remaining = .ok typed := by
  obtain ⟨left, typed, hline, hstart⟩ := h.start.exists_append
  refine ⟨left, typed, hline, hstart, ?_⟩
  rw [remaining, h.input_eq, ← hline, ← hstart]
  exact Fault.after_append left typed

theorem exists_remainingLower (h : b.Ready line) : ∃ typed, b.remainingLower = .ok typed := by
  obtain ⟨_, typed, _, _, hremaining⟩ := h.exists_remaining
  rw [remainingLower, hremaining]
  exact ⟨_, rfl⟩

/-- Offering a text. -/
theorem exists_suggest (h : b.Ready line) (text : String) (tooltip : Option String) :
    ∃ b', b.suggest text tooltip = .ok b' ∧ b'.Ready line := by
  obtain ⟨left, typed, rfl, hstart, _⟩ := h.exists_remaining
  obtain ⟨input, start, collected⟩ := b
  obtain rfl : input = left ++ typed := h.input_eq
  obtain rfl : Text.byteSize left = start := hstart
  refine ⟨_, suggest_token_said left typed collected text tooltip, rfl, h.start, ?_⟩
  intro s hs
  rcases List.mem_append.mp hs with hs | hs
  · exact h.collected s hs
  · -- Only another text than the token is collected, for the range from the token to the end of the line.
    split at hs
    · cases hs
    · next htext =>
      obtain rfl := List.mem_singleton.mp hs
      exact ⟨left, typed, rfl, rfl, rfl, htext⟩

/-- Offering several texts. -/
theorem exists_suggestAll (h : b.Ready line) (texts : List String) :
    ∃ b', b.suggestAll texts = .ok b' ∧ b'.Ready line := by
  induction texts generalizing b with
  | nil => exact ⟨b, rfl, h⟩
  | cons text texts ih =>
    obtain ⟨first, hfirst, hready⟩ := h.exists_suggest text none
    obtain ⟨b', hrest, hready'⟩ := ih hready
    refine ⟨b', ?_, hready'⟩
    show (b.suggest text).bind (suggestAll · texts) = _
    rw [hfirst]
    exact hrest

/-- Starting over elsewhere. -/
theorem offset (h : b.Ready line) {start : Nat} (hstart : Text.IsBoundary line start) : (b.offset start).Ready line :=
  ⟨h.input_eq, hstart, by simp [Builder.offset]⟩

/-- Starting over. -/
theorem restart (h : b.Ready line) : b.restart.Ready line := h.offset h.start

/-- Taking in what another builder collected. -/
theorem add {other : Builder} (h : b.Ready line) (hother : other.Ready line) : (b.add other).Ready line := by
  refine ⟨h.input_eq, h.start, ?_⟩
  intro s hs
  rcases List.mem_append.mp hs with hs | hs
  · exact h.collected s hs
  · exact hother.collected s hs

/-- Handing in the result. -/
theorem exists_build (h : b.Ready line) : ∃ set, b.build = .ok set ∧ set.UpTo line (Text.byteSize line) := by
  rw [build, h.input_eq]
  exact Suggestions.exists_create_upTo (fun s hs => (h.collected s hs).within) fun s hs => (h.collected s hs).stop_eq

/-- Offering those candidates that continue the token, and handing in the result. -/
theorem exists_suggestMatching (h : b.Ready line) (candidates : List String) :
    ∃ set, b.suggestMatching candidates = .ok set ∧ set.UpTo line (Text.byteSize line) := by
  obtain ⟨typed, htyped⟩ := h.exists_remainingLower
  obtain ⟨b', hsuggest, hready⟩ := h.exists_suggestAll (candidates.filter (Matching.offers typed))
  obtain ⟨set, hset, hupTo⟩ := hready.exists_build
  refine ⟨set, ?_, hupTo⟩
  rw [suggestMatching_eq, htyped]
  show (b.suggestAll _).bind build = _
  rw [hsuggest]
  exact hset

end Ready

/-- A builder for the token `typed` behind `left` is ready. -/
theorem ready_token (left typed : String) : (token left typed).Ready (left ++ typed) :=
  ⟨rfl, Text.isBoundary_append left typed, by simp [token]⟩

end Builder

/-! ## Recipes -/

/-- What can be done with a builder to make another one. -/
inductive Recipe where
  /-- Taking the builder that was given. -/
  | given
  /-- Offering a text, with something to say about it or without. -/
  | suggest (first : Recipe) (text : String) (tooltip : Option String)
  /-- Starting over with the same token. -/
  | restart (first : Recipe)
  /-- Starting over with a token that starts elsewhere. -/
  | offset (first : Recipe) (start : Nat)
  /-- Taking in what was collected otherwise. -/
  | add (first second : Recipe)

namespace Recipe

/-- Follows the recipe with a builder. -/
def run (b : Builder) : Recipe → Except Fault Builder
  | given => .ok b
  | suggest first text tooltip => (first.run b).bind (·.suggest text tooltip)
  | restart first => (first.run b).map Builder.restart
  | offset first start => (first.run b).map (·.offset start)
  | add first second => (first.run b).bind fun collected => (second.run b).map collected.add

/-- Tokens start between two characters of the line only. -/
def Sound (line : String) : Recipe → Prop
  | given => True
  | suggest first _ _ => first.Sound line
  | restart first => first.Sound line
  | offset first start => first.Sound line ∧ Text.IsBoundary line start
  | add first second => first.Sound line ∧ second.Sound line

/-- **What all operations keep, following a sound recipe keeps**: whatever holds of the builder that was given and is
    kept by each operation, with what was done so far, holds in the end, and the end is reached. -/
theorem exists_run_of {line : String} {b : Builder} {P : Recipe → Builder → Prop} (hgiven : P .given b)
    (hsuggest : ∀ first b' text tooltip, P first b' →
      ∃ b'', b'.suggest text tooltip = .ok b'' ∧ P (.suggest first text tooltip) b'')
    (hrestart : ∀ first b', P first b' → P (.restart first) b'.restart)
    (hoffset : ∀ first b' start, Text.IsBoundary line start → P first b' → P (.offset first start) (b'.offset start))
    (hadd : ∀ first second b' other, P first b' → P second other → P (.add first second) (b'.add other))
    {recipe : Recipe} (h : recipe.Sound line) : ∃ b', recipe.run b = .ok b' ∧ P recipe b' := by
  -- On the recipe: the builder was made by what stands inside, and the last operation keeps what holds of it.
  induction recipe with
  | given => exact ⟨b, rfl, hgiven⟩
  | suggest first text tooltip ih =>
    obtain ⟨b', hrun, hholds⟩ := ih h
    rw [run, hrun]
    exact hsuggest first b' text tooltip hholds
  | restart first ih =>
    obtain ⟨b', hrun, hholds⟩ := ih h
    rw [run, hrun]
    exact ⟨_, rfl, hrestart first b' hholds⟩
  | offset first start ih =>
    obtain ⟨b', hrun, hholds⟩ := ih h.1
    rw [run, hrun]
    exact ⟨_, rfl, hoffset first b' start h.2 hholds⟩
  | add first second ih ih' =>
    obtain ⟨b', hrun, hholds⟩ := ih h.1
    obtain ⟨other, hrun', hother⟩ := ih' h.2
    rw [run, hrun, hrun']
    exact ⟨_, rfl, hadd first second b' other hholds hother⟩

/-- **A sound recipe can be followed with every builder that is ready, and leaves a builder that is ready.** -/
theorem exists_run {line : String} {b : Builder} (hready : b.Ready line) {recipe : Recipe} (h : recipe.Sound line) :
    ∃ b', recipe.run b = .ok b' ∧ b'.Ready line := by
  apply exists_run_of _ _ _ _ _ h
  · exact hready
  · exact fun _ _ text tooltip hready' => hready'.exists_suggest text tooltip
  · exact fun _ _ hready' => hready'.restart
  · exact fun _ _ _ hstart hready' => hready'.offset hstart
  · exact fun _ _ _ _ hready' hother => hready'.add hother

/-- What comes of a builder when a sound recipe is followed and its result is handed in, by itself or with candidates,
    or when an error is reported instead. -/
inductive Answers (b : Builder) : Except Failure Suggestions → Prop where
  | error (e : Error) : Answers b (.error (.error e))
  | build {recipe : Recipe} (h : recipe.Sound b.input) :
      Answers b (((recipe.run b).bind Builder.build).mapError .fault)
  | matching {recipe : Recipe} (h : recipe.Sound b.input) (candidates : List String) :
      Answers b (((recipe.run b).bind (·.suggestMatching candidates)).mapError .fault)

/-- Such an answer is an error that was reported, or a set that stops at the end of the line. -/
theorem Answers.error_or_upTo {line : String} {b : Builder} (hready : b.Ready line)
    {answer : Except Failure Suggestions} (h : Answers b answer) :
    (∃ e, answer = .error (.error e)) ∨ ∃ set, answer = .ok set ∧ set.UpTo line (Text.byteSize line) := by
  cases h with
  | error e => exact .inl ⟨e, rfl⟩
  | build h =>
    rw [hready.input_eq] at h
    obtain ⟨b', hrun, hready'⟩ := exists_run hready h
    obtain ⟨set, hset, hupTo⟩ := hready'.exists_build
    refine .inr ⟨set, ?_, hupTo⟩
    rw [hrun]
    exact mapError_eq_ok_iff.mpr hset
  | matching h candidates =>
    rw [hready.input_eq] at h
    obtain ⟨b', hrun, hready'⟩ := exists_run hready h
    obtain ⟨set, hset, hupTo⟩ := hready'.exists_suggestMatching candidates
    refine .inr ⟨set, ?_, hupTo⟩
    rw [hrun]
    exact mapError_eq_ok_iff.mpr hset

end Recipe

/-- The provider only builds: for each context and builder it follows a recipe, or reports an error. -/
def Provider.OnlyBuilds (provider : Provider S) : Prop := ∀ context b, Recipe.Answers b (provider context b)

/-- All providers of the tree only build. -/
def Tree.OnlyBuilds (t : Tree S) : Prop :=
  ∀ b ∈ t.branches, ∀ provider ∈ b.label.provider?, Provider.OnlyBuilds provider

end CommandGrammar
