import CommandGrammar.Proofs.Replacement
import CommandGrammar.Suggestion.Builder

/-!
# `Proofs.Matching` — which candidates continue what was typed

Whether a candidate continues what was typed is found out by looking at byte offsets: at the start, then behind the
first boundary from there on, then behind the next one. The rule does not speak of offsets, nor of an order in which
to look: what was typed starts the candidate, or what is left of it behind some boundary.

* `Matching.boundary?_cases` — the first boundary of a text, with all that stands in front of it;
* `Matching.offers_iff` — what the rule says;
* `Matching.seek_append` — the invariant of the search: from an offset between two characters it finds what the rule
  finds in the rest of the candidate, since no boundary is passed over;
* `Matching.continues_decides` — hence the search comes to an end for every candidate, and decides the rule;
* `Builder.suggestMatching_eq` — so offering candidates is offering those that the rule admits.
-/

namespace CommandGrammar

namespace Matching

/-! ## Boundaries -/

theorem isBoundary_iff {c : Char} : isBoundary c ↔ c = '.' ∨ c = '_' := by simp [isBoundary]

theorem utf8Size_of_isBoundary {c : Char} (h : isBoundary c) : c.utf8Size = 1 := by
  rcases isBoundary_iff.mp h with rfl | rfl <;> rfl

/-- A text has no boundary, or it has a first one, with none in front of it. -/
theorem boundary?_cases (cs : List Char) :
    (boundary? cs = none ∧ ∀ c ∈ cs, ¬ isBoundary c) ∨
      ∃ before c after, cs = before ++ c :: after ∧ boundary? cs = some (Text.size before) ∧ isBoundary c ∧
        ∀ x ∈ before, ¬ isBoundary x := by
  induction cs with
  | nil => exact .inl ⟨rfl, by simp⟩
  | cons c cs ih =>
    by_cases hc : isBoundary c
    · exact .inr ⟨[], c, cs, rfl, if_pos hc, hc, by simp⟩
    · have hstep : boundary? (c :: cs) = (boundary? cs).map (c.utf8Size + ·) := if_neg hc
      rcases ih with ⟨hnone, hall⟩ | ⟨before, b, after, rfl, hsome, hb, hall⟩
      · refine .inl ⟨by rw [hstep, hnone]; rfl, ?_⟩
        exact List.forall_mem_cons.mpr ⟨hc, hall⟩
      · refine .inr ⟨c :: before, b, after, rfl, by rw [hstep, hsome]; rfl, hb, ?_⟩
        exact List.forall_mem_cons.mpr ⟨hc, hall⟩

/-! ## The rule -/

/-- What was typed starts what is left of a text behind some boundary. -/
def StartsPart (typed cs : List Char) : Prop :=
  ∃ before c after, cs = before ++ c :: after ∧ isBoundary c ∧ typed <+: after

theorem startsLater_iff {typed cs : List Char} : startsLater typed cs ↔ StartsPart typed cs := by
  induction cs with
  | nil => simp [startsLater, StartsPart]
  | cons c cs ih =>
    rw [startsLater, Bool.or_eq_true, Bool.and_eq_true, List.isPrefixOf_iff_prefix, ih]
    constructor
    · rintro (⟨hc, hstarts⟩ | ⟨before, b, after, rfl, hb, hstarts⟩)
      · exact ⟨[], c, cs, rfl, hc, hstarts⟩
      · exact ⟨c :: before, b, after, rfl, hb, hstarts⟩
    · rintro ⟨before, b, after, heq, hb, hstarts⟩
      cases before with
      | nil =>
        obtain ⟨rfl, rfl⟩ := List.cons.inj heq
        exact .inl ⟨hb, hstarts⟩
      | cons x before =>
        obtain ⟨rfl, rfl⟩ := List.cons.inj heq
        exact .inr ⟨before, b, after, rfl, hb, hstarts⟩

theorem offers_iff {typed candidate : String} :
    offers typed candidate ↔ typed.toList <+: candidate.toList ∨ StartsPart typed.toList candidate.toList := by
  rw [offers, Bool.or_eq_true, List.isPrefixOf_iff_prefix, startsLater_iff]

/-- Characters that are no boundaries can be passed over. -/
theorem startsLater_append {before : List Char} (h : ∀ c ∈ before, ¬ isBoundary c) (typed rest : List Char) :
    startsLater typed (before ++ rest) = startsLater typed rest := by
  induction before with
  | nil => rfl
  | cons c before ih =>
    obtain ⟨hc, hbefore⟩ := List.forall_mem_cons.mp h
    rw [List.cons_append, startsLater, ih hbefore]
    simp [hc]

theorem startsLater_of_none {cs : List Char} (h : ∀ c ∈ cs, ¬ isBoundary c) (typed : List Char) :
    startsLater typed cs = false := by
  simpa [startsLater] using startsLater_append h typed []

/-! ## The search -/

/-- One step of the search, with what stands in front of the offset and behind it. -/
theorem seek_step (typed front rest : String) :
    seek typed (front ++ rest) (Text.byteSize front)
      = if typed.toList.isPrefixOf rest.toList then .ok true
        else match boundary? rest.toList with
          | some n => seek typed (front ++ rest) (Text.byteSize front + n + 1)
          | none => .ok false := by
  rw [seek]
  split
  · next hafter =>
    rw [Fault.after_append] at hafter
    cases hafter
  · next hafter =>
    rw [Fault.after_append] at hafter
    obtain rfl := Except.ok.inj hafter
    rfl

/-- **From an offset between two characters the search decides the rule for the rest of the candidate.** Where what
    was typed does not stand at the offset, the search goes on behind the first boundary; what it passes over holds no
    boundary, so that the rule finds nothing there either. -/
theorem seek_append (typed front rest : String) :
    seek typed (front ++ rest) (Text.byteSize front)
      = .ok (typed.toList.isPrefixOf rest.toList || startsLater typed.toList rest.toList) := by
  rw [seek_step]
  split
  · next hstarts => rw [hstarts, Bool.true_or]
  · next hstarts =>
    rw [Bool.eq_false_iff.mpr hstarts, Bool.false_or]
    rcases boundary?_cases rest.toList with ⟨hnone, hall⟩ | ⟨before, c, after, hrest, hsome, hc, hall⟩
    · rw [hnone, startsLater_of_none hall]
    · -- The offset behind the boundary is the end of what was passed, as a boundary takes one byte.
      have hfront : front ++ rest = front ++ String.ofList (before ++ [c]) ++ String.ofList after := by
        rw [String.append_assoc, ← String.ofList_append, List.append_assoc, List.singleton_append, ← hrest,
          String.ofList_toList]
      have hoffset : Text.byteSize front + Text.size before + 1
          = Text.byteSize (front ++ String.ofList (before ++ [c])) := by
        rw [Text.byteSize_append, Text.byteSize_ofList, Text.size_append, Text.size_cons, utf8Size_of_isBoundary hc]
        simp [Nat.add_assoc]
      have hshorter : after.length < rest.toList.length := by
        rw [hrest]
        simp
        omega
      rw [hsome]
      dsimp only
      rw [hfront, hoffset, seek_append typed _ (String.ofList after), hrest, startsLater_append hall, startsLater, hc,
        Bool.true_and, String.toList_ofList]
termination_by rest.toList.length
decreasing_by simpa using hshorter

theorem continues_eq (typed candidate : String) : continues typed candidate = .ok (offers typed candidate) := by
  have hseek := seek_append typed "" candidate
  rw [String.empty_append] at hseek
  exact hseek

/-- **The search for what was typed ends, at every candidate, and decides the rule.** For all texts it gives an answer,
    so that no candidate is ever cut inside a character or behind its end; and it says that the candidate continues
    what was typed exactly when that starts the candidate, or the part of the candidate behind some dot or underscore
    in it, be it the last character or one of several in a row. -/
theorem continues_decides (typed candidate : String) :
    ∃ answer, continues typed candidate = .ok answer ∧
      (answer = true ↔ typed.toList <+: candidate.toList ∨
        ∃ before c after, candidate.toList = before ++ c :: after ∧ (c = '.' ∨ c = '_') ∧ typed.toList <+: after) := by
  refine ⟨offers typed candidate, continues_eq typed candidate, ?_⟩
  rw [offers_iff]
  simp only [StartsPart, isBoundary_iff]

example : continues "_c" "é..b__c" = .ok true := by decide +kernel

example : continues "bc" "é..b_c_" = .ok false := by decide +kernel

end Matching

/-! ## Offering candidates -/

section Lists

variable {α ε : Type} {f : α → Except ε Bool} {g : α → Bool} {xs : List α}

/-- Elements are collected last one first, in front of those that were there before. -/
theorem filterAuxM_eq_ok (h : ∀ x ∈ xs, f x = .ok (g x)) (collected : List α) :
    xs.filterAuxM f collected = .ok ((xs.filter g).reverse ++ collected) := by
  induction xs generalizing collected with
  | nil => rfl
  | cons x xs ih =>
    obtain ⟨hx, hxs⟩ := List.forall_mem_cons.mp h
    show (f x).bind (fun stays => xs.filterAuxM f (cond stays (x :: collected) collected)) = _
    rw [hx]
    show xs.filterAuxM f (cond (g x) (x :: collected) collected) = _
    rw [ih hxs]
    cases hstays : g x <;> simp [hstays]

/-- Where each element is decided, those stay for which the answer is yes. -/
theorem filterM_eq_ok_filter (h : ∀ x ∈ xs, f x = .ok (g x)) : xs.filterM f = .ok (xs.filter g) := by
  show (xs.filterAuxM f []).bind (fun collected => .ok collected.reverse) = _
  rw [filterAuxM_eq_ok h]
  show Except.ok ((xs.filter g).reverse ++ []).reverse = _
  rw [List.append_nil, List.reverse_reverse]

end Lists

/-- Offering candidates is offering those that the rule admits, for the token in lower case. -/
theorem Builder.suggestMatching_eq (b : Builder) (candidates : List String) :
    b.suggestMatching candidates = b.remainingLower.bind fun typed =>
      (b.suggestAll (candidates.filter (Matching.offers typed))).bind build := by
  show (b.remainingLower.bind fun typed => (candidates.filterM (Matching.continues typed)).bind fun matching =>
    (b.suggestAll matching).bind build) = _
  congr 1
  funext typed
  rw [filterM_eq_ok_filter fun candidate _ => Matching.continues_eq typed candidate]
  rfl

end CommandGrammar
