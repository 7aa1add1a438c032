import CommandGrammar.Text.Lowercase
import Mathlib.Data.List.TakeWhile

/-!
# `Proofs.Case` — small forms and initial segments

What was typed is an initial segment of what is meant, and both are compared in small letters. Small forms are made
character by character, with one exception: a capital sigma looks at what surrounds it. So there are two questions,
and this module answers both exactly.

* `Text.lowercase_prefix_iff` — when is the small form of an initial segment an initial segment of the small form?
  Unless the text breaks off within a word right behind a capital sigma, `BreaksAfterSigma`.
* `Text.lowercase_prefix_self_iff` — when is the small form of an initial segment an initial segment of the text itself?
  When the segment is in small letters already, `IsSmall`.

Both are one induction over the segment, with the characters in front of it as a parameter, since a capital sigma looks
in front of the segment as well.
-/

namespace CommandGrammar.Text

/-! ## Single characters -/

/-- Nothing in the text has another small form than itself. -/
def IsSmall (cs : List Char) : Prop := ∀ c ∈ cs, lowerChar c = [c]

instance (cs : List Char) : Decidable (IsSmall cs) := List.decidableBAll (fun c => lowerChar c = [c]) cs

/-- A character has one character for its small form, but for the one that keeps its dot. -/
theorem lowerChar_cases (c : Char) :
    c = dottedCapitalI ∧ lowerChar c = ['i', '\u0307'] ∨ ∃ small, lowerChar c = [small] := by
  unfold lowerChar
  split
  · next hc => exact .inl ⟨hc, rfl⟩
  · split
    · exact .inr ⟨_, rfl⟩
    · exact .inr ⟨_, rfl⟩

theorem lowerChar_capitalSigma_ne : lowerChar capitalSigma ≠ [capitalSigma] := by decide +kernel

theorem lowerSigma_ne (before after : List Char) : lowerSigma before after ≠ capitalSigma := by
  unfold lowerSigma
  split <;> decide

theorem lowerAfter_sigma (before cs : List Char) :
    lowerAfter before (capitalSigma :: cs) = lowerSigma before cs :: lowerAfter (capitalSigma :: before) cs := by
  rw [lowerAfter, if_pos rfl]
  rfl

theorem lowerAfter_of_ne {c : Char} (h : c ≠ capitalSigma) (before cs : List Char) :
    lowerAfter before (c :: cs) = lowerChar c ++ lowerAfter (c :: before) cs := by
  rw [lowerAfter, if_neg h]

/-! ## Surroundings -/

variable {before back rest typed : List Char}

/-- Characters that do not count are looked through. -/
theorem meetsCased_append_of_all (h : ∀ c ∈ back, inRanges Case.ignorableRanges c) (rest : List Char) :
    meetsCased (back ++ rest) = meetsCased rest := by
  rw [meetsCased, List.dropWhile_append_of_pos h]
  rfl

/-- Behind a character that counts nobody looks. -/
theorem meetsCased_append_of_not_all (h : ¬ ∀ c ∈ back, inRanges Case.ignorableRanges c) (rest : List Char) :
    meetsCased (back ++ rest) = meetsCased back := by
  obtain ⟨c, cs, hcs⟩ := List.exists_cons_of_ne_nil (mt List.dropWhile_eq_nil_iff.mp h)
  rw [meetsCased, meetsCased, List.dropWhile_append, hcs]
  rfl

/-- **More text behind a capital sigma changes its small form in one case:** a letter stands in front, only characters
    that do not count stand behind, and the text goes on with a letter. -/
theorem lowerSigma_append_eq_iff :
    lowerSigma before back = lowerSigma before (back ++ rest) ↔
      ¬ (meetsCased before ∧ (∀ c ∈ back, inRanges Case.ignorableRanges c) ∧ meetsCased rest) := by
  unfold lowerSigma
  by_cases hall : ∀ c ∈ back, inRanges Case.ignorableRanges c
  · have hnone : meetsCased back = false := by
      have happend := meetsCased_append_of_all hall []
      rwa [List.append_nil] at happend
    rw [meetsCased_append_of_all hall, hnone, and_iff_right hall]
    cases meetsCased before <;> cases meetsCased rest <;> simp
  · rw [meetsCased_append_of_not_all hall]
    exact iff_of_true rfl fun h => hall h.2.1

/-- Where a character may stand in a text that starts with a known one. -/
theorem forall_split_cons_iff {c mark : Char} {cs : List Char} {P : List Char → List Char → Prop} :
    (∀ front back, c :: cs = front ++ mark :: back → P front back) ↔
      (c = mark → P [] cs) ∧ ∀ front back, cs = front ++ mark :: back → P (c :: front) back := by
  constructor
  · intro h
    refine ⟨fun hc => h [] cs (by rw [hc]; rfl), fun front back hcs => h (c :: front) back (by rw [hcs]; rfl)⟩
  · rintro ⟨hhead, htail⟩ front back heq
    cases front with
    | nil =>
      obtain ⟨hc, rfl⟩ := List.cons.inj heq
      exact hhead hc
    | cons x front =>
      obtain ⟨rfl, hcs⟩ := List.cons.inj heq
      exact htail front back hcs

/-! ## The small form of an initial segment -/

/-- The text breaks off within a word, right behind a capital sigma and characters that do not count. What was typed so
    far looks like a word that ends with the sigma; in the whole text a letter follows. -/
def BreaksAfterSigma (typed rest : List Char) : Prop :=
  ∃ front back, typed = front ++ capitalSigma :: back ∧ meetsCased front.reverse ∧
    (∀ c ∈ back, inRanges Case.ignorableRanges c) ∧ meetsCased rest

/-- The small form of an initial segment starts that of the text when each capital sigma in it gets the same form in
    both. -/
theorem lowerAfter_prefix_iff :
    lowerAfter before typed <+: lowerAfter before (typed ++ rest) ↔
      ∀ front back, typed = front ++ capitalSigma :: back →
        lowerSigma (front.reverse ++ before) back = lowerSigma (front.reverse ++ before) (back ++ rest) := by
  -- On the segment: its first character is in front of all the others.
  induction typed generalizing before with
  | nil => simp [lowerAfter]
  | cons c cs ih =>
    rw [forall_split_cons_iff, List.cons_append]
    have htail : (∀ front back, cs = front ++ capitalSigma :: back →
        lowerSigma ((c :: front).reverse ++ before) back = lowerSigma ((c :: front).reverse ++ before) (back ++ rest)) ↔
          lowerAfter (c :: before) cs <+: lowerAfter (c :: before) (cs ++ rest) := by
      simp only [ih, List.reverse_cons, List.append_assoc, List.singleton_append]
    rw [htail]
    by_cases hc : c = capitalSigma
    · subst hc
      rw [lowerAfter_sigma, lowerAfter_sigma, List.cons_prefix_cons]
      simp
    · rw [lowerAfter_of_ne hc, lowerAfter_of_ne hc, List.prefix_append_right_inj]
      simp [hc]

/-- **The small form of an initial segment starts the small form of the text, unless the segment breaks off within a
    word right behind a capital sigma.** -/
theorem lowercase_prefix_iff (typed rest : String) :
    (lowercase typed).toList <+: (lowercase (typed ++ rest)).toList ↔
      ¬ BreaksAfterSigma typed.toList rest.toList := by
  rw [lowercase, lowercase, String.toList_ofList, String.toList_ofList, String.toList_append, lowerAfter_prefix_iff]
  simp only [List.append_nil, lowerSigma_append_eq_iff, BreaksAfterSigma, not_exists, not_and]

/-! ## Small letters -/

/-- The small form of an initial segment can start the text itself only if nothing in the segment changes. -/
theorem isSmall_of_starts (h : lowerAfter before typed <+: typed ++ rest) : IsSmall typed := by
  induction typed generalizing before with
  | nil => exact fun c hc => by cases hc
  | cons c cs ih =>
    rw [List.cons_append] at h
    by_cases hc : c = capitalSigma
    · rw [hc, lowerAfter_sigma, List.cons_prefix_cons] at h
      exact absurd h.1 (lowerSigma_ne before cs)
    · rw [lowerAfter_of_ne hc] at h
      rcases lowerChar_cases c with ⟨hdotted, hsmall⟩ | ⟨small, hsmall⟩
      · rw [hsmall, hdotted, List.cons_append, List.cons_prefix_cons] at h
        exact absurd h.1 (by decide)
      · rw [hsmall, List.singleton_append, List.cons_prefix_cons] at h
        exact List.forall_mem_cons.mpr ⟨by rw [hsmall, h.1], ih h.2⟩

theorem lowerAfter_of_isSmall (h : IsSmall typed) : lowerAfter before typed = typed := by
  induction typed generalizing before with
  | nil => rfl
  | cons c cs ih =>
    obtain ⟨hsmall, hcs⟩ := List.forall_mem_cons.mp h
    have hc : c ≠ capitalSigma := by
      rintro rfl
      exact lowerChar_capitalSigma_ne hsmall
    rw [lowerAfter_of_ne hc, hsmall, ih hcs]
    rfl

/-- **The small form of an initial segment starts the text itself exactly when the segment is in small letters.** -/
theorem lowercase_prefix_self_iff (typed rest : String) :
    (lowercase typed).toList <+: (typed ++ rest).toList ↔ IsSmall typed.toList := by
  rw [lowercase, String.toList_ofList, String.toList_append]
  refine ⟨isSmall_of_starts, fun h => ?_⟩
  rw [lowerAfter_of_isSmall h]
  exact List.prefix_append _ _

end CommandGrammar.Text
