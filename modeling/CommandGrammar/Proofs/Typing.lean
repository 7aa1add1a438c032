import CommandGrammar.Proofs.Case
import CommandGrammar.Proofs.Completion

/-!
# `Proofs.Typing` — what is offered to someone who is typing it

Whoever types a text letter by letter wants to be offered it at every letter on the way. What was typed counts in small
letters, and that decides whether this succeeds:

* a word counts in small letters as well; it is offered for each of its initial segments but those that break off
  within a word right behind a capital sigma (`Label.literal_offered_iff`);
* candidates count as they are; one is offered for its initial segments in small letters, and for one with capitals only
  if the small form of that happens to start a later part of it (`Builder.candidate_offered_iff`).

That both exceptions occur is shown by `Label.literal_hidden_behind_sigma` and `Builder.candidate_hidden_by_capital`.
-/

namespace CommandGrammar

variable {S : Type}

/-! ## Texts offered for a token -/

/-- A text that goes on behind what was typed is another text. -/
theorem ne_of_append_eq {typed rest text : String} (hne : rest ≠ "") (heq : typed ++ rest = text) : text ≠ typed := by
  rintro rfl
  exact hne (by simpa using heq)

namespace Builder

variable {left typed : String} {texts : List String} {set : Suggestions}

/-- A builder that has collected nothing is one for a token, if that starts between two characters. -/
theorem exists_token {b : Builder} (hfresh : b.collected = []) (hstart : Text.IsBoundary b.input b.start) :
    ∃ left typed, b = token left typed := by
  obtain ⟨left, typed, hinput, hleft⟩ := hstart.exists_append
  refine ⟨left, typed, ?_⟩
  obtain ⟨input, start, collected⟩ := b
  obtain rfl : collected = [] := hfresh
  obtain rfl : left ++ typed = input := hinput
  obtain rfl : Text.byteSize left = start := hleft
  rfl

/-- A set made from texts offers these texts, but for the token itself. -/
theorem exists_text_iff (hmem : ∀ s, s ∈ set.list ↔ ∃ text ∈ texts, text ≠ typed ∧ s = offer left typed text)
    {text : String} : (∃ s ∈ set.list, s.text = text) ↔ text ∈ texts ∧ text ≠ typed := by
  constructor
  · rintro ⟨s, hs, rfl⟩
    obtain ⟨text, htext, hother, rfl⟩ := (hmem s).mp hs
    exact ⟨htext, hother⟩
  · rintro ⟨htext, hother⟩
    exact ⟨offer left typed text, (hmem _).mpr ⟨text, htext, hother, rfl⟩, rfl⟩

end Builder

/-! ## Words -/

namespace Label

theorem mem_texts_literal_iff {name typed text : String} :
    text ∈ (literal name : Label S).texts typed ↔
      text = name ∧ (Text.lowercase typed).toList <+: (Text.lowercase name).toList := by
  rw [texts, ← List.isPrefixOf_iff_prefix]
  split
  · next hstarts => simp [hstarts]
  · next hstarts => simp [hstarts]

/-- **A word is offered for each of its initial segments, unless the segment breaks off behind a capital sigma.** For
    every word, context and builder that has collected nothing, for a token that starts between two characters, the word
    makes a set of suggestions, and all that this can hold is the word itself in place of the token. Where the token is
    an initial segment of the word but not all of it, the word is offered exactly unless the segment ends, apart from
    characters that do not count, with a capital sigma behind a letter, and the word goes on with a letter. -/
theorem literal_offered_iff (name : String) (context : Context S) (b : Builder) (hfresh : b.collected = [])
    (hstart : Text.IsBoundary b.input b.start) :
    ∃ typed set, b.remaining = .ok typed ∧ (literal name : Label S).suggest context b = .ok set ∧
      (∀ s ∈ set.list, s.text = name ∧ s.range.start = b.start ∧ s.range.stop = Text.byteSize b.input) ∧
      ∀ rest, rest ≠ "" → typed ++ rest = name →
        ((∃ s ∈ set.list, s.text = name) ↔ ¬ Text.BreaksAfterSigma typed.toList rest.toList) := by
  obtain ⟨left, typed, rfl⟩ := Builder.exists_token hfresh hstart
  obtain ⟨set, hset, hmem⟩ := Builder.exists_build_token left typed ((literal name : Label S).texts typed)
  refine ⟨typed, set, Builder.remaining_token left typed [], ?_, ?_, ?_⟩
  · rw [suggest_of_plain rfl, own_token, hset]
    rfl
  · intro s hs
    obtain ⟨text, htext, _, rfl⟩ := (hmem s).mp hs
    exact ⟨(mem_texts_literal_iff.mp htext).1, rfl, rfl⟩
  · rintro rest hne rfl
    rw [Builder.exists_text_iff hmem, mem_texts_literal_iff, Text.lowercase_prefix_iff]
    simp [ne_of_append_eq hne rfl]

/-- Behind another word, a word that goes on with a hyphen behind its sigma is offered there, and one that goes on with a
    letter is not, even if an accent was typed behind the sigma. -/
theorem literal_offered_iff_sigma :
    let hyphen : Builder := ⟨"né ΑΣ", 4, []⟩
    let accent : Builder := ⟨"né ΑΣ\u0301", 4, []⟩
    let context : Context Unit := ⟨"né ΑΣ", (Trail.start () 0 4 : Trail Unit Unit)⟩
    hyphen.collected = [] ∧ Text.IsBoundary hyphen.input hyphen.start ∧
      (∃ set, (literal "ΑΣ-Α" : Label Unit).suggest context hyphen = .ok set ∧ ∃ s ∈ set.list, s.text = "ΑΣ-Α") ∧
      accent.collected = [] ∧ Text.IsBoundary accent.input accent.start ∧
      ∃ set, (literal "ΑΣ\u0301Α" : Label Unit).suggest context accent = .ok set ∧
        ¬ ∃ s ∈ set.list, s.text = "ΑΣ\u0301Α" := by
  intro hyphen accent context
  have hhyphen : Text.IsBoundary hyphen.input hyphen.start := by decide
  have haccent : Text.IsBoundary accent.input accent.start := by decide
  refine ⟨rfl, hhyphen, ?_, rfl, haccent, ?_⟩
  · obtain ⟨typed, set, htyped, hset, _, hoffered⟩ := literal_offered_iff "ΑΣ-Α" context hyphen rfl hhyphen
    obtain rfl : "ΑΣ" = typed := Except.ok.inj ((show _ = Except.ok "ΑΣ" by decide +kernel).symm.trans htyped)
    refine ⟨set, hset, (hoffered "-Α" (by decide) (by decide)).mpr ?_⟩
    -- A hyphen is no letter, and it counts.
    rintro ⟨_, _, _, _, _, hletter⟩
    exact absurd hletter (by decide +kernel)
  · obtain ⟨typed, set, htyped, hset, _, hoffered⟩ := literal_offered_iff "ΑΣ\u0301Α" context accent rfl haccent
    obtain rfl : "ΑΣ\u0301" = typed :=
      Except.ok.inj ((show _ = Except.ok "ΑΣ\u0301" by decide +kernel).symm.trans htyped)
    refine ⟨set, hset, fun hsome => (hoffered "Α" (by decide) (by decide)).mp hsome ?_⟩
    exact ⟨['Α'], ['\u0301'], by decide, by decide +kernel, List.forall_mem_singleton.mpr (by decide +kernel),
      by decide +kernel⟩

/-- A word in capitals is missing from what is offered to someone who has typed it up to its sigma. -/
theorem literal_hidden_behind_sigma :
    let b : Builder := ⟨"ΑΣ", 0, []⟩
    let context : Context Unit := ⟨"ΑΣ", (Trail.start () 0 0 : Trail Unit Unit)⟩
    b.remaining = .ok "ΑΣ" ∧ "ΑΣ" ++ "Α" = "ΑΣΑ" ∧
      (literal "ΑΣΑ" : Label Unit).suggest context b = .ok .empty := by
  intro b context
  exact ⟨by decide +kernel, by decide, by decide +kernel⟩

end Label

/-! ## Candidates -/

namespace Builder

open Matching (StartsPart)

/-- **A candidate is offered for each of its initial segments in small letters.** For every builder that has collected
    nothing, for a token that starts between two characters, and every list of candidates, the candidates make a set of
    suggestions. It offers exactly those candidates other than the token that the token in lower case starts, or a part
    of which it starts behind a dot or an underscore. So where the token is an initial segment of a candidate but not all
    of it, the candidate is offered exactly if there are no capitals in the token, or if the token in lower case starts
    such a part. -/
theorem candidate_offered_iff (b : Builder) (hfresh : b.collected = []) (hstart : Text.IsBoundary b.input b.start)
    (candidates : List String) :
    ∃ typed set, b.remaining = .ok typed ∧ b.suggestMatching candidates = .ok set ∧
      (∀ text, (∃ s ∈ set.list, s.text = text) ↔
        (text ∈ candidates ∧ ((Text.lowercase typed).toList <+: text.toList ∨
          StartsPart (Text.lowercase typed).toList text.toList)) ∧ text ≠ typed) ∧
      ∀ candidate ∈ candidates, ∀ rest, rest ≠ "" → typed ++ rest = candidate →
        ((∃ s ∈ set.list, s.text = candidate) ↔
          Text.IsSmall typed.toList ∨ StartsPart (Text.lowercase typed).toList candidate.toList) := by
  obtain ⟨left, typed, rfl⟩ := exists_token hfresh hstart
  obtain ⟨set, hset, hmem⟩ :=
    exists_build_token left typed (candidates.filter (Matching.offers (Text.lowercase typed)))
  have hoffered : ∀ text, (∃ s ∈ set.list, s.text = text) ↔
      (text ∈ candidates ∧ ((Text.lowercase typed).toList <+: text.toList ∨
        StartsPart (Text.lowercase typed).toList text.toList)) ∧ text ≠ typed := by
    intro text
    rw [exists_text_iff hmem, List.mem_filter, Matching.offers_iff]
  refine ⟨typed, set, remaining_token left typed [], ?_, hoffered, ?_⟩
  · rw [suggestMatching_eq, remainingLower_token]
    exact hset
  · rintro candidate hcandidate rest hne rfl
    rw [hoffered, Text.lowercase_prefix_self_iff]
    simp [hcandidate, ne_of_append_eq hne rfl]

/-- Behind another word, two letters the first of which is a capital: the candidate that has its capital in this place
    only is not offered, and one that goes on with the same letters behind an underscore is. In small letters a candidate
    is offered as it stands. -/
theorem candidate_offered_iff_capital :
    let capital : Builder := ⟨"né Mo", 4, []⟩
    let small : Builder := ⟨"né mo", 4, []⟩
    let candidates := ["Moss", "Mo_moss", "moss"]
    capital.collected = [] ∧ Text.IsBoundary capital.input capital.start ∧
      "Moss" ∈ candidates ∧ "Mo_moss" ∈ candidates ∧
      (∃ set, capital.suggestMatching candidates = .ok set ∧
        (¬ ∃ s ∈ set.list, s.text = "Moss") ∧ ∃ s ∈ set.list, s.text = "Mo_moss") ∧
      small.collected = [] ∧ Text.IsBoundary small.input small.start ∧ "moss" ∈ candidates ∧
      ∃ set, small.suggestMatching candidates = .ok set ∧ ∃ s ∈ set.list, s.text = "moss" := by
  intro capital small candidates
  have hcapital : Text.IsBoundary capital.input capital.start := by decide
  have hsmall : Text.IsBoundary small.input small.start := by decide
  have hmoss : "Moss" ∈ candidates := by decide
  have hlater : "Mo_moss" ∈ candidates := by decide
  have hlower : "moss" ∈ candidates := by decide
  refine ⟨rfl, hcapital, hmoss, hlater, ?_, rfl, hsmall, hlower, ?_⟩
  · obtain ⟨typed, set, htyped, hset, _, hoffered⟩ := candidate_offered_iff capital rfl hcapital candidates
    obtain rfl : "Mo" = typed := Except.ok.inj ((show _ = Except.ok "Mo" by decide +kernel).symm.trans htyped)
    refine ⟨set, hset, ?_, (hoffered "Mo_moss" hlater "_moss" (by decide) (by decide)).mpr (.inr ?_)⟩
    · intro hsome
      rcases (hoffered "Moss" hmoss "ss" (by decide) (by decide)).mp hsome with hsmall | hpart
      · exact absurd hsmall (by decide +kernel)
      · exact absurd (Matching.startsLater_iff.mpr hpart) (by decide +kernel)
    · exact Matching.startsLater_iff.mp (by decide +kernel)
  · obtain ⟨typed, set, htyped, hset, _, hoffered⟩ := candidate_offered_iff small rfl hsmall candidates
    obtain rfl : "mo" = typed := Except.ok.inj ((show _ = Except.ok "mo" by decide +kernel).symm.trans htyped)
    exact ⟨set, hset, (hoffered "moss" hlower "ss" (by decide) (by decide)).mpr (.inl (by decide +kernel))⟩

/-- A candidate is missing from what is offered to someone who types its first letters as they are. -/
theorem candidate_hidden_by_capital :
    let b : Builder := ⟨"Mo", 0, []⟩
    b.remaining = .ok "Mo" ∧ "Mo" ++ "ss" = "Moss" ∧ b.suggestMatching ["Moss"] = .ok .empty := by
  intro b
  exact ⟨by decide +kernel, by decide, by decide +kernel⟩

end Builder

end CommandGrammar
