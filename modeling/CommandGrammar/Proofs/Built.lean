import CommandGrammar.Proofs.Recipe

/-!
# `Proofs.Built` — sets that can be built, and what they offer

There are four ways to come by a set of suggestions: the set without entries, collecting suggestions for a line, merging
sets, and handing in what a builder collected. Whichever way and in however many steps a set was built, it was collected
from suggestions, so it is in normal form, and collecting its entries again gives it back. The line plays no part in
that, and a set may be merged for a line that it was not built for.

What a builder hands in can be told from the recipe that was followed, without a range: a recipe offers whole lines, and
the set leads to just these, except for the line that is there already.

* `Suggestions.Built` — the sets that can be built, and `Suggestions.Built.isMade` — how they come about all the same;
* `Suggestions.built_is_normal_and_final` — normal form, smallest range and fixed point;
* `Recipe.startFrom`, `Recipe.Offers` — where the token of a recipe starts, and which lines it offers;
* `Builder.Follows` — a builder that came about by a recipe, with one lemma for each operation;
* `Recipe.exists_run_follows` — following a recipe collects what it offers;
* `Recipe.built_leads_elsewhere` — the set leads to these lines, and to no other.
-/

namespace CommandGrammar

/-! ## Sets that can be built -/

namespace Suggestions

/-- **The sets that can be built.** -/
inductive Built : Suggestions → Prop where
  /-- The set without entries. -/
  | empty : Built .empty
  /-- Suggestions are collected for a line. -/
  | create {line : String} {xs : List Suggestion} {set : Suggestions} (h : create line xs = .ok set) : Built set
  /-- Sets are merged for a line, which need not be the one that they were built for. -/
  | merge {line : String} {sets : List Suggestions} {set : Suggestions} (hsets : ∀ given ∈ sets, Built given)
      (h : merge line sets = .ok set) : Built set
  /-- What a builder collected is handed in. -/
  | build {b : Builder} {set : Suggestions} (h : b.build = .ok set) : Built set

/-- However a set was built, it could have been collected at once. -/
theorem Built.isMade {set : Suggestions} (h : set.Built) : set.IsMade := by
  induction h with
  | empty => exact isMade_empty
  | create h => exact ⟨_, _, h⟩
  | merge _ h ih => exact isMade_merge ih h
  | build h => exact ⟨_, _, h⟩

/-- **Every set that can be built is in normal form, and normal form is final.** All entries replace the range of the
    set, none is there twice, they are in the order of their keys, and without any the range is empty and at 0. And
    collecting the entries gives the set back, for whatever line. Where suggestions were collected, the range of the
    set is the smallest one that covers all of theirs; suggestions whose ranges lie in the line can be collected. -/
theorem built_is_normal_and_final :
    (∀ set : Suggestions, set.Built →
      (∀ s ∈ set.list, s.range = set.range) ∧ set.list.Nodup ∧ set.list.Pairwise (fun a b => a.key ≤ b.key) ∧
        (set.list = [] → set.range = Range.point 0) ∧ ∀ line, create line set.list = .ok set) ∧
    (∀ line xs, (∀ s ∈ xs, s.range.Within line) → ∃ set, create line xs = .ok set ∧ set.Built) ∧
    (∀ line xs set, create line xs = .ok set → xs ≠ [] →
      (∀ s ∈ xs, s.range ≤ set.range) ∧ ∀ bound : Range, (∀ s ∈ xs, s.range ≤ bound) → set.range ≤ bound) := by
  refine ⟨fun set hset => ?_, fun line xs hwithin => ?_, fun line xs set hset hne => ?_⟩
  · have hnormal : set.Normal := hset.isMade.normal
    exact ⟨hnormal.anchored, hnormal.nodup, hnormal.sorted, hnormal.bare, hnormal.create_list⟩
  · obtain ⟨set, hset⟩ := exists_create_of_within hwithin
    exact ⟨set, hset, .create hset⟩
  · rcases (create_cases hset).2 with ⟨hnil, _⟩ | ⟨hhull, _⟩
    · exact absurd hnil hne
    · exact ⟨fun s hs => le_hull hhull hs, fun bound => (hull_le_iff hhull).mpr⟩

-- Stated for their common range, two of three suggestions are the same, and the other two change places.
example :
    (create "ab" [⟨⟨1, 2, by decide⟩, "y", none⟩, ⟨⟨0, 2, by decide⟩, "b", none⟩, ⟨⟨0, 2, by decide⟩, "ay", none⟩]).map
      (fun set => (set.range.start, set.list.map Suggestion.text)) = .ok (0, ["ay", "b"]) := by
  decide +kernel

end Suggestions

/-! ## What a recipe offers -/

namespace Recipe

/-- Where the token starts that a recipe leads to, when the token of the given builder starts at `n`. -/
def startFrom (n : Nat) : Recipe → Nat
  | given => n
  | suggest first _ _ => first.startFrom n
  | restart first => first.startFrom n
  | offset _ start => start
  | add first _ => first.startFrom n

/-- **The lines that a recipe offers**, with what is said about them. A text that is offered stands behind what the line
    holds in front of the token; starting over forgets what was offered before. -/
inductive Offers (line : String) (n : Nat) : Recipe → String → Option String → Prop where
  /-- The text that is offered last. -/
  | last {first : Recipe} {left typed text : String} {tooltip : Option String} (hline : left ++ typed = line)
      (hstart : Text.byteSize left = first.startFrom n) :
    Offers line n (.suggest first text tooltip) (left ++ text) tooltip
  /-- What was offered before. -/
  | earlier {first : Recipe} {text whole : String} {tooltip said : Option String} (h : Offers line n first whole said) :
    Offers line n (.suggest first text tooltip) whole said
  /-- What was offered by the builder that takes in the other one. -/
  | own {first second : Recipe} {whole : String} {said : Option String} (h : Offers line n first whole said) :
    Offers line n (.add first second) whole said
  /-- What was offered by the other one. -/
  | taken {first second : Recipe} {whole : String} {said : Option String} (h : Offers line n second whole said) :
    Offers line n (.add first second) whole said

variable {line whole left typed text : String} {n start : Nat} {said tooltip : Option String} {first second : Recipe}

theorem not_offers_given : ¬ Offers line n .given whole said := nofun

theorem not_offers_restart : ¬ Offers line n (.restart first) whole said := nofun

theorem not_offers_offset : ¬ Offers line n (.offset first start) whole said := nofun

theorem offers_suggest_iff (hline : left ++ typed = line) (hstart : Text.byteSize left = first.startFrom n) :
    Offers line n (.suggest first text tooltip) whole said ↔
      first.Offers line n whole said ∨ whole = left ++ text ∧ said = tooltip := by
  constructor
  · intro h
    cases h with
    | @last _ left' typed' _ _ hline' hstart' =>
      -- The line has only one start of a size.
      have hleft : Fault.before line (first.startFrom n) = .ok left := by
        rw [← hline, ← hstart]
        exact Fault.before_append left typed
      have hleft' : Fault.before line (first.startFrom n) = .ok left' := by
        rw [← hline', ← hstart']
        exact Fault.before_append left' typed'
      obtain rfl : left = left' := Except.ok.inj (hleft.symm.trans hleft')
      exact .inr ⟨rfl, rfl⟩
    | earlier h => exact .inl h
  · rintro (h | ⟨rfl, rfl⟩)
    · exact .earlier h
    · exact .last hline hstart

theorem offers_add_iff : Offers line n (.add first second) whole said ↔
    first.Offers line n whole said ∨ second.Offers line n whole said := by
  constructor
  · intro h
    cases h with
    | own h => exact .inl h
    | taken h => exact .inr h
  · rintro (h | h)
    · exact .own h
    · exact .taken h

end Recipe

/-! ## What a builder collects is what the recipe offers -/

namespace Builder

variable {line : String} {b : Builder}

/-- What is collected of a text that is offered leads to the text behind the line's first part, unless that is the line
    that is there. -/
theorem mem_meaning_offer_iff {left typed text whole : String} {tooltip said : Option String} :
    (.ok whole, said) ∈ (if text = typed then [] else [{ offer left typed text with tooltip }]).map
        (Suggestion.meaning (left ++ typed)) ↔
      whole ≠ left ++ typed ∧ whole = left ++ text ∧ said = tooltip := by
  by_cases htext : text = typed
  · rw [if_pos htext, htext, List.map_nil]
    constructor
    · nofun
    · rintro ⟨hne, rfl, _⟩
      exact absurd rfl hne
  · have hadded : Suggestion.meaning (left ++ typed) { offer left typed text with tooltip }
        = (.ok (left ++ text), tooltip) := Prod.ext (apply_offer left typed text) rfl
    rw [if_neg htext, List.map_singleton, List.mem_singleton, hadded, Prod.mk.injEq, Except.ok.injEq]
    constructor
    · rintro ⟨rfl, rfl⟩
      exact ⟨fun heq => htext (by rwa [String.append_right_inj] at heq), rfl, rfl⟩
    · exact And.right

/-- The builder is ready and has come about by the recipe, from a builder whose token starts at `n`: its token starts
    where that of the recipe does, and what it collected leads to exactly the lines that the recipe offers, except for
    the line that is there. -/
structure Follows (line : String) (n : Nat) (recipe : Recipe) (b : Builder) : Prop where
  /-- The builder is ready. -/
  ready : b.Ready line
  /-- Where the token starts. -/
  start_eq : b.start = recipe.startFrom n
  /-- Which lines the suggestions lead to. -/
  leads : ∀ whole said, (.ok whole, said) ∈ b.collected.map (Suggestion.meaning line) ↔
    whole ≠ line ∧ recipe.Offers line n whole said

namespace Follows

variable {n : Nat} {first second : Recipe} {other : Builder}

/-- A builder that has collected nothing follows the recipe that does nothing. -/
theorem given (hready : b.Ready line) (hfresh : b.collected = []) : b.Follows line b.start .given where
  ready := hready
  start_eq := rfl
  leads whole said := by simp [hfresh, Recipe.not_offers_given]

/-- Offering a text adds the line that it leads to, unless that is the one that is there. -/
theorem exists_suggest (h : b.Follows line n first) (text : String) (tooltip : Option String) :
    ∃ b', b.suggest text tooltip = .ok b' ∧ b'.Follows line n (.suggest first text tooltip) := by
  obtain ⟨b', hsuggest, hready⟩ := h.ready.exists_suggest text tooltip
  obtain ⟨left, typed, rfl, hstart, _⟩ := h.ready.exists_remaining
  have hoffers : ∀ whole said, Recipe.Offers (left ++ typed) n (.suggest first text tooltip) whole said ↔
      first.Offers (left ++ typed) n whole said ∨ whole = left ++ text ∧ said = tooltip := fun _ _ =>
    Recipe.offers_suggest_iff rfl (hstart.trans h.start_eq)
  obtain ⟨input, start, collected⟩ := b
  obtain rfl : input = left ++ typed := h.ready.input_eq
  obtain rfl : Text.byteSize left = start := hstart
  obtain rfl := Except.ok.inj ((suggest_token_said left typed collected text tooltip).symm.trans hsuggest)
  refine ⟨_, hsuggest, hready, h.start_eq, fun whole said => ?_⟩
  rw [List.map_append, List.mem_append, h.leads, mem_meaning_offer_iff, hoffers, and_or_left]

/-- Starting over forgets what was collected. -/
theorem restart (h : b.Follows line n first) : b.restart.Follows line n (.restart first) where
  ready := h.ready.restart
  start_eq := h.start_eq
  leads whole said := by simp [Builder.restart, Builder.offset, Recipe.not_offers_restart]

theorem offset (h : b.Follows line n first) {start : Nat} (hstart : Text.IsBoundary line start) :
    (b.offset start).Follows line n (.offset first start) where
  ready := h.ready.offset hstart
  start_eq := rfl
  leads whole said := by simp [Builder.offset, Recipe.not_offers_offset]

/-- Taking in what another builder collected adds the lines that it leads to. -/
theorem add (h : b.Follows line n first) (hother : other.Follows line n second) :
    (b.add other).Follows line n (.add first second) where
  ready := h.ready.add hother.ready
  start_eq := h.start_eq
  leads whole said := by
    rw [Recipe.offers_add_iff, and_or_left, ← h.leads, ← hother.leads, ← List.mem_append, ← List.map_append]
    rfl

end Follows

end Builder

namespace Recipe

/-- **A sound recipe can be followed, and collects what it offers.** -/
theorem exists_run_follows {line : String} {b : Builder} {recipe : Recipe} (hready : b.Ready line)
    (hfresh : b.collected = []) (h : recipe.Sound line) :
    ∃ b', recipe.run b = .ok b' ∧ b'.Follows line b.start recipe := by
  apply exists_run_of _ _ _ _ _ h
  · exact .given hready hfresh
  · exact fun _ _ text tooltip hfollows => hfollows.exists_suggest text tooltip
  · exact fun _ _ hfollows => hfollows.restart
  · exact fun _ _ _ hstart hfollows => hfollows.offset hstart
  · exact fun _ _ _ _ hfollows hother => hfollows.add hother

/-- **No suggestion leads to the line that is there.** Whatever recipe is followed with a builder for a line, the result
    can be handed in. Each of its suggestions replaces the line up to the end and changes it, and together they lead to
    the lines that the recipe offers, with what is said about them. -/
theorem built_leads_elsewhere (line : String) (start : Nat) (hstart : Text.IsBoundary line start) (recipe : Recipe)
    (hsound : recipe.Sound line) :
    ∃ b set, Builder.ofStart line start = .ok b ∧ (recipe.run b).bind Builder.build = .ok set ∧
      (∀ s ∈ set.list, s.range.stop = Text.byteSize line ∧ ∃ whole, s.apply line = .ok whole ∧ whole ≠ line) ∧
      ∀ whole said, (.ok whole, said) ∈ set.list.map (fun s => (s.apply line, s.tooltip)) ↔
        whole ≠ line ∧ recipe.Offers line start whole said := by
  obtain ⟨left, typed, rfl, rfl⟩ := hstart.exists_append
  have hready : (Builder.token left typed).Ready (left ++ typed) := Builder.ready_token left typed
  obtain ⟨b', hrun, hfollows⟩ := exists_run_follows hready rfl hsound
  obtain ⟨set, hset, hupTo⟩ := hfollows.ready.exists_build
  have hbuild : Suggestions.create (left ++ typed) b'.collected = .ok set := by
    rw [← hset, Builder.build, hfollows.ready.input_eq]
  have hwithin : ∀ s ∈ b'.collected, s.range.Within (left ++ typed) :=
    fun s hs => (hfollows.ready.collected s hs).within
  have hleads : ∀ whole said, (.ok whole, said) ∈ set.list.map (Suggestion.meaning (left ++ typed)) ↔
      whole ≠ left ++ typed ∧ recipe.Offers (left ++ typed) (Text.byteSize left) whole said := by
    intro whole said
    rw [Suggestions.mem_meanings_of_create hwithin hbuild, hfollows.leads]
    rfl
  refine ⟨Builder.token left typed, set, (Builder.remaining_ofStart left typed).1, ?_, ?_, hleads⟩
  · rw [hrun]
    exact hset
  · intro s hs
    refine ⟨hupTo.stop_eq s hs, ?_⟩
    -- The range lies in the line, so the suggestion can be put in, and what it leads to is one of the lines above.
    have hs' : s.range.Within (left ++ typed) := hupTo.made.normal.anchored s hs ▸ hupTo.within
    obtain ⟨_, _, _, _, happly⟩ := Suggestion.exists_apply hs'
    have hmem : s.meaning (left ++ typed) ∈ set.list.map (Suggestion.meaning (left ++ typed)) := List.mem_map_of_mem hs
    rw [Suggestion.meaning, happly] at hmem
    exact ⟨_, happly, ((hleads _ _).mp hmem).1⟩

/-- On a line with an accented letter, one builder takes in what another one collected for a longer token. Both were
    offered the token itself; what was offered before starting over elsewhere is forgotten. Two suggestions are left
    that lead to the same line, and something is said about one of them. -/
theorem built_leads_elsewhere_nested :
    let own := Recipe.suggest (.suggest .given "~" none) "now" none
    let other := Recipe.suggest (.suggest (.offset (.suggest .given "lost" none) 1) "é ~" none) "é now" (some "again")
    Text.IsBoundary "né ~" 4 ∧ (Recipe.add own other).Sound "né ~" ∧
      ∃ b set, Builder.ofStart "né ~" 4 = .ok b ∧ ((Recipe.add own other).run b).bind Builder.build = .ok set ∧
        set.list.map (fun s => (s.range.start, s.text, s.tooltip))
          = [(1, "é now", none), (1, "é now", some "again")] ∧
        (∀ s ∈ set.list, s.range.stop = 5 ∧ ∃ whole, s.apply "né ~" = .ok whole ∧ whole ≠ "né ~") ∧
        ∀ whole said, whole ≠ "né ~" ∧ (Recipe.add own other).Offers "né ~" 4 whole said ↔
          (.ok whole, said) ∈ set.list.map fun s => (s.apply "né ~", s.tooltip) := by
  intro own other
  have hstart : Text.IsBoundary "né ~" 4 := by decide +kernel
  have hsound : (Recipe.add own other).Sound "né ~" := by
    simp only [own, other, Sound]
    decide +kernel
  obtain ⟨b, set, hb, hset, helsewhere, hleads⟩ := built_leads_elsewhere "né ~" 4 hstart _ hsound
  refine ⟨hstart, hsound, b, set, hb, hset, ?_, helsewhere, fun whole said => (hleads whole said).symm⟩
  have hlist : ((Builder.ofStart "né ~" 4).bind fun b => ((Recipe.add own other).run b).bind Builder.build).map
      (fun set => set.list.map fun s => (s.range.start, s.text, s.tooltip))
        = .ok [(1, "é now", none), (1, "é now", some "again")] := by decide +kernel
  rw [hb] at hlist
  change (((Recipe.add own other).run b).bind Builder.build).map _ = _ at hlist
  rw [hset] at hlist
  exact Except.ok.inj hlist

end Recipe

end CommandGrammar
