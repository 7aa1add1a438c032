import CommandGrammar.Proofs.Behind
import CommandGrammar.Proofs.Matching
import CommandGrammar.Proofs.Isolation
import CommandGrammar.Proofs.Token

/-!
# `Proofs.Completion` — what is offered can be read

A completion is of use only if the grammar takes it: put in place of the token, it has to be read by a child of
the node that the token belongs to. This holds for every suggestion that words and the types of arguments make
of their own accord, wherever the line broke off.

* `Label.texts`, `Label.own_token` — the texts that a label offers for a token, wherever the token stands;
* `Label.ReadsWhole`, `Label.exists_own` — what a label offers for a token it also reads, up to the last
  character;
* `Suggestions.exists_merge_of_anchored` — the children of a node all speak of the same token, so merging keeps
  their suggestions as they are;
* `Dispatcher.completions_can_be_read` — hence every completion at the end of a line can be read in place of the
  token.
-/

namespace CommandGrammar

variable {S : Type}

/-! ## Places in a line -/

namespace Scanner

theorem totalSize_eq (s : Scanner) : s.totalSize = Text.byteSize s.text := (Text.byteSize_ofList _).symm

theorem cursor_le_byteSize (s : Scanner) : s.cursor ≤ Text.byteSize s.text := by
  rw [← totalSize_eq, totalSize, chars, Text.size_append]
  exact Nat.le_add_right _ _

/-- A line in two parts can be entered between them. -/
theorem moveTo_append (left right : String) :
    (ofString (left ++ right)).moveTo (Text.byteSize left) = .ok ⟨left.toList, right.toList⟩ := by
  have hcut : Text.cut (Text.byteSize left) (ofString (left ++ right)).chars
      = some (left.toList, right.toList) := by
    rw [chars, ofString, List.nil_append, String.toList_append]
    exact Text.cut_size_append left.toList right.toList
  rw [moveTo, hcut]

/-- Who has read everything stands at the end. -/
theorem Precedes.eq_toEnd {s t : Scanner} (h : s.Precedes t) (hrest : t.rest = []) : t = s.toEnd := by
  obtain ⟨taken, hpassed, htaken⟩ := h
  rw [hrest, List.append_nil] at htaken
  obtain ⟨passed, rest⟩ := t
  obtain rfl : rest = [] := hrest
  obtain rfl : passed = s.passed ++ taken := hpassed
  rw [toEnd, htaken]

end Scanner

/-! ## Texts that are read as a whole -/

/-- The type reads the text up to the end, whatever stands in front of it. -/
def ArgumentType.ReadsWhole (type : ArgumentType) (text : String) : Prop :=
  ∀ passed, ∃ value, type.read ⟨passed, text.toList⟩ = .ok value ⟨passed ++ text.toList, []⟩

/-- The label matches the text up to the end, whatever stands in front of it. -/
def Label.ReadsWhole (label : Label S) (text : String) : Prop :=
  ∀ (id : NodeId) (passed : List Char) (trail : Trail S (Handler S)),
    ∃ trail', label.read id ⟨passed, text.toList⟩ trail = .ok trail' ⟨passed ++ text.toList, []⟩

theorem ArgumentType.readsWhole_bool {word : String} (h : word ∈ ["true", "false"]) :
    ArgumentType.bool.ReadsWhole word := by
  intro passed
  simp only [List.mem_cons, List.not_mem_nil, or_false] at h
  rcases h with rfl | rfl
  · exact ⟨.bool true, rfl⟩
  · exact ⟨.bool false, rfl⟩

theorem ArgumentType.readsWhole_position {candidates : List (String × String)} {text : String}
    (h : Position.accepts text) : (ArgumentType.position candidates).ReadsWhole text := by
  intro passed
  unfold Position.accepts at h
  split at h
  · next p t hread =>
    have hprecedes := Position.precedes_read (Scanner.ofString text)
    rw [hread] at hprecedes
    have hend : t = ⟨text.toList, []⟩ := hprecedes.eq_toEnd (by simpa [Scanner.canRead] using h)
    have hbehind := Position.read_behind passed (Scanner.ofString text)
    rw [hread, hend] at hbehind
    refine ⟨.position p, ?_⟩
    show (Position.read _).map Value.position = _
    rw [show (⟨passed, text.toList⟩ : Scanner) = (Scanner.ofString text).behind passed by
      simp [Scanner.behind, Scanner.ofString], hbehind]
    rfl
  · cases h

namespace Label

theorem readsWhole_literal (name : String) : (literal name : Label S).ReadsWhole name := by
  intro id passed trail
  have hadvance : Scanner.advance ⟨passed, name.toList⟩ name.toList.length = ⟨passed ++ name.toList, []⟩ := by
    simp [Scanner.advance]
  have hmatch : (name.toList.isPrefixOf name.toList &&
      Scanner.atBreak ⟨passed ++ name.toList, []⟩) = true := by
    simp [Scanner.atBreak]
  rw [Label.read]
  dsimp only
  rw [hadvance, if_pos hmatch]
  exact ⟨_, rfl⟩

theorem readsWhole_argument {name : String} {type : ArgumentType} {provider : Option (Provider S)}
    {text : String} (h : type.ReadsWhole text) : (argument name type provider).ReadsWhole text := by
  intro id passed trail
  obtain ⟨value, hread⟩ := h passed
  rw [Label.read]
  cases hcapture : type.capture ⟨passed, text.toList⟩ with
  | error e t =>
    rw [ArgumentType.capture_eq_error_iff, hread] at hcapture
    cases hcapture
  | ok c t =>
    rw [ArgumentType.capture_eq_ok_iff, hread] at hcapture
    obtain ⟨_, rfl⟩ := Scanned.ok.inj hcapture.1
    exact ⟨_, rfl⟩

end Label

/-! ## What is offered for a token -/

namespace Builder

/-- An empty builder for the token `typed` behind `left`. -/
def token (left typed : String) : Builder := ⟨left ++ typed, Text.byteSize left, []⟩

/-- The suggestion of a text in place of the token `typed` behind `left`. -/
def offer (left typed text : String) : Suggestion :=
  ⟨⟨Text.byteSize left, Text.byteSize (left ++ typed), by simp⟩, text, none⟩

/-- Put in, the text stands where the token stood. -/
theorem apply_offer (left typed text : String) :
    (offer left typed text).apply (left ++ typed) = .ok (left ++ text) := by
  have hafter : Fault.after (left ++ typed) (Text.byteSize (left ++ typed)) = .ok "" := by
    simpa using Fault.after_append (left ++ typed) ""
  rw [Suggestion.apply_of_sides (Fault.before_append left typed) hafter, String.append_empty]
  rfl

theorem remaining_token (left typed : String) (collected : List Suggestion) :
    remaining ⟨left ++ typed, Text.byteSize left, collected⟩ = .ok typed :=
  Fault.after_append left typed

theorem remainingLower_token (left typed : String) :
    (token left typed).remainingLower = .ok (Text.lowercase typed) := by
  rw [remainingLower, token, remaining_token]
  rfl

theorem suggestAll_singleton (b : Builder) (text : String) : b.suggestAll [text] = b.suggest text := by
  show (b.suggest text).bind Except.ok = b.suggest text
  cases b.suggest text <;> rfl

/-- A text that is offered for a token is collected with what is said about it, unless it is the token. -/
theorem suggest_token_said (left typed : String) (collected : List Suggestion) (text : String)
    (tooltip : Option String) :
    suggest ⟨left ++ typed, Text.byteSize left, collected⟩ text tooltip
      = .ok ⟨left ++ typed, Text.byteSize left,
          collected ++ if text = typed then [] else [{ offer left typed text with tooltip }]⟩ := by
  have hrange : Range.between (Text.byteSize left) (Text.byteSize (left ++ typed))
      = .ok (offer left typed text).range := Range.between_eq_ok_iff.mpr ⟨rfl, rfl⟩
  show (remaining _).bind _ = _
  rw [remaining_token]
  show (if text = typed then _ else _) = _
  split
  · rw [List.append_nil]
    rfl
  · show (Range.between _ _).bind _ = _
    rw [hrange]
    rfl

theorem suggest_token (left typed : String) (collected : List Suggestion) (text : String) :
    suggest ⟨left ++ typed, Text.byteSize left, collected⟩ text
      = .ok ⟨left ++ typed, Text.byteSize left,
          collected ++ if text = typed then [] else [offer left typed text]⟩ :=
  suggest_token_said left typed collected text none

/-- Of the texts that are offered for a token, all but the token itself are collected. -/
theorem suggestAll_token (left typed : String) (collected : List Suggestion) (texts : List String) :
    suggestAll ⟨left ++ typed, Text.byteSize left, collected⟩ texts
      = .ok ⟨left ++ typed, Text.byteSize left,
          collected ++ (texts.filter (· ≠ typed)).map (offer left typed)⟩ := by
  induction texts generalizing collected with
  | nil => simp [suggestAll, pure, Except.pure]
  | cons text texts ih =>
    show (suggest _ text).bind (suggestAll · texts) = _
    rw [suggest_token]
    show suggestAll _ texts = _
    rw [ih]
    by_cases htext : text = typed
    · simp [htext]
    · simp [htext]

theorem build_token (left typed : String) (texts : List String) :
    ((token left typed).suggestAll texts).bind build
      = Suggestions.create (left ++ typed) ((texts.filter (· ≠ typed)).map (offer left typed)) := by
  rw [token, suggestAll_token]
  rfl

/-- All that is offered replaces the token. -/
theorem range_of_mem_offers (left typed : String) (texts : List String) :
    ∀ s ∈ texts.map (offer left typed), s.range = (offer left typed "").range := by
  intro s hs
  obtain ⟨text, _, rfl⟩ := List.mem_map.mp hs
  rfl

/-- **Texts offered for a token make a set of suggestions for the token**, one for each text but the token itself. -/
theorem exists_build_token (left typed : String) (texts : List String) :
    ∃ set, ((token left typed).suggestAll texts).bind build = .ok set ∧
      ∀ s, s ∈ set.list ↔ ∃ text ∈ texts, text ≠ typed ∧ s = offer left typed text := by
  obtain ⟨set, hset, hmem⟩ :=
    Suggestions.exists_create_of_anchored (range_of_mem_offers left typed (texts.filter (· ≠ typed))) (left ++ typed)
  refine ⟨set, (build_token left typed texts).trans hset, fun s => ?_⟩
  simp only [hmem, List.mem_map, List.mem_filter, decide_eq_true_eq, and_assoc, eq_comm (a := s)]

end Builder

open Builder (token offer)

/-- The texts that a type offers for a token. -/
def ArgumentType.texts (typed : String) : ArgumentType → List String
  | bool => ["true", "false"].filter fun word => (Text.lowercase typed).toList.isPrefixOf word.toList
  | position candidates =>
    (Position.continuations typed candidates).filter (Matching.offers (Text.lowercase typed))
  | _ => []

/-- The texts that a label offers for a token when no provider has a say. -/
def Label.texts (typed : String) : Label S → List String
  | literal name => if (Text.lowercase typed).toList.isPrefixOf (Text.lowercase name).toList then [name] else []
  | argument _ type _ => type.texts typed

theorem ArgumentType.suggest_token (type : ArgumentType) (left typed : String) :
    type.suggest (token left typed) = ((token left typed).suggestAll (type.texts typed)).bind Builder.build := by
  cases type with
  | bool =>
    show (token left typed).remainingLower.bind _ = _
    rw [Builder.remainingLower_token, Except.bind, texts]
    rfl
  | position candidates =>
    show (token left typed).remaining.bind _ = _
    rw [token, Builder.remaining_token, Except.bind]
    show (token left typed).suggestMatching _ = _
    rw [Builder.suggestMatching_eq, Builder.remainingLower_token, Except.bind, texts]
    rfl
  | _ => rfl

/-- What a label offers for a token depends on the token alone. -/
theorem Label.own_token (label : Label S) (left typed : String) :
    label.own (token left typed) = ((token left typed).suggestAll (label.texts typed)).bind Builder.build := by
  cases label with
  | literal name =>
    rw [own, Builder.remainingLower_token, Except.bind, texts]
    split
    · rw [Builder.suggestAll_singleton]
    · rfl
  | argument name type provider => exact type.suggest_token left typed

theorem ArgumentType.readsWhole_of_mem_texts {type : ArgumentType} {typed text : String}
    (h : text ∈ type.texts typed) : type.ReadsWhole text := by
  cases type with
  | bool => exact readsWhole_bool (List.mem_filter.mp h).1
  | position candidates =>
    have haccepts : Position.accepts text := (List.mem_filter.mp (List.mem_filter.mp h).1).2
    exact readsWhole_position haccepts
  | _ => cases h

/-- What a label offers it also reads. -/
theorem Label.readsWhole_of_mem_texts {label : Label S} {typed text : String} (h : text ∈ label.texts typed) :
    label.ReadsWhole text := by
  cases label with
  | literal name =>
    rw [texts] at h
    split at h
    · obtain rfl : text = name := List.mem_singleton.mp h
      exact readsWhole_literal text
    · cases h
  | argument name type provider => exact readsWhole_argument (ArgumentType.readsWhole_of_mem_texts h)

/-- **A label makes suggestions for every token, and reads what it suggests.** -/
theorem Label.exists_own (label : Label S) (left typed : String) :
    ∃ set, label.own (token left typed) = .ok set ∧
      ∀ s ∈ set.list, ∃ text, s = offer left typed text ∧ label.ReadsWhole text := by
  obtain ⟨set, hset, hmem⟩ := Builder.exists_build_token left typed (label.texts typed)
  refine ⟨set, (label.own_token left typed).trans hset, fun s hs => ?_⟩
  obtain ⟨text, htext, _, rfl⟩ := (hmem s).mp hs
  exact ⟨text, rfl, readsWhole_of_mem_texts htext⟩

/-! ## Completing a line -/

/-- No label of the tree has a provider. -/
def Tree.Plain (t : Tree S) : Prop := ∀ b ∈ t.branches, b.label.provider? = none

instance (t : Tree S) : Decidable t.Plain :=
  decidable_of_iff (∀ b ∈ t.branches, b.label.provider?.isNone) (by simp [Tree.Plain])

namespace Dispatcher

/-- With the token `typed` behind `left` in front of the cursor, the children are asked about this token. -/
theorem complete_of_token (d : Dispatcher S) {p : Parse S} {left typed right : String}
    (hinput : left ++ typed ++ right = p.input) {slot : Trail.Slot}
    (hslot : p.trail.locate (Text.byteSize (left ++ typed)) = .ok slot)
    (hstart : slot.start = Text.byteSize left) :
    d.complete p (Text.byteSize (left ++ typed)) = ((d.tree.children slot.parent).mapM fun child =>
      d.contribution (p.trail.build (left ++ typed)) (token left typed) child.1).bind
        (Suggestions.merge p.input) := by
  have htyped : Fault.before p.input (Text.byteSize (left ++ typed)) = .ok (left ++ typed) := by
    rw [← hinput]
    exact Fault.before_append _ right
  have hbuilder : Builder.ofStart (left ++ typed) (min slot.start (Text.byteSize (left ++ typed)))
      = .ok (token left typed) := by
    have hle : Text.byteSize left ≤ Text.byteSize (left ++ typed) := by simp
    rw [hstart, Nat.min_eq_left hle]
    exact (Builder.remaining_ofStart left typed).1
  exact d.complete_of_builder hslot htyped hbuilder

/-- Without providers, every child contributes suggestions for the token, and it can read what it suggests. All of
    them replace the token. -/
theorem exists_contributions_of_plain {d : Dispatcher S} (hplain : d.tree.Plain) (context : Context S)
    (parent : NodeId) (left typed : String) :
    ∃ sets, (d.tree.children parent).mapM (fun child => d.contribution context (token left typed) child.1)
        = .ok sets ∧
      (∀ set ∈ sets, ∃ child ∈ d.tree.children parent, ∀ s ∈ set.list, ∃ text,
        s = offer left typed text ∧ child.1.label.ReadsWhole text) ∧
      ∀ set ∈ sets, ∀ s ∈ set.list, s.range = (offer left typed "").range := by
  have heach : ∀ child ∈ d.tree.children parent, ∃ set,
      d.contribution context (token left typed) child.1 = .ok set ∧
        ∀ s ∈ set.list, ∃ text, s = offer left typed text ∧ child.1.label.ReadsWhole text := by
    intro child hchild
    obtain ⟨set, hown, hmem⟩ := child.1.label.exists_own left typed
    refine ⟨set, ?_, hmem⟩
    rw [contribution, Label.suggest_of_plain (hplain child.1 (Tree.mem_branches_of_mem_children hchild)), hown]
    rfl
  obtain ⟨sets, hsets⟩ := exists_mapM_eq_ok fun child hchild => (heach child hchild).imp fun _ h => h.1
  have hoffers : ∀ set ∈ sets, ∃ child ∈ d.tree.children parent, ∀ s ∈ set.list, ∃ text,
      s = offer left typed text ∧ child.1.label.ReadsWhole text := by
    intro set hset
    obtain ⟨child, hchild, hcontribution⟩ := (mem_of_mapM_eq_ok hsets).mp hset
    obtain ⟨set', hcontribution', hmem⟩ := heach child hchild
    rw [hcontribution] at hcontribution'
    obtain rfl := Except.ok.inj hcontribution'
    exact ⟨child, hchild, hmem⟩
  refine ⟨sets, hsets, hoffers, fun set hset s hs => ?_⟩
  obtain ⟨_, _, hmem⟩ := hoffers set hset
  obtain ⟨text, rfl, _⟩ := hmem s hs
  rfl

/-- **Without providers, completing always succeeds.** With the token `typed` behind `left` in front of the
    cursor, every suggestion is a text in place of the token that some child reads as a whole. -/
theorem exists_complete_of_plain {d : Dispatcher S} (hplain : d.tree.Plain) {p : Parse S}
    {left typed right : String} (hinput : left ++ typed ++ right = p.input) {slot : Trail.Slot}
    (hslot : p.trail.locate (Text.byteSize (left ++ typed)) = .ok slot)
    (hstart : slot.start = Text.byteSize left) :
    ∃ set, d.complete p (Text.byteSize (left ++ typed)) = .ok set ∧
      ∀ s ∈ set.list, ∃ child ∈ d.tree.children slot.parent, ∃ text,
        s = offer left typed text ∧ child.1.label.ReadsWhole text := by
  obtain ⟨sets, hsets, hoffers, hanchored⟩ :=
    exists_contributions_of_plain hplain (p.trail.build (left ++ typed)) slot.parent left typed
  -- All speak of the same token, so merging moves no entry to another range.
  obtain ⟨merged, hmerged, hmem⟩ := Suggestions.exists_merge_of_anchored hanchored p.input
  refine ⟨merged, ?_, fun s hs => ?_⟩
  · rw [complete_of_token d hinput hslot hstart, hsets]
    exact hmerged
  · obtain ⟨set, hset, hs⟩ := (hmem s).mp hs
    obtain ⟨child, hchild, hreads⟩ := hoffers set hset
    exact ⟨child, hchild, hreads s hs⟩

/-- **Completions can be read.** In a grammar without providers, completing a line at its end succeeds,
    wherever reading started and wherever it broke off. Each suggestion replaces the line from the start of the
    slot at the end to the end; and when it is put in, some child of the slot's node can be read from there up
    to the end of the new line. -/
theorem completions_can_be_read (d : Dispatcher S) (hplain : d.tree.Plain) (s : Scanner) (source : S) :
    let p := d.parseFrom s source
    ∃ slot set, p.trail.locate (Text.byteSize s.text) = .ok slot ∧ d.completeAtEnd p = .ok set ∧
      ∀ suggestion ∈ set.list,
        suggestion.range.start = slot.start ∧ suggestion.range.stop = Text.byteSize s.text ∧
        ∃ line start, suggestion.apply s.text = .ok line ∧
          (Scanner.ofString line).moveTo slot.start = .ok start ∧
          ∃ child ∈ d.tree.children slot.parent, ∀ trail : Trail S (Handler S), ∃ trail' stop,
            (Node.branch child.1).read child.2 start trail = .ok trail' stop ∧
              stop.text = line ∧ stop.cursor = Text.byteSize line := by
  intro p
  have hprecedes : s.Precedes p.scanner :=
    ((d.outcome_parseFrom s source).rests ⟨rfl, by simp [Trail.start]⟩).1
  have hinput : p.input = s.text := hprecedes.text_eq
  have hsize : p.scanner.totalSize = Text.byteSize s.text := by
    rw [Scanner.totalSize_eq]
    exact congrArg Text.byteSize hinput
  obtain ⟨slot, hslot, _, hboundary⟩ := d.exists_locate_parseFrom s source s.cursor_le_byteSize (Nat.le_refl _)
  -- The slot cuts the line into what stays and the token, empty where nothing was typed yet.
  obtain ⟨left, typed, htext, hleft⟩ := hboundary.exists_append
  rw [← htext] at hslot hinput hsize ⊢
  obtain ⟨set, hset, hmem⟩ :=
    exists_complete_of_plain hplain ((String.append_empty).trans hinput.symm) hslot hleft.symm
  refine ⟨slot, set, hslot, ?_, ?_⟩
  · rw [completeAtEnd, hsize]
    exact hset
  · intro suggestion hsuggestion
    obtain ⟨child, hchild, text, rfl, hreads⟩ := hmem suggestion hsuggestion
    refine ⟨hleft, rfl, left ++ text, ⟨left.toList, text.toList⟩, Builder.apply_offer left typed text, ?_,
      child, hchild, ?_⟩
    · rw [← hleft]
      exact Scanner.moveTo_append left text
    · intro trail
      obtain ⟨trail', hread⟩ := hreads child.2 left.toList trail
      have hend : (left ++ text).toList = left.toList ++ text.toList := String.toList_append
      refine ⟨trail', _, hread, ?_, ?_⟩
      · rw [Scanner.text, Scanner.chars, List.append_nil, ← hend, String.ofList_toList]
      · rw [Scanner.cursor, ← hend]
        rfl

/-- A position of which one coordinate was typed: the second one is offered with it, and the whole is read. -/
theorem completions_can_be_read_coordinate :
    let d := ({} : Dispatcher Unit).registerAll
      [(Declaration.literal "tp").followedBy (.argument "to" (.position [("~", "~"), ("0", "x")]))]
    let s := Scanner.ofString "tp 5"
    d.tree.Plain ∧
    ∃ slot set, (d.parseFrom s ()).trail.locate 4 = .ok slot ∧ slot.parent = 1 ∧ slot.start = 3 ∧
      d.completeAtEnd (d.parseFrom s ()) = .ok set ∧ set.list.map Suggestion.text = ["5 ~"] ∧
      ∀ suggestion ∈ set.list, ∃ line start, suggestion.apply "tp 5" = .ok line ∧
        (Scanner.ofString line).moveTo 3 = .ok start ∧
        ∃ child ∈ d.tree.children 1, ∀ trail : Trail Unit (Handler Unit), ∃ trail' stop,
          (Node.branch child.1).read child.2 start trail = .ok trail' stop ∧
            stop.cursor = Text.byteSize line := by
  intro d s
  have hplain : d.tree.Plain := by
    have hlabels : d.tree.branches.map (·.label.provider?) = [none, none] := rfl
    intro b hb
    have hmem : b.label.provider? ∈ [none, none] := hlabels ▸ List.mem_map_of_mem hb
    simpa using hmem
  obtain ⟨slot, set, hslot, hset, hread⟩ := completions_can_be_read d hplain s ()
  have hsize : Text.byteSize s.text = 4 := by decide
  have hlocate : (d.parseFrom s ()).trail.locate 4 = .ok ⟨1, 3⟩ := by decide +kernel
  have htexts : (d.completeAtEnd (d.parseFrom s ())).map (·.list.map Suggestion.text) = .ok ["5 ~"] := by
    decide +kernel
  rw [hsize] at hslot
  obtain rfl : (⟨1, 3⟩ : Trail.Slot) = slot := Except.ok.inj (hlocate.symm.trans hslot)
  rw [hset] at htexts
  refine ⟨hplain, _, set, hlocate, rfl, rfl, hset, Except.ok.inj htexts, fun suggestion hmem => ?_⟩
  obtain ⟨_, _, line, start, happly, hmove, child, hchild, hwhole⟩ := hread suggestion hmem
  refine ⟨line, start, happly, hmove, child, hchild, fun trail => ?_⟩
  obtain ⟨trail', stop, hok, _, hstop⟩ := hwhole trail
  exact ⟨trail', stop, hok, hstop⟩

end Dispatcher

end CommandGrammar
