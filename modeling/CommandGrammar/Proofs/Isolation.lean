import CommandGrammar.Dispatch
import CommandGrammar.Proofs.Candidates
import CommandGrammar.Proofs.Merging

/-!
# `Proofs.Isolation` — children that fail are invisible

When a line is completed, a child that fails contributes `Suggestions.empty` in place of a set of its own. For
the answer that must be the same as if the child had never been asked: the stand-in is anchored at the start of
the line, and one set is merged in another way than two.

* `Label.suggest_of_plain` — without a provider a label computes its suggestions from the builder alone;
* `Tree.OffersMade`, `Tree.OffersMade.isMade` — whatever a label offers was made from suggestions;
* `Dispatcher.completeAmong` — the answer when only some children are asked, and those that fail are skipped;
* `Dispatcher.complete_eq_completeAmong` — this is the answer that completing gives.
-/

namespace CommandGrammar

variable {S : Type}

/-! ## What labels offer -/

namespace Label

/-- The provider that replaces a type's own suggestions. -/
def provider? : Label S → Option (Provider S)
  | literal _ => none
  | argument _ _ provider => provider

/-- What the label offers in place of a token when no provider has a say. -/
def own (b : Builder) : Label S → Except Fault Suggestions
  | literal name => b.remainingLower.bind fun typed =>
    if typed.toList.isPrefixOf (Text.lowercase name).toList then (b.suggest name).bind Builder.build
    else .ok .empty
  | argument _ type _ => type.suggest b

/-- Without a provider the context plays no part. -/
theorem suggest_of_plain {label : Label S} (h : label.provider? = none) (context : Context S) (b : Builder) :
    label.suggest context b = (label.own b).mapError Failure.fault := by
  cases label with
  | literal name =>
    show Except.bind (b.remainingLower.mapError Failure.fault) _ = _
    rw [own]
    cases b.remainingLower with
    | error fault => rfl
    | ok typed =>
      show (if _ then _ else _) = Except.mapError _ (if _ then _ else _)
      split
      · show Except.bind ((b.suggest name).mapError Failure.fault) _ = _
        cases b.suggest name <;> rfl
      · rfl
  | argument name type provider =>
    obtain rfl : provider = none := h
    rfl

theorem suggest_of_provider {label : Label S} {provider : Provider S} (h : label.provider? = some provider)
    (context : Context S) (b : Builder) : label.suggest context b = provider context b := by
  cases label with
  | literal name => cases h
  | argument name type provider' =>
    obtain rfl : provider' = some provider := h
    rfl

end Label

theorem mapError_eq_ok_iff {ε ε' α : Type} {x : Except ε α} {f : ε → ε'} {a : α} :
    x.mapError f = .ok a ↔ x = .ok a := by
  cases x <;> simp [Except.mapError]

/-- The provider of every label hands out only sets that were made from suggestions. Collecting suggestions is
    the one way to come by a set, so a provider has no other sets to hand out. -/
def Tree.OffersMade (t : Tree S) : Prop :=
  ∀ b ∈ t.branches, ∀ provider ∈ b.label.provider?, ∀ context builder set,
    provider context builder = .ok set → set.IsMade

namespace Builder

theorem isMade_of_build {b : Builder} {set : Suggestions} (h : b.build = .ok set) : set.IsMade :=
  ⟨b.input, b.collected, h⟩

theorem isMade_of_suggestMatching {b : Builder} {candidates : List String} {set : Suggestions}
    (h : b.suggestMatching candidates = .ok set) : set.IsMade := by
  obtain ⟨_, _, h⟩ := bind_eq_ok_iff.mp h
  obtain ⟨_, _, h⟩ := bind_eq_ok_iff.mp h
  obtain ⟨_, _, h⟩ := bind_eq_ok_iff.mp h
  exact isMade_of_build h

end Builder

theorem ArgumentType.isMade_of_suggest {type : ArgumentType} {b : Builder} {set : Suggestions}
    (h : type.suggest b = .ok set) : set.IsMade := by
  cases type with
  | bool =>
    obtain ⟨_, _, h⟩ := bind_eq_ok_iff.mp h
    obtain ⟨_, _, h⟩ := bind_eq_ok_iff.mp h
    exact Builder.isMade_of_build h
  | position candidates =>
    obtain ⟨_, _, h⟩ := bind_eq_ok_iff.mp h
    exact Builder.isMade_of_suggestMatching h
  | _ =>
    obtain rfl := Except.ok.inj h
    exact Suggestions.isMade_empty

theorem Label.isMade_of_own {label : Label S} {b : Builder} {set : Suggestions} (h : label.own b = .ok set) :
    set.IsMade := by
  cases label with
  | literal name =>
    obtain ⟨_, _, h⟩ := bind_eq_ok_iff.mp h
    split at h
    · obtain ⟨_, _, h⟩ := bind_eq_ok_iff.mp h
      exact Builder.isMade_of_build h
    · obtain rfl := Except.ok.inj h
      exact Suggestions.isMade_empty
  | argument name type provider => exact ArgumentType.isMade_of_suggest h

/-- Whatever a label of the tree offers was made from suggestions. -/
theorem Tree.OffersMade.isMade {t : Tree S} (hmade : t.OffersMade) {b : Branch S} (hb : b ∈ t.branches)
    {context : Context S} {builder : Builder} {set : Suggestions}
    (h : b.label.suggest context builder = .ok set) : set.IsMade := by
  cases hprovider : b.label.provider? with
  | none =>
    rw [Label.suggest_of_plain hprovider] at h
    exact Label.isMade_of_own (mapError_eq_ok_iff.mp h)
  | some provider =>
    rw [Label.suggest_of_provider hprovider] at h
    exact hmade b hb provider hprovider context builder set h

/-! ## Stand-ins for sets -/

namespace Suggestions

/-- Merging sees nothing of sets in normal form but their entries. -/
theorem merge_congr {sets sets' : List Suggestions} (h : ∀ set ∈ sets, set.Normal)
    (h' : ∀ set ∈ sets', set.Normal) (heq : sets.flatMap list = sets'.flatMap list) (line : String) :
    merge line sets = merge line sets' := by
  rw [merge_eq_create h, merge_eq_create h', heq]

/-- Where `empty` stands in for what is missing, there are no more entries than without it. -/
theorem flatMap_list_getD {α : Type} (offer : α → Option Suggestions) (xs : List α) :
    (xs.map fun x => (offer x).getD empty).flatMap list = (xs.filterMap offer).flatMap list := by
  induction xs with
  | nil => rfl
  | cons x xs ih =>
    rw [List.map_cons, List.flatMap_cons, ih, List.filterMap_cons]
    cases offer x with
    | none => rfl
    | some set => rfl

end Suggestions

/-! ## Completing among some children -/

namespace Tree

theorem mem_branches_of_mem_children {t : Tree S} {node : NodeId} {c : Branch S × NodeId}
    (h : c ∈ t.children node) : c.1 ∈ t.branches := by
  obtain ⟨b, id⟩ := c
  have hbranch : t.branch? id = some b := branch?_of_mem_children h
  cases id with
  | zero => cases hbranch
  | succ k => exact List.mem_of_getElem? hbranch

end Tree

namespace Dispatcher

/-- The suggestions for a line when, of the children that may stand at the cursor, only those are asked that
    `asked` picks, and those of them that fail are skipped. -/
def completeAmong (d : Dispatcher S) (asked : Branch S × NodeId → Bool) (p : Parse S) (cursor : Nat) :
    Except Fault Suggestions := do
  let slot ← p.trail.locate cursor
  let typed ← Fault.before p.input cursor
  let b ← Builder.ofStart typed (min slot.start cursor)
  Suggestions.merge p.input (((d.tree.children slot.parent).filter asked).filterMap fun child =>
    (child.1.label.suggest (p.trail.build typed) b).toOption)

/-- With the token at the cursor in a builder, completing asks the children of the slot's node and merges what they
    contribute. -/
theorem complete_of_builder (d : Dispatcher S) {p : Parse S} {cursor : Nat} {slot : Trail.Slot} {typed : String}
    {b : Builder} (hslot : p.trail.locate cursor = .ok slot) (htyped : Fault.before p.input cursor = .ok typed)
    (hb : Builder.ofStart typed (min slot.start cursor) = .ok b) :
    d.complete p cursor = ((d.tree.children slot.parent).mapM fun child =>
      d.contribution (p.trail.build typed) b child.1).bind (Suggestions.merge p.input) := by
  unfold complete
  rw [hslot, htyped]
  show (Builder.ofStart _ _).bind _ = _
  rw [hb]
  rfl

theorem contribution_of_isolate {d : Dispatcher S} (h : d.settings.isolate = true) (context : Context S)
    (b : Builder) (branch : Branch S) :
    d.contribution context b branch = .ok ((branch.label.suggest context b).toOption.getD .empty) := by
  unfold contribution
  cases branch.label.suggest context b with
  | ok set => rfl
  | error failure =>
    cases failure with
    | error e => rfl
    | fault fault => simp [h, Except.toOption]

/-- **Completing is merging what the children contribute that succeed.** -/
theorem complete_eq_completeAmong {d : Dispatcher S} (hisolate : d.settings.isolate = true)
    (hmade : d.tree.OffersMade) (p : Parse S) (cursor : Nat) :
    d.complete p cursor = d.completeAmong (fun _ => true) p cursor := by
  refine bind_congr fun slot => bind_congr fun typed => bind_congr fun b => ?_
  let offer (child : Branch S × NodeId) : Option Suggestions :=
    (child.1.label.suggest (p.trail.build typed) b).toOption
  -- No contribution stops the answer: a failure becomes the stand-in.
  have hcontributions : (d.tree.children slot.parent).mapM
      (fun child => d.contribution (p.trail.build typed) b child.1)
        = .ok ((d.tree.children slot.parent).map fun child => (offer child).getD .empty) :=
    mapM_eq_ok_map fun child _ => contribution_of_isolate hisolate _ b child.1
  have hnormal : ∀ child ∈ d.tree.children slot.parent, ∀ set, offer child = some set → set.Normal := by
    intro child hchild set hset
    cases hsuggest : child.1.label.suggest (p.trail.build typed) b with
    | error failure => simp [offer, hsuggest, Except.toOption] at hset
    | ok found =>
      obtain rfl : found = set := by simpa [offer, hsuggest, Except.toOption] using hset
      exact (hmade.isMade (Tree.mem_branches_of_mem_children hchild) hsuggest).normal
  rw [hcontributions, List.filter_true]
  -- The two lists of sets differ in length, so `merge` may take another branch on each; their entries agree.
  apply Suggestions.merge_congr
  · intro set hset
    obtain ⟨child, hchild, rfl⟩ := List.mem_map.mp hset
    cases hoffer : offer child with
    | none => exact Suggestions.normal_empty
    | some set => exact hnormal child hchild set hoffer
  · intro set hset
    obtain ⟨child, hchild, hoffer⟩ := List.mem_filterMap.mp hset
    exact hnormal child hchild set hoffer
  · exact Suggestions.flatMap_list_getD offer _

end Dispatcher

/-! ## Letting children fail -/

/-- The label with a provider that fails. A word has no provider and stays as it is. -/
def Label.failing (failure : Failure) : Label S → Label S
  | literal name => literal name
  | argument name type _ => argument name type (some fun _ _ => .error failure)

/-- The node with a provider that fails, where a failure is given. -/
def Branch.failing (b : Branch S) (failure : Option Failure) : Branch S :=
  { b with label := failure.elim b.label fun failure => b.label.failing failure }

/-- The tree in which the nodes fail for which `fails` has a failure. -/
def Tree.failing (t : Tree S) (fails : NodeId → Option Failure) : Tree S :=
  ⟨(t.branches.zipIdx 1).map fun c => c.1.failing (fails c.2)⟩

/-- The dispatcher with a grammar in which some nodes fail. -/
def Dispatcher.failing (d : Dispatcher S) (fails : NodeId → Option Failure) : Dispatcher S :=
  { d with tree := d.tree.failing fails }

/-- Which children cannot be made to fail: words, and arguments for which no failure is given. -/
def Dispatcher.keeps (fails : NodeId → Option Failure) (child : Branch S × NodeId) : Bool :=
  (fails child.2).isNone || child.1.label.isLiteral

namespace Tree

variable {t : Tree S} {fails : NodeId → Option Failure}

theorem zipIdx_failing (bs : List (Branch S)) (n : Nat) :
    ((bs.zipIdx n).map fun c => c.1.failing (fails c.2)).zipIdx n
      = (bs.zipIdx n).map fun c => (c.1.failing (fails c.2), c.2) := by
  induction bs generalizing n with
  | nil => rfl
  | cons b bs ih => rw [List.zipIdx_cons, List.map_cons, List.zipIdx_cons, ih, List.map_cons]

/-- Failing changes no node's place in the tree. -/
theorem children_failing (t : Tree S) (fails : NodeId → Option Failure) (node : NodeId) :
    (t.failing fails).children node = (t.children node).map fun c => (c.1.failing (fails c.2), c.2) := by
  show (List.zipIdx _ 1).filter _ = _
  rw [failing, zipIdx_failing, List.filter_map]
  rfl

/-- A provider that fails hands out nothing. -/
theorem OffersMade.failing (h : t.OffersMade) (fails : NodeId → Option Failure) :
    (t.failing fails).OffersMade := by
  intro b hb provider hprovider context builder set hset
  obtain ⟨⟨c, id⟩, hc, rfl⟩ := List.mem_map.mp hb
  have hmem : c ∈ t.branches := by
    obtain ⟨_, _, hget⟩ := List.mem_zipIdx hc
    exact hget ▸ List.getElem_mem _
  change provider ∈ (Option.elim (fails id) c.label fun failure => c.label.failing failure).provider?
    at hprovider
  cases hfails : fails id with
  | none =>
    rw [hfails] at hprovider
    exact h c hmem provider hprovider context builder set hset
  | some failure =>
    rw [hfails] at hprovider
    cases hlabel : c.label with
    | literal name =>
      rw [hlabel] at hprovider
      cases hprovider
    | argument name type provider' =>
      rw [hlabel] at hprovider
      obtain rfl := Option.some.inj hprovider
      cases hset

end Tree

namespace Dispatcher

/-- What a child offers that may have been made to fail. -/
theorem toOption_suggest_failing (fails : NodeId → Option Failure) (child : Branch S × NodeId)
    (context : Context S) (b : Builder) :
    ((child.1.failing (fails child.2)).label.suggest context b).toOption
      = if keeps fails child then (child.1.label.suggest context b).toOption else none := by
  obtain ⟨branch, id⟩ := child
  show ((Option.elim (fails id) branch.label fun failure => branch.label.failing failure).suggest
    context b).toOption = _
  unfold keeps
  cases fails id with
  | none => rfl
  | some failure =>
    cases hlabel : branch.label with
    | literal name => simp [Label.failing, Label.isLiteral]
    | argument name type provider => simp [Label.failing, Label.isLiteral, Label.suggest, Except.toOption]

/-- Making children fail is the same as not asking them. -/
theorem completeAmong_failing (d : Dispatcher S) (fails : NodeId → Option Failure) (p : Parse S)
    (cursor : Nat) :
    (d.failing fails).completeAmong (fun _ => true) p cursor = d.completeAmong (keeps fails) p cursor := by
  refine bind_congr fun slot => bind_congr fun typed => bind_congr fun b => ?_
  apply congrArg (Suggestions.merge p.input)
  show (((d.tree.failing fails).children slot.parent).filter _).filterMap _ = _
  rw [List.filter_true, Tree.children_failing, List.filterMap_map, List.filterMap_filter]
  apply List.filterMap_congr
  intro child _
  exact toOption_suggest_failing fails child _ b

/-- **Contributors that fail are invisible.** While providers are kept apart, completing gives what merging the
    sets of those children gives that succeed, or breaks the same contract. And when any of the children are
    made to fail, with whatever error or fault, the answer is the one without these children: the others
    contribute what they contributed before. -/
theorem failing_contributors_are_invisible (d : Dispatcher S) (hisolate : d.settings.isolate = true)
    (hmade : d.tree.OffersMade) (p : Parse S) (cursor : Nat) :
    d.complete p cursor = d.completeAmong (fun _ => true) p cursor ∧
    ∀ fails : NodeId → Option Failure,
      (d.failing fails).complete p cursor = d.completeAmong (keeps fails) p cursor := by
  refine ⟨complete_eq_completeAmong hisolate hmade p cursor, fun fails => ?_⟩
  have hfailing : (d.failing fails).settings.isolate = true := hisolate
  rw [complete_eq_completeAmong hfailing (hmade.failing fails)]
  exact d.completeAmong_failing fails p cursor

/-- One provider gives up and its sibling offers a text: the answer is the sibling's. When the sibling is made
    to fail as well, nothing is left. -/
theorem failing_contributors_are_invisible_sibling :
    let broken := (Declaration.argument "a" .word : Declaration Unit).offers fun _ _ =>
      .error (.fault (.raised "out of order"))
    let sound := (Declaration.argument "b" .word : Declaration Unit).offers fun _ b =>
      ((b.suggest "box").bind Builder.build).mapError Failure.fault
    let d := ({} : Dispatcher Unit).registerAll [broken, sound]
    let p := d.parse "b" ()
    let fails : NodeId → Option Failure :=
      fun id => if id = 2 then some (.error ⟨.unknownCommand, none⟩) else none
    d.settings.isolate = true ∧ d.tree.OffersMade ∧
      d.complete p 1 = d.completeAmong (fun _ => true) p 1 ∧
      (d.complete p 1).map (·.list.map Suggestion.text) = .ok ["box"] ∧
      (d.failing fails).complete p 1 = d.completeAmong (keeps fails) p 1 ∧
      (d.completeAmong (keeps fails) p 1).map (·.list.map Suggestion.text) = .ok [] := by
  intro broken sound d p fails
  have hmade : d.tree.OffersMade := by
    intro b hb provider hprovider context builder set hset
    have hlabels : d.tree.branches.map Branch.label = [broken.label, sound.label] := rfl
    have hlabel : b.label ∈ [broken.label, sound.label] := hlabels ▸ List.mem_map_of_mem hb
    simp only [List.mem_cons, List.not_mem_nil, or_false] at hlabel
    rcases hlabel with hlabel | hlabel
    · rw [hlabel] at hprovider
      obtain rfl := Option.some.inj hprovider
      cases hset
    · rw [hlabel] at hprovider
      obtain rfl := Option.some.inj hprovider
      obtain ⟨_, _, hbuild⟩ := bind_eq_ok_iff.mp (mapError_eq_ok_iff.mp hset)
      exact Builder.isMade_of_build hbuild
  have hinvisible := failing_contributors_are_invisible d rfl hmade p 1
  exact ⟨rfl, hmade, hinvisible.1, by decide +kernel, hinvisible.2 fails, by decide +kernel⟩

end Dispatcher

end CommandGrammar
