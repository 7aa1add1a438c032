import CommandGrammar.Proofs.Isolation
import CommandGrammar.Proofs.Token

/-!
# `Proofs.Stray` — suggestions outside the line

While providers are kept apart, one that fails loses nothing but its own suggestions. One that *succeeds* is
trusted: after all children were asked, their suggestions are stated for a common range, which takes in what the
line holds in between, and nothing guards this last step. A range outside the line, or inside a character, is
therefore harmless as long as nobody has to look at the line there, and otherwise takes the answer away from
everybody. This module says exactly when.

* `Suggestion.Widens`, `Suggestion.exists_expand_iff` — which places of the line have to exist for a suggestion
  to be stated for a wider range;
* `Suggestions.Joinable`, `Suggestions.exists_create_iff`, `Suggestions.exists_merge_iff` — the same for all
  suggestions of a list and for sets that are merged;
* `Dispatcher.complete_eq_merge` — what is left of completing when the cursor is in order: merging what the
  children offer;
* `Dispatcher.complete_succeeds_iff_joinable` — so completing fails exactly when two children have to be joined
  and their suggestions cannot be.
-/

namespace CommandGrammar

variable {S : Type}

/-! ## Slices that exist -/

namespace Fault

theorem before_eq_ok_iff {line left : String} {n : Nat} :
    before line n = .ok left ↔ ∃ right, left ++ right = line ∧ Text.byteSize left = n := by
  constructor
  · intro h
    unfold before at h
    split at h
    · next left' right hcut =>
      obtain rfl := Except.ok.inj h
      obtain ⟨happ, hsize⟩ := Text.append_of_cut hcut
      refine ⟨String.ofList right, ?_, by rw [Text.byteSize_ofList, hsize]⟩
      rw [← String.ofList_append, happ, String.ofList_toList]
    · cases h
  · rintro ⟨right, rfl, rfl⟩
    exact before_append left right

theorem after_eq_ok_iff {line right : String} {n : Nat} :
    after line n = .ok right ↔ ∃ left, left ++ right = line ∧ Text.byteSize left = n := by
  constructor
  · intro h
    unfold after at h
    split at h
    · next left right' hcut =>
      obtain rfl := Except.ok.inj h
      obtain ⟨happ, hsize⟩ := Text.append_of_cut hcut
      refine ⟨String.ofList left, ?_, by rw [Text.byteSize_ofList, hsize]⟩
      rw [← String.ofList_append, happ, String.ofList_toList]
    · cases h
  · rintro ⟨left, rfl, rfl⟩
    exact after_append left right

end Fault

theorem Text.isBoundary_append (a b : String) : IsBoundary (a ++ b) (byteSize a) :=
  ⟨a.toList, b.toList, String.toList_append.symm, rfl⟩

/-- What stands between two offsets can be read exactly when both lie between characters of the line. -/
theorem Fault.exists_slice_iff {line : String} {start stop : Nat} (hle : start ≤ stop) :
    (∃ text, slice line start stop = .ok text)
      ↔ Text.IsBoundary line start ∧ Text.IsBoundary line stop := by
  constructor
  · rintro ⟨text, h⟩
    obtain ⟨left, hleft, hafter⟩ := bind_eq_ok_iff.mp h
    obtain ⟨right, rfl, rfl⟩ := before_eq_ok_iff.mp hleft
    obtain ⟨front, rfl, rfl⟩ := after_eq_ok_iff.mp hafter
    refine ⟨?_, Text.isBoundary_append _ right⟩
    rw [String.append_assoc]
    exact Text.isBoundary_append front _
  · rintro ⟨hstart, hstop⟩
    obtain ⟨a, m, b, rfl, rfl, rfl⟩ := hstart.exists_between hstop hle
    exact ⟨m, slice_append a m b⟩

/-! ## Suggestions that can be widened -/

namespace Suggestion

variable {s : Suggestion} {line : String} {range : Range}

/-- The suggestion can be stated for a range: where the range reaches further, on either side, both ends of what
    is to be taken in are places of the line. -/
structure Widens (line : String) (range : Range) (s : Suggestion) : Prop where
  /-- What is taken in on the left stands in the line. -/
  left : range.start < s.range.start →
    Text.IsBoundary line range.start ∧ Text.IsBoundary line s.range.start
  /-- What is taken in on the right stands in the line. -/
  right : s.range.stop < range.stop →
    Text.IsBoundary line s.range.stop ∧ Text.IsBoundary line range.stop

theorem exists_margin_iff {start stop : Nat} :
    (∃ text, margin line start stop = .ok text)
      ↔ (start < stop → Text.IsBoundary line start ∧ Text.IsBoundary line stop) := by
  unfold margin
  by_cases hlt : start < stop
  · rw [if_pos hlt, Fault.exists_slice_iff (Nat.le_of_lt hlt)]
    simp [hlt]
  · simp [hlt]

theorem exists_expand_iff : (∃ t, s.expand line range = .ok t) ↔ s.Widens line range := by
  constructor
  · rintro ⟨t, h⟩
    obtain ⟨left, right, hleft, hright, _⟩ := expand_cases h
    exact ⟨exists_margin_iff.mp ⟨left, hleft⟩, exists_margin_iff.mp ⟨right, hright⟩⟩
  · intro h
    obtain ⟨left, hleft⟩ := exists_margin_iff.mpr h.left
    obtain ⟨right, hright⟩ := exists_margin_iff.mpr h.right
    rw [expand_eq, hleft, hright]
    exact ⟨_, rfl⟩

end Suggestion

namespace Suggestions

variable {line : String} {xs : List Suggestion} {sets : List Suggestions}

/-- All of the suggestions can be stated for the smallest range that covers them. -/
def Joinable (line : String) (xs : List Suggestion) : Prop :=
  ∀ range, hull xs = some range → ∀ s ∈ xs, s.Widens line range

theorem exists_create_iff : (∃ set, create line xs = .ok set) ↔ Joinable line xs := by
  constructor
  · rintro ⟨set, hset⟩ range hhull s hs
    rw [create_of_hull hhull] at hset
    cases hmap : xs.eraseDups.mapM (Suggestion.expand · line range) with
    | error fault =>
      rw [hmap] at hset
      cases hset
    | ok expanded =>
      exact Suggestion.exists_expand_iff.mp (exists_of_mapM_eq_ok hmap (List.mem_eraseDups.mpr hs))
  · intro h
    exact exists_create fun range hhull s hs => Suggestion.exists_expand_iff.mpr (h range hhull s hs)

theorem joinable_of_within (h : ∀ s ∈ xs, s.range.Within line) : Joinable line xs :=
  exists_create_iff.mp (exists_create_of_within h)

/-- **Merging fails only where the line is looked at.** No set and a single one are passed on unseen. -/
theorem exists_merge_iff :
    (∃ set, merge line sets = .ok set) ↔ sets.length ≤ 1 ∨ Joinable line (sets.flatMap list) := by
  match sets with
  | [] => simp [merge]
  | [set] => simp [merge]
  | first :: second :: rest =>
    have hlong : ¬ (first :: second :: rest).length ≤ 1 := by simp
    rw [show merge line (first :: second :: rest) = create line _ from rfl, exists_create_iff]
    exact ⟨Or.inr, fun h => h.resolve_left hlong⟩

/-- Merging sets within the line keeps what their entries mean. -/
theorem mem_meanings_of_merge (hwithin : ∀ s ∈ sets.flatMap list, s.range.Within line) {set : Suggestions}
    (h : merge line sets = .ok set) (m : Except Fault String × Option String) :
    m ∈ set.list.map (Suggestion.meaning line)
      ↔ m ∈ (sets.flatMap list).map (Suggestion.meaning line) := by
  match sets with
  | [] =>
    obtain rfl := Except.ok.inj h
    exact Iff.rfl
  | [only] =>
    obtain rfl := Except.ok.inj h
    rw [List.flatMap_singleton]
  | first :: second :: rest => exact mem_meanings_of_create hwithin h m

end Suggestions

/-! ## Completing -/

namespace Dispatcher

/-- What the children of a node offer for a token, those left out that fail. -/
def offered (d : Dispatcher S) (parent : NodeId) (context : Context S) (b : Builder) : List Suggestion :=
  ((d.tree.children parent).filterMap fun child => (child.1.label.suggest context b).toOption).flatMap
    Suggestions.list

/-- **With the cursor in order, completing is merging.** Providers that fail are replaced by sets without
    entries, so the sets that are merged are as many as the children and hold what is offered. -/
theorem complete_eq_merge {d : Dispatcher S} (hisolate : d.settings.isolate = true) {p : Parse S}
    {cursor : Nat} {slot : Trail.Slot} {typed : String} {b : Builder}
    (hslot : p.trail.locate cursor = .ok slot) (htyped : Fault.before p.input cursor = .ok typed)
    (hb : Builder.ofStart typed (min slot.start cursor) = .ok b) :
    ∃ sets, d.complete p cursor = Suggestions.merge p.input sets ∧
      sets.length = (d.tree.children slot.parent).length ∧
      sets.flatMap Suggestions.list = d.offered slot.parent (p.trail.build typed) b := by
  let offer (child : Branch S × NodeId) : Option Suggestions :=
    (child.1.label.suggest (p.trail.build typed) b).toOption
  have hcontributions : (d.tree.children slot.parent).mapM
      (fun child => d.contribution (p.trail.build typed) b child.1)
        = .ok ((d.tree.children slot.parent).map fun child => (offer child).getD .empty) :=
    mapM_eq_ok_map fun child _ => contribution_of_isolate hisolate _ b child.1
  refine ⟨(d.tree.children slot.parent).map fun child => (offer child).getD .empty, ?_, ?_, ?_⟩
  · rw [complete_of_builder d hslot htyped hb, hcontributions]
    rfl
  · exact List.length_map _
  · exact Suggestions.flatMap_list_getD offer _

/-- **Exactly when completing succeeds.** The cursor is at a place of the line, not in front of where reading
    started, and providers are kept apart; they may fail in any way and hand out any set. Then the token at the
    cursor can be found, and completing succeeds exactly when at most one child was asked or everything that is
    offered can be stated for a common range. That is so whenever the offered ranges lie in the line; then
    nobody's suggestions are lost, whatever the others did. -/
theorem complete_succeeds_iff_joinable (d : Dispatcher S) (hisolate : d.settings.isolate = true) (s : Scanner)
    (source : S) (cursor : Nat) (hstart : s.cursor ≤ cursor) (hcursor : Text.IsBoundary s.text cursor) :
    let p := d.parseFrom s source
    ∃ slot typed b, p.trail.locate cursor = .ok slot ∧ Fault.before s.text cursor = .ok typed ∧
      Builder.ofStart typed slot.start = .ok b ∧
      let xs := d.offered slot.parent (p.trail.build typed) b
      ((∃ set, d.complete p cursor = .ok set) ↔
        (d.tree.children slot.parent).length ≤ 1 ∨ Suggestions.Joinable s.text xs) ∧
      ((∀ x ∈ xs, x.range.Within s.text) → ∃ set, d.complete p cursor = .ok set ∧
        ∀ m, m ∈ set.list.map (fun x => (x.apply s.text, x.tooltip))
          ↔ m ∈ xs.map (fun x => (x.apply s.text, x.tooltip))) := by
  intro p
  have hinput : p.input = s.text := d.input_parseFrom s source
  obtain ⟨slot, left, token, right, hslot, htext, hleft, hsize⟩ :=
    d.exists_token_parseFrom s source hstart hcursor
  let b : Builder := ⟨left ++ token, Text.byteSize left, []⟩
  have htyped : Fault.before s.text cursor = .ok (left ++ token) := by
    rw [← htext, ← hsize]
    exact Fault.before_append _ right
  have hb : Builder.ofStart (left ++ token) slot.start = .ok b := by
    rw [← hleft]
    exact (Builder.remaining_ofStart left token).1
  have hle : slot.start ≤ cursor := by
    rw [← hleft, ← hsize, Text.byteSize_append]
    exact Nat.le_add_right _ _
  refine ⟨slot, left ++ token, b, hslot, htyped, hb, ?_⟩
  obtain ⟨sets, hcomplete, hlength, hlist⟩ := complete_eq_merge hisolate hslot (hinput.symm ▸ htyped)
    ((Nat.min_eq_left hle).symm ▸ hb)
  rw [hinput] at hcomplete
  rw [← hlist, ← hlength, hcomplete]
  refine ⟨Suggestions.exists_merge_iff, fun hwithin => ?_⟩
  obtain ⟨set, hset⟩ := Suggestions.exists_merge_iff.mpr (.inr (Suggestions.joinable_of_within hwithin))
  exact ⟨set, hset, Suggestions.mem_meanings_of_merge hwithin hset⟩

/-- One provider gives up, one offers a text for the token, and one speaks of the place in front of it: both
    offers are there. -/
theorem complete_succeeds_iff_joinable_wider :
    let broken := (Declaration.argument "a" .word : Declaration Unit).offers fun _ _ =>
      .error (.fault (.raised "out of order"))
    let sound := (Declaration.argument "b" .word : Declaration Unit).offers fun _ b =>
      ((b.suggest "box").bind Builder.build).mapError Failure.fault
    let wider := (Declaration.argument "c" .word : Declaration Unit).offers fun _ _ =>
      .ok ⟨Range.point 0, [⟨Range.point 0, "see ", none⟩]⟩
    let d := ({} : Dispatcher Unit).registerAll [broken, sound, wider]
    let s := Scanner.ofString "b"
    d.settings.isolate = true ∧ s.cursor ≤ 1 ∧ Text.IsBoundary s.text 1 ∧
      ∃ set, d.complete (d.parseFrom s ()) 1 = .ok set ∧
        (.ok "box", none) ∈ set.list.map (fun x => (x.apply s.text, x.tooltip)) ∧
        (.ok "see b", none) ∈ set.list.map (fun x => (x.apply s.text, x.tooltip)) := by
  intro broken sound wider d s
  obtain ⟨slot, typed, b, hslot, htyped, hb, _, hkept⟩ :=
    complete_succeeds_iff_joinable d rfl s () 1 (by decide) (by decide)
  obtain rfl : (⟨0, 0⟩ : Trail.Slot) = slot :=
    Except.ok.inj ((show (d.parseFrom s ()).trail.locate 1 = .ok ⟨0, 0⟩ by decide +kernel).symm.trans hslot)
  obtain rfl : "b" = typed :=
    Except.ok.inj ((show Fault.before s.text 1 = .ok "b" by decide +kernel).symm.trans htyped)
  obtain rfl : (⟨"b", 0, []⟩ : Builder) = b := Except.ok.inj hb
  let context := (d.parseFrom s ()).trail.build "b"
  have hoffered : d.offered 0 context ⟨"b", 0, []⟩
      = [⟨⟨0, 1, by decide⟩, "box", none⟩, ⟨Range.point 0, "see ", none⟩] := by decide +kernel
  obtain ⟨set, hset, hmeanings⟩ := hkept (by rw [hoffered]; decide)
  refine ⟨rfl, by decide, by decide, set, hset, (hmeanings _).mpr ?_, (hmeanings _).mpr ?_⟩
  · rw [hoffered]
    decide
  · rw [hoffered]
    decide

/-- **A stray range takes the others' suggestions away.** One provider hands out a range behind the end of the
    line, its sibling offers a text for the token. Providers are kept apart and the cursor is in order; still
    completing fails, and the sibling alone would have been heard. -/
theorem complete_fails_on_stray_range :
    let stray := (Declaration.argument "a" .word : Declaration Unit).offers fun _ b =>
      (Suggestions.create b.input [⟨⟨5, 9, by decide⟩, "far", none⟩]).mapError Failure.fault
    let sound := (Declaration.argument "b" .word : Declaration Unit).offers fun _ b =>
      ((b.suggest "box").bind Builder.build).mapError Failure.fault
    let d := ({} : Dispatcher Unit).registerAll [stray, sound]
    let p := d.parse "b" ()
    d.settings.isolate = true ∧ Text.IsBoundary "b" 1 ∧ d.complete p 1 = .error .badSlice ∧
      (d.completeAmong (fun child => child.2 == 2) p 1).map (·.list.map Suggestion.text) = .ok ["box"] := by
  intro stray sound d p
  exact ⟨rfl, by decide, by decide +kernel, by decide +kernel⟩

end Dispatcher

end CommandGrammar
