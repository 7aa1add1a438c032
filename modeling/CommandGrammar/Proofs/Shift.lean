import CommandGrammar.Proofs.Completion
import CommandGrammar.Proofs.Recast

/-!
# `Proofs.Shift` — a line behind other text

A scanner need not start at the start of its text. Whatever stands in front of it then moves all offsets by its
size and changes nothing else: the line is read in the same way, and completing it offers the same texts at the
place that the cursor moved to.

* `Range.shift`, `Trail.shift`, `Parse.behind`, `Suggestions.shift` — the same things, so many bytes further on;
* `Label.read_behind`, `Tree.respects_behind` — one level of the search moves along, hence all of it
  (`Dispatcher.parseFrom_behind`);
* `Trail.locate_shift` — the cursor is located in the slot that moved along;
* `Suggestions.create_shift`, `Suggestions.merge_shift` — suggestions for one token are collected in the same order;
* `Label.own_append` — so what a label offers moves along with the token (`Dispatcher.complete_behind`);
* `Dispatcher.offsets_are_relative` — both together.
-/

namespace CommandGrammar

variable {S H : Type}

/-! ## Moving offsets -/

/-- The range that lies `k` bytes further on. -/
def Range.shift (k : Nat) (range : Range) : Range :=
  ⟨k + range.start, k + range.stop, Nat.add_le_add_left range.start_le_stop k⟩

/-- The step that lies `k` bytes further on. -/
def Step.shift (k : Nat) (step : Step) : Step := ⟨step.node, step.range.shift k⟩

/-- The same value, captured `k` bytes further on. -/
def Capture.shift (k : Nat) (c : Capture) : Capture := ⟨c.range.shift k, c.value⟩

/-- The slot that lies `k` bytes further on. -/
def Trail.Slot.shift (k : Nat) (slot : Slot) : Slot := ⟨slot.parent, k + slot.start⟩

/-- The trail that lies `k` bytes further on: all of its ranges move. -/
def Trail.shift (k : Nat) : Trail S H → Trail S H
  | ⟨source, root, range, steps, captures, handler, none⟩ =>
    ⟨source, root, range.shift k, steps.map (·.shift k), captures.map fun c => (c.1, c.2.shift k), handler, none⟩
  | ⟨source, root, range, steps, captures, handler, some child⟩ =>
    ⟨source, root, range.shift k, steps.map (·.shift k), captures.map fun c => (c.1, c.2.shift k), handler,
      some (child.shift k)⟩

/-- The same result for a line with more text in front. -/
def Parse.behind (front : List Char) (p : Parse S) : Parse S :=
  ⟨p.scanner.behind front, p.trail.shift (Text.size front),
    p.errors.map fun failure => (failure.1, failure.2.behind front)⟩

/-- The suggestion for a place `k` bytes further on. -/
def Suggestion.shift (k : Nat) (s : Suggestion) : Suggestion := ⟨s.range.shift k, s.text, s.tooltip⟩

/-- The set for a place `k` bytes further on. Where nothing is offered there is no place, and the set stays. -/
def Suggestions.shift (k : Nat) (set : Suggestions) : Suggestions :=
  if set.list = [] then set else ⟨set.range.shift k, set.list.map (·.shift k)⟩

namespace Range

variable (k : Nat)

@[simp] theorem start_shift (range : Range) : (range.shift k).start = k + range.start := rfl

@[simp] theorem stop_shift (range : Range) : (range.shift k).stop = k + range.stop := rfl

theorem shift_hull (a b : Range) : (a.hull b).shift k = (a.shift k).hull (b.shift k) := by
  apply Range.ext
  · exact (Nat.add_min_add_left k a.start b.start).symm
  · exact (Nat.add_max_add_left k a.stop b.stop).symm

theorem contains_shift (range : Range) (offset : Nat) :
    (range.shift k).contains (k + offset) = range.contains offset := by
  simp [contains]

theorem shift_injective : Function.Injective (shift k) := by
  intro a b h
  have hstart : k + a.start = k + b.start := congrArg start h
  have hstop : k + a.stop = k + b.stop := congrArg stop h
  exact Range.ext (Nat.add_left_cancel hstart) (Nat.add_left_cancel hstop)

end Range

/-! ## Trails -/

namespace Trail

variable (k : Nat)

/-- Moving a trail, field by field. -/
theorem shift_eq (trail : Trail S H) :
    trail.shift k = { trail with
      range := trail.range.shift k
      steps := trail.steps.map (·.shift k)
      captures := trail.captures.map fun c => (c.1, c.2.shift k)
      child := trail.child.map (·.shift k) } := by
  obtain ⟨source, root, range, steps, captures, handler, child⟩ := trail
  cases child <;> rw [shift] <;> rfl

theorem shift_step (trail : Trail S H) (node : NodeId) (range : Range) :
    (trail.step node range).shift k = (trail.shift k).step node (range.shift k) := by
  rw [shift_eq, shift_eq k trail]
  simp only [step, List.map_append, Range.shift_hull]
  rfl

theorem shift_capture (trail : Trail S H) (name : String) (c : Capture) :
    (trail.capture name c).shift k = (trail.shift k).capture name (c.shift k) := by
  rw [shift_eq, shift_eq k trail]
  simp only [capture, List.map_cons, List.filter_map]
  rfl

theorem shift_withHandler (trail : Trail S H) (handler : Option H) :
    (trail.withHandler handler).shift k = (trail.shift k).withHandler handler := by
  rw [shift_eq, shift_eq k trail]
  rfl

theorem source_shift (trail : Trail S H) : (trail.shift k).source = trail.source := by
  rw [shift_eq]

/-! ## The slot at a cursor -/

theorem slotAmong_shift (cursor start : Nat) (previous : NodeId) (steps : List Step) :
    slotAmong (k + cursor) (k + start) previous (steps.map (·.shift k))
      = (slotAmong cursor start previous steps).shift k := by
  induction steps generalizing previous with
  | nil => rfl
  | cons step steps ih =>
    simp only [List.map_cons, slotAmong, Step.shift, Range.contains_shift]
    split
    · rfl
    · exact ih step.node

theorem slotBehind_shift (root : NodeId) (start : Nat) (steps : List Step) :
    slotBehind root (k + start) (steps.map (·.shift k)) = (slotBehind root start steps).shift k := by
  rw [slotBehind, slotBehind, List.getLast?_map]
  cases steps.getLast? <;> rfl

/-- **A cursor that moves along with the trail is located in the slot that moves along.** -/
theorem locate_shift {cursor : Nat} {slot : Slot} :
    ∀ {trail : Trail S H}, trail.locate cursor = .ok slot →
      (trail.shift k).locate (k + cursor) = .ok (slot.shift k)
  | ⟨source, root, range, steps, captures, handler, child⟩, h => by
    rw [locate.eq_def] at h
    dsimp only at h
    have hstart : ¬ cursor < range.start := by
      intro hlt
      rw [if_pos hlt] at h
      cases h
    rw [if_neg hstart] at h
    rw [shift_eq, locate.eq_def]
    simp only [Range.start_shift, Range.stop_shift, Nat.add_lt_add_iff_left]
    rw [if_neg hstart]
    by_cases hbehind : range.stop < cursor
    · rw [if_pos hbehind] at h ⊢
      cases child with
      | none =>
        obtain rfl := Except.ok.inj h
        exact congrArg Except.ok (slotBehind_shift k root range.start steps)
      | some child => exact locate_shift h
    · rw [if_neg hbehind] at h ⊢
      obtain rfl := Except.ok.inj h
      exact congrArg Except.ok (slotAmong_shift k cursor range.start root steps)

end Trail

/-! ## Reading -/

section Reading

variable (front : List Char)

/-- The value is captured at the place that moved along. -/
theorem ArgumentType.capture_behind (type : ArgumentType) (s : Scanner) :
    type.capture (s.behind front) = ((type.capture s).map (·.shift (Text.size front))).behind front := by
  have hread := type.read_behind front s
  cases hcapture : type.capture s with
  | error e t =>
    rw [capture_eq_error_iff.mp hcapture] at hread
    exact capture_eq_error_iff.mpr hread
  | ok c t =>
    obtain ⟨hvalue, hstart, hstop⟩ := capture_eq_ok_iff.mp hcapture
    rw [hvalue] at hread
    refine capture_eq_ok_iff.mpr ⟨hread, ?_, ?_⟩
    · rw [Scanner.cursor_behind, ← hstart]
      rfl
    · rw [Scanner.cursor_behind, ← hstop]
      rfl

/-- Matching a label looks at what is to come and records where it stands. -/
theorem Label.read_behind (label : Label S) (id : NodeId) (s : Scanner) (trail : Trail S H) :
    label.read id (s.behind front) (trail.shift (Text.size front))
      = ((label.read id s trail).map (·.shift (Text.size front))).behind front := by
  cases label with
  | literal name =>
    simp only [Label.read, Scanner.advance_behind, Scanner.error_behind]
    change (if name.toList.isPrefixOf s.rest && (s.advance name.toList.length).atBreak then _ else _) = _
    split
    · -- The range of the word, moved along, is the one from the place that moved along.
      have hrange : (⟨(s.behind front).cursor, (s.behind front).cursor + Text.byteSize name, Nat.le_add_right _ _⟩
          : Range) = Range.shift (Text.size front) ⟨s.cursor, s.cursor + Text.byteSize name, Nat.le_add_right _ _⟩ :=
        Range.ext (Scanner.cursor_behind front s) (by simp [Nat.add_assoc])
      rw [hrange, ← Trail.shift_step]
      rfl
    · rfl
  | argument name type provider =>
    simp only [Label.read, ArgumentType.capture_behind]
    cases type.capture s with
    | error e t => rfl
    | ok c t =>
      simp only [Scanned.map, Scanned.behind, Trail.shift_step, Trail.shift_capture]
      rfl

/-- Reading behind other text, as a change that the search does not notice. -/
def Recast.behind : Recast S := ⟨(·.behind front), (·.shift (Text.size front)), (·.behind front)⟩

theorem Branch.attempt_behind (b : Branch S) (id : NodeId) (s : Scanner) (trail : Trail S (Handler S)) :
    b.attempt id (s.behind front) (trail.shift (Text.size front))
      = (Recast.behind front).attempted (b.attempt id s trail) := by
  unfold Branch.attempt
  rw [Label.read_behind]
  cases b.label.read id s trail with
  | error e t => rfl
  | ok trail' t =>
    simp only [Scanned.map, Scanned.behind, ← Trail.shift_withHandler, Scanner.error_behind]
    change (if t.atBreak then _ else _) = _
    split <;> rfl

/-- **What stands in front of a line changes nothing** on any level of the search. -/
theorem Tree.respects_behind (t : Tree S) : (Recast.behind front).Respects t fun _ => True where
  rest _ := rfl
  skip s := Scanner.skip_behind front s
  attempts node s trail _ := by
    show ((t.candidates node s).filter fun c => c.1.requirement (trail.shift (Text.size front)).source).map _ = _
    rw [Trail.source_shift, attempts, List.map_map]
    apply List.map_congr_left
    rintro ⟨b, id⟩ _
    exact congrArg (Prod.mk id) (b.attempt_behind front id s trail)
  good_of_mem _ _ _ _ _ _ := trivial

/-- **A line is read in the same way behind other text**, at offsets that moved along. -/
theorem Dispatcher.parseFrom_behind (d : Dispatcher S) (s : Scanner) (source : S) :
    d.parseFrom (s.behind front) source = (d.parseFrom s source).behind front := by
  refine (d.tree.respects_behind front).parseFrom_eq trivial ?_
  show Trail.shift _ (Trail.start source 0 s.cursor) = Trail.start source 0 (s.behind front).cursor
  rw [Scanner.cursor_behind]
  rfl

end Reading

/-! ## Collecting suggestions -/

theorem Suggestion.shift_injective (k : Nat) : Function.Injective (shift k) := by
  intro a b h
  obtain ⟨hrange, htext, htooltip⟩ := Suggestion.mk.inj h
  obtain ⟨range, text, tooltip⟩ := a
  obtain rfl : range = b.range := Range.shift_injective k hrange
  obtain rfl : text = b.text := htext
  obtain rfl : tooltip = b.tooltip := htooltip
  rfl

namespace Suggestions

variable (k : Nat)

theorem list_shift (set : Suggestions) : (set.shift k).list = set.list.map (·.shift k) := by
  unfold shift
  split
  · next hnil => rw [hnil, List.map_nil]
  · rfl

/-- Suggestions for one token are collected in the same order wherever the token stands. -/
theorem create_shift {range : Range} {xs : List Suggestion} (h : ∀ s ∈ xs, s.range = range)
    (line other : String) : create other (xs.map (·.shift k)) = (create line xs).map (·.shift k) := by
  by_cases hnil : xs = []
  · rw [hnil]
    rfl
  · have hshifted : ∀ s ∈ xs.map (·.shift k), s.range = range.shift k := by
      intro s hs
      obtain ⟨t, ht, rfl⟩ := List.mem_map.mp hs
      exact congrArg (Range.shift k) (h t ht)
    have hlist : sort xs.eraseDups ≠ [] := by
      obtain ⟨s, hs⟩ := List.exists_mem_of_ne_nil xs hnil
      exact List.ne_nil_of_mem ((perm_sort _).mem_iff.mpr (List.mem_eraseDups.mpr hs))
    have hkey : ∀ s : Suggestion, (s.shift k).key = s.key := fun _ => rfl
    rw [create_of_anchored (by simpa using hnil) hshifted, create_of_anchored hnil h,
      eraseDups_map (Suggestion.shift_injective k), sort_map hkey]
    show _ = Except.ok (shift k _)
    rw [shift, if_neg hlist]

theorem merge_shift {range : Range} {sets : List Suggestions}
    (h : ∀ set ∈ sets, ∀ s ∈ set.list, s.range = range) (line other : String) :
    merge other (sets.map (·.shift k)) = (merge line sets).map (·.shift k) := by
  match sets with
  | [] => rfl
  | [set] => rfl
  | first :: second :: rest =>
    have hanchored : ∀ s ∈ (first :: second :: rest).flatMap list, s.range = range :=
      List.forall_mem_flatMap.mpr h
    show create other (((first :: second :: rest).map (·.shift k)).flatMap list) = _
    rw [List.flatMap_map, funext (list_shift k), ← List.map_flatMap]
    exact create_shift k hanchored line other

end Suggestions

/-! ## What is offered for a token -/

section Offers

variable (front left typed : String)

open Builder (token offer)

theorem Builder.offer_append (text : String) :
    offer (front ++ left) typed text = (offer left typed text).shift (Text.byteSize front) := by
  simp [offer, Suggestion.shift, Range.shift, String.append_assoc]

/-- A builder collects the same texts behind other text. -/
theorem Builder.build_token_append (texts : List String) :
    ((token (front ++ left) typed).suggestAll texts).bind build
      = (((token left typed).suggestAll texts).bind build).map (·.shift (Text.byteSize front)) := by
  have hcreate := Suggestions.create_shift (Text.byteSize front)
    (range_of_mem_offers left typed (texts.filter (· ≠ typed))) (left ++ typed) (front ++ left ++ typed)
  rw [List.map_map] at hcreate
  rw [build_token, build_token, funext (offer_append front left typed)]
  exact hcreate

/-- What a label offers moves along with the token. -/
theorem Label.own_append (label : Label S) :
    label.own (token (front ++ left) typed)
      = (label.own (token left typed)).map (·.shift (Text.byteSize front)) := by
  rw [own_token, own_token]
  exact Builder.build_token_append front left typed (label.texts typed)

end Offers

/-! ## Completing -/

namespace Dispatcher

open Builder (token)

/-- A label without a provider contributes the same behind other text; it sees nothing of the context. -/
theorem contribution_append (d : Dispatcher S) {b : Branch S} (hplain : b.label.provider? = none)
    (context other : Context S) (front left typed : String) :
    d.contribution other (token (front ++ left) typed) b
      = (d.contribution context (token left typed) b).map (·.shift (Text.byteSize front)) := by
  obtain ⟨set, hset, _⟩ := b.label.exists_own left typed
  rw [contribution, contribution, Label.suggest_of_plain hplain, Label.suggest_of_plain hplain,
    Label.own_append, hset]
  rfl

/-- **Without providers, a line is completed in the same way behind other text.** -/
theorem complete_behind {d : Dispatcher S} (hplain : d.tree.Plain) {p : Parse S} {left typed right : String}
    (hinput : left ++ typed ++ right = p.input) {slot : Trail.Slot}
    (hslot : p.trail.locate (Text.byteSize (left ++ typed)) = .ok slot)
    (hstart : slot.start = Text.byteSize left) (front : String) :
    d.complete (p.behind front.toList) (Text.byteSize front + Text.byteSize (left ++ typed))
      = (d.complete p (Text.byteSize (left ++ typed))).map (·.shift (Text.byteSize front)) := by
  let q := p.behind front.toList
  have hsize : Text.byteSize front + Text.byteSize (left ++ typed) = Text.byteSize (front ++ left ++ typed) := by
    rw [String.append_assoc, Text.byteSize_append front]
  have hinput' : front ++ left ++ typed ++ right = q.input := by
    show _ = (p.scanner.behind front.toList).text
    rw [Scanner.text_behind, String.ofList_toList, ← show _ = p.scanner.text from hinput]
    simp only [String.append_assoc]
  have hslot' : q.trail.locate (Text.byteSize (front ++ left ++ typed)) = .ok (slot.shift (Text.byteSize front)) := by
    rw [← hsize]
    exact Trail.locate_shift _ hslot
  have hstart' : (slot.shift (Text.byteSize front)).start = Text.byteSize (front ++ left) := by
    rw [Text.byteSize_append, ← hstart]
    rfl
  rw [hsize, complete_of_token d hinput' hslot' hstart', complete_of_token d hinput hslot hstart]
  -- The same children are asked about the same token; what they contribute has moved.
  have hcontributions : (d.tree.children slot.parent).mapM (fun child =>
        d.contribution (q.trail.build (front ++ left ++ typed)) (token (front ++ left) typed) child.1)
      = ((d.tree.children slot.parent).mapM fun child =>
          d.contribution (p.trail.build (left ++ typed)) (token left typed) child.1).map
        (List.map (·.shift (Text.byteSize front))) :=
    mapM_eq_map_mapM fun child hchild =>
      d.contribution_append (hplain child.1 (Tree.mem_branches_of_mem_children hchild)) _ _ front left typed
  obtain ⟨sets, hsets, _, hanchored⟩ :=
    exists_contributions_of_plain hplain (p.trail.build (left ++ typed)) slot.parent left typed
  show Except.bind (List.mapM _ (d.tree.children slot.parent)) _ = _
  rw [hcontributions, hsets]
  exact Suggestions.merge_shift _ hanchored p.input q.input

/-- Whatever completing gives was made from suggestions, if all providers keep to that. -/
theorem isMade_of_complete {d : Dispatcher S} (hmade : d.tree.OffersMade) {p : Parse S} {cursor : Nat}
    {set : Suggestions} (h : d.complete p cursor = .ok set) : set.IsMade := by
  obtain ⟨slot, _, h⟩ := bind_eq_ok_iff.mp h
  obtain ⟨typed, _, h⟩ := bind_eq_ok_iff.mp h
  obtain ⟨b, _, h⟩ := bind_eq_ok_iff.mp h
  obtain ⟨sets, hsets, h⟩ := bind_eq_ok_iff.mp h
  refine Suggestions.isMade_merge (fun contributed hmem => ?_) h
  obtain ⟨child, hchild, hcontribution⟩ := (mem_of_mapM_eq_ok hsets).mp hmem
  unfold contribution at hcontribution
  split at hcontribution
  · next hsuggest =>
    obtain rfl := Except.ok.inj hcontribution
    exact hmade.isMade (Tree.mem_branches_of_mem_children hchild) hsuggest
  · obtain rfl := Except.ok.inj hcontribution
    exact Suggestions.isMade_empty
  · split at hcontribution
    · obtain rfl := Except.ok.inj hcontribution
      exact Suggestions.isMade_empty
    · cases hcontribution

/-- **Offsets are relative.** A line with other text in front of it, read from where it starts, is read as it is
    alone: the same nodes match, with the same handler and the same captured values, the same is left over, and
    the same candidates fail for the same reasons; all offsets have moved by the size of the text in front. In a
    grammar without providers completing moves along as well. At every place between two characters of the line
    it succeeds and offers the same texts with the same tooltips at the range that moved; where nothing is
    offered, both sets are `Suggestions.empty`. -/
theorem offsets_are_relative (d : Dispatcher S) (front line : String) (source : S) :
    ∃ s, (Scanner.ofString (front ++ line)).moveTo (Text.byteSize front) = .ok s ∧
      let p := d.parse line source
      let q := d.parseFrom s source
      q = p.behind front.toList ∧
      (d.tree.Plain → ∀ cursor, Text.IsBoundary line cursor →
        ∃ set, d.complete p cursor = .ok set ∧
          d.complete q (Text.byteSize front + cursor) = .ok (set.shift (Text.byteSize front)) ∧
          (set.list = [] → set = .empty ∧ set.shift (Text.byteSize front) = .empty)) := by
  have hbehind : (⟨front.toList, line.toList⟩ : Scanner) = (Scanner.ofString line).behind front.toList := by
    rw [Scanner.behind, Scanner.ofString, List.append_nil]
  refine ⟨_, Scanner.moveTo_append front line, ?_⟩
  intro p q
  have hq : q = p.behind front.toList := by
    show d.parseFrom _ source = _
    rw [hbehind]
    exact d.parseFrom_behind front.toList (Scanner.ofString line) source
  refine ⟨hq, fun hplain cursor hcursor => ?_⟩
  have htext : (Scanner.ofString line).text = line := String.ofList_toList
  have hinput : p.input = line := (d.input_parseFrom _ source).trans htext
  obtain ⟨slot, left, typed, right, hslot, hline, hleft, rfl⟩ :=
    d.exists_token_parseFrom (Scanner.ofString line) source (Nat.zero_le cursor) (htext.symm ▸ hcursor)
  rw [htext, ← hinput] at hline
  obtain ⟨set, hset, _⟩ := exists_complete_of_plain hplain hline hslot hleft.symm
  have hshift := complete_behind hplain hline hslot hleft.symm front
  rw [hset] at hshift
  have hmade : d.tree.OffersMade := by
    intro b hb provider hprovider
    rw [hplain b hb] at hprovider
    cases hprovider
  refine ⟨set, hset, hq ▸ hshift, fun hnil => ?_⟩
  obtain rfl := (isMade_of_complete hmade hset).normal.eq_empty hnil
  exact ⟨rfl, rfl⟩

/-- A command behind an accented word, four bytes further on than alone: its name is matched there, its argument
    fails there, and the argument is completed there. Where its name is complete nothing is offered. -/
theorem offsets_are_relative_accented :
    let d := ({} : Dispatcher Unit).registerAll
      [(Declaration.literal "tp").followedBy (.argument "to" (.position [("~", "~"), ("0", "x")]))]
    d.tree.Plain ∧ Text.IsBoundary "tp 5" 4 ∧ Text.IsBoundary "tp 5" 2 ∧
    ∃ s, (Scanner.ofString ("né/" ++ "tp 5")).moveTo (Text.byteSize "né/") = .ok s ∧
      let q := d.parseFrom s ()
      q.trail.steps = [⟨1, ⟨4, 6, by decide⟩⟩] ∧ q.scanner.remaining = "5" ∧
      q.errors.map (fun failure => (failure.1, failure.2.cursor?)) = [(2, some 7)] ∧
      d.complete q 8 = .ok ⟨⟨7, 8, by decide⟩, [⟨⟨7, 8, by decide⟩, "5 ~", none⟩]⟩ ∧
      d.complete q 6 = .ok .empty := by
  intro d
  have hplain : d.tree.Plain := by decide
  have hargument : Text.IsBoundary "tp 5" 4 := by decide
  have hname : Text.IsBoundary "tp 5" 2 := by decide
  obtain ⟨s, hs, hq, hcomplete⟩ := offsets_are_relative d "né/" "tp 5" ()
  obtain ⟨set, hset, hshift, _⟩ := hcomplete hplain 4 hargument
  obtain ⟨bare, hbare, hbareShift, _⟩ := hcomplete hplain 2 hname
  obtain rfl : (⟨⟨3, 4, by decide⟩, [⟨⟨3, 4, by decide⟩, "5 ~", none⟩]⟩ : Suggestions) = set :=
    Except.ok.inj (Eq.trans (by decide +kernel) hset)
  obtain rfl : Suggestions.empty = bare := Except.ok.inj (Eq.trans (by decide +kernel) hbare)
  refine ⟨hplain, hargument, hname, s, hs, ?_, ?_, ?_, hshift, hbareShift⟩
  · rw [hq]
    decide +kernel
  · rw [hq]
    decide +kernel
  · rw [hq]
    decide +kernel

end Dispatcher

end CommandGrammar
