import CommandGrammar.Console.Basic
import CommandGrammar.Proofs.Recipe

/-!
# `Proofs.Splice` — putting completions into a line

A console completes the command within a line. Its suggestions speak of offsets into the command, and an editor puts
them into the line: it keeps the line up to where the completion starts, puts in the text, and goes on behind the
cursor. That this leads to the line that the suggestion means rests on two facts.

* Every suggestion stops at the cursor: all that the children contribute does (`Dispatcher.exists_contribution`), and
  merging keeps to it (`Dispatcher.exists_complete_upTo`).
* The lead mark moves all offsets alike (`Console.lead_append_command`, `Console.exists_cursor`).
-/

namespace CommandGrammar

variable {S : Type}

/-! ## Completing a command -/

namespace Dispatcher

open Builder (token)

/-- What a child contributes stops where the token does. -/
theorem exists_contribution {d : Dispatcher S} (hbuilds : d.tree.OnlyBuilds) (context : Context S)
    (left typed : String) {child : Branch S × NodeId} {node : NodeId} (hchild : child ∈ d.tree.children node) :
    ∃ set, d.contribution context (token left typed) child.1 = .ok set ∧
      set.UpTo (left ++ typed) (Text.byteSize (left ++ typed)) := by
  have hready := Builder.ready_token left typed
  cases hprovider : child.1.label.provider? with
  | none =>
    -- A label's own texts are offered one after the other.
    obtain ⟨b, hsuggest, hready'⟩ := hready.exists_suggestAll (child.1.label.texts typed)
    obtain ⟨set, hset, hupTo⟩ := hready'.exists_build
    have hown : child.1.label.own (token left typed) = .ok set := by
      rw [Label.own_token, hsuggest]
      exact hset
    refine ⟨set, ?_, hupTo⟩
    rw [contribution, Label.suggest_of_plain hprovider, hown]
    rfl
  | some provider =>
    have hanswers : Recipe.Answers (token left typed) (provider context (token left typed)) :=
      hbuilds child.1 (Tree.mem_branches_of_mem_children hchild) provider hprovider context _
    rw [contribution, Label.suggest_of_provider hprovider]
    rcases hanswers.error_or_upTo hready with ⟨e, herror⟩ | ⟨set, hset, hupTo⟩
    · rw [herror]
      exact ⟨.empty, rfl, Suggestions.upTo_empty _ _⟩
    · rw [hset]
      exact ⟨set, rfl, hupTo⟩

/-- **Completing succeeds, and all suggestions stop at the cursor.** -/
theorem exists_complete_upTo {d : Dispatcher S} (hbuilds : d.tree.OnlyBuilds) (s : Scanner) (source : S)
    {cursor : Nat} (hstart : s.cursor ≤ cursor) (hcursor : Text.IsBoundary s.text cursor) :
    ∃ set, d.complete (d.parseFrom s source) cursor = .ok set ∧ set.UpTo s.text cursor := by
  have hinput : (d.parseFrom s source).input = s.text := d.input_parseFrom s source
  obtain ⟨slot, left, typed, right, hslot, htext, hleft, hsize⟩ :=
    d.exists_token_parseFrom s source hstart hcursor
  rw [← hsize] at hslot ⊢
  have hcomplete := d.complete_of_token (htext.trans hinput.symm) hslot hleft.symm
  let context : Context S := (d.parseFrom s source).trail.build (left ++ typed)
  have heach : ∀ child ∈ d.tree.children slot.parent, ∃ set,
      d.contribution context (token left typed) child.1 = .ok set := by
    intro child hchild
    obtain ⟨set, hset, _⟩ := exists_contribution hbuilds context left typed hchild
    exact ⟨set, hset⟩
  obtain ⟨sets, hsets⟩ := exists_mapM_eq_ok heach
  -- The contributions are made over the part in front of the cursor, but merged over the whole text.
  have hupTo : ∀ set ∈ sets, set.UpTo s.text (Text.byteSize (left ++ typed)) := by
    intro set hset
    obtain ⟨child, hchild, hcontribution⟩ := (mem_of_mapM_eq_ok hsets).mp hset
    obtain ⟨set', hset', hupTo⟩ := exists_contribution hbuilds context left typed hchild
    rw [hcontribution] at hset'
    obtain rfl := Except.ok.inj hset'
    rw [← htext]
    exact hupTo.append right
  obtain ⟨merged, hmerged, hmergedUpTo⟩ := Suggestions.exists_merge_upTo hupTo
  refine ⟨merged, ?_, hmergedUpTo⟩
  rw [hcomplete, hsets, hinput]
  exact hmerged

end Dispatcher

/-! ## The command within a line -/

namespace Console

/-- What stands in front of the command: the lead mark, if the line starts with it. -/
def front (c : Console S) (line : String) : String := if c.hasLead line then c.settings.lead else ""

theorem byteSize_front (c : Console S) (line : String) : Text.byteSize (c.front line) = c.offset line := by
  unfold front offset
  split <;> rfl

/-- A line is what stands in front of the command and the command. -/
theorem front_append_command (c : Console S) (line : String) : c.front line ++ c.command line = line := by
  unfold front command
  split
  · next hlead =>
    obtain ⟨rest, hrest⟩ := List.isPrefixOf_iff_prefix.mp hlead
    rw [← hrest, List.drop_left, ← String.toList_inj, String.toList_append, String.toList_ofList, hrest]
  · exact String.empty_append

theorem before_offset (c : Console S) (line : String) : Fault.before line (c.offset line) = .ok (c.front line) := by
  have h := Fault.before_append (c.front line) (c.command line)
  rwa [front_append_command, byteSize_front] at h

theorem after_offset (c : Console S) (line : String) : Fault.after line (c.offset line) = .ok (c.command line) := by
  have h := Fault.after_append (c.front line) (c.command line)
  rwa [front_append_command, byteSize_front] at h

/-- A cursor behind the lead mark is a cursor in the command. -/
theorem exists_cursor (c : Console S) {line : String} {cursor : Nat} (hcursor : Text.IsBoundary line cursor)
    (hle : c.offset line ≤ cursor) : Text.IsBoundary (c.command line) (cursor - c.offset line) := by
  have hline := c.front_append_command line
  have hfront := c.byteSize_front line
  obtain ⟨before, right, hbefore, rfl⟩ := hcursor.exists_append
  obtain ⟨typed, rfl⟩ :=
    Text.exists_append_of_byteSize_le (hline.trans hbefore.symm) (hfront.symm ▸ hle)
  have hcommand : c.command line = typed ++ right := by
    have heq := hline.trans hbefore.symm
    rwa [String.append_assoc, String.append_right_inj] at heq
  rw [hcommand, Text.byteSize_append, hfront, Nat.add_sub_cancel_left]
  exact Text.isBoundary_append typed right

/-- The same offer within the command and within the line: what is kept in front of the text, in a line with the text
    put in, is what stands in front of the command and what is kept of the command. -/
theorem exists_splice (front : String) {command : String} {s : Suggestion} (hwithin : s.range.Within command) :
    ∃ left right applied, Fault.before (front ++ command) (s.range.start + Text.byteSize front) = .ok left ∧
      Fault.after (front ++ command) (s.range.stop + Text.byteSize front) = .ok right ∧
      s.apply command = .ok applied ∧ left ++ s.text ++ right = front ++ applied := by
  obtain ⟨a, m, e, rfl, ha, ham⟩ := hwithin.1.exists_between hwithin.2 s.range.start_le_stop
  have hleft : Fault.before (a ++ m ++ e) s.range.start = .ok a := by
    rw [← ha, String.append_assoc]
    exact Fault.before_append a _
  have hright : Fault.after (a ++ m ++ e) s.range.stop = .ok e := by
    rw [← ham]
    exact Fault.after_append (a ++ m) e
  refine ⟨front ++ a, e, a ++ s.text ++ e, ?_, ?_, Suggestion.apply_of_sides hleft hright, ?_⟩
  · rw [← ha, Nat.add_comm, ← Text.byteSize_append, String.append_assoc, ← String.append_assoc]
    exact Fault.before_append (front ++ a) _
  · rw [← ham, Nat.add_comm, ← Text.byteSize_append, ← String.append_assoc]
    exact Fault.after_append (front ++ (a ++ m)) e
  · simp only [String.append_assoc]

/-- Completing the command at the cursor succeeds, and all suggestions stop at the cursor. -/
theorem exists_complete_upTo (c : Console S) (hbuilds : c.dispatcher.tree.OnlyBuilds) {line : String} (source : S)
    {cursor : Nat} (hcursor : Text.IsBoundary line cursor) (hle : c.offset line ≤ cursor) :
    ∃ set, c.dispatcher.complete (c.parse line source) (cursor - c.offset line) = .ok set ∧
      set.UpTo (c.command line) (cursor - c.offset line) := by
  have htext : (Scanner.ofString (c.command line)).text = c.command line := String.ofList_toList
  have hcommand := c.exists_cursor hcursor hle
  rw [← htext] at hcommand ⊢
  exact c.dispatcher.exists_complete_upTo hbuilds _ source (Nat.zero_le _) hcommand

/-- Within the lead mark there is nothing to complete. -/
theorem complete_of_lt {c : Console S} {line : String} {cursor : Nat} (h : cursor < c.offset line) (source : S) :
    c.complete line cursor source = .ok ⟨cursor, .empty⟩ := by
  rw [complete]
  exact if_pos h

/-- Behind it the dispatcher's set is handed on, with the place where it starts in the line. -/
theorem complete_of_upTo {c : Console S} {line : String} {cursor : Nat} {source : S} {set : Suggestions} {stop : Nat}
    (hle : c.offset line ≤ cursor)
    (hset : c.dispatcher.complete (c.parse line source) (cursor - c.offset line) = .ok set)
    (hupTo : set.UpTo (c.command line) stop) :
    c.complete line cursor source
      = .ok ⟨if set.isEmpty then cursor else set.range.start + c.offset line, set⟩ := by
  have hfits : set.range.start ≤ Text.byteSize (c.command line) :=
    ((Text.isBoundary_left_iff (b := "")).mp hupTo.within.1).2
  unfold complete
  dsimp only
  rw [if_neg (Nat.not_lt.mpr hle), hset]
  show (if set.isEmpty then _ else _) = _
  split
  · rfl
  · rw [startOf, if_pos hfits]
    rfl

/-- A suggestion of a set that stops at the cursor can be put into the line from where the set starts. -/
theorem exists_splice_of_upTo (c : Console S) {line right : String} {cursor : Nat} (hle : c.offset line ≤ cursor)
    (hright : Fault.after line cursor = .ok right) {set : Suggestions}
    (hupTo : set.UpTo (c.command line) (cursor - c.offset line)) {s : Suggestion} (hs : s ∈ set.list) :
    s.range.stop + c.offset line = cursor ∧ ∃ left applied,
      Fault.before line (set.range.start + c.offset line) = .ok left ∧ s.apply (c.command line) = .ok applied ∧
        left ++ s.text ++ right = c.front line ++ applied := by
  have hanchored : s.range = set.range := hupTo.made.normal.anchored s hs
  have hstop : s.range.stop + c.offset line = cursor := by
    rw [hupTo.stop_eq s hs]
    omega
  obtain ⟨left, right', applied, hleft, hright', happly, hsplice⟩ :=
    exists_splice (c.front line) (hanchored ▸ hupTo.within)
  rw [front_append_command, byteSize_front] at hleft hright'
  rw [hanchored] at hleft
  rw [hstop, hright] at hright'
  obtain rfl := Except.ok.inj hright'
  exact ⟨hstop, left, applied, hleft, happly, hsplice⟩

/-- **What a completion leads to is what its suggestions mean.** For every console, line, source and cursor between two
    characters, over a grammar whose providers only build, completing succeeds and starts no later than the cursor.
    Each suggestion starts behind the lead mark and stops at the cursor; and when an editor keeps the line up to where
    the completion starts, puts in the text and goes on behind the cursor, the line is the lead mark followed by the
    command with the suggestion put in. -/
theorem completions_splice (c : Console S) (hbuilds : c.dispatcher.tree.OnlyBuilds) (line : String) (source : S)
    (cursor : Nat) (hcursor : Text.IsBoundary line cursor) :
    ∃ completion front command right, c.complete line cursor source = .ok completion ∧
      Fault.before line (c.offset line) = .ok front ∧ Fault.after line (c.offset line) = .ok command ∧
      Fault.after line cursor = .ok right ∧ completion.start ≤ cursor ∧
      ∀ s ∈ completion.suggestions.list,
        c.offset line ≤ completion.start ∧ s.range.stop + c.offset line = cursor ∧
        ∃ left applied, Fault.before line completion.start = .ok left ∧ s.apply command = .ok applied ∧
          left ++ s.text ++ right = front ++ applied := by
  have hright : ∃ right, Fault.after line cursor = .ok right := by
    obtain ⟨front, right, rfl, rfl⟩ := hcursor.exists_append
    exact ⟨right, Fault.after_append front right⟩
  obtain ⟨right, hright⟩ := hright
  by_cases hlt : cursor < c.offset line
  · exact ⟨_, _, _, right, complete_of_lt hlt source, c.before_offset line, c.after_offset line, hright,
      Nat.le_refl _, by simp [Suggestions.empty]⟩
  · have hle : c.offset line ≤ cursor := Nat.le_of_not_lt hlt
    obtain ⟨set, hset, hupTo⟩ := c.exists_complete_upTo hbuilds source hcursor hle
    have hcomplete := complete_of_upTo hle hset hupTo
    by_cases hempty : set.isEmpty
    · rw [if_pos hempty] at hcomplete
      have hnil : set.list = [] := List.isEmpty_iff.mp hempty
      exact ⟨_, _, _, right, hcomplete, c.before_offset line, c.after_offset line, hright, Nat.le_refl _,
        by simp [hnil]⟩
    · rw [if_neg hempty] at hcomplete
      refine ⟨_, _, _, right, hcomplete, c.before_offset line, c.after_offset line, hright, ?_, ?_⟩
      · -- The set has an entry, which starts where the set does and stops at the cursor.
        obtain ⟨s, hs⟩ := List.exists_mem_of_ne_nil set.list (by simpa [Suggestions.isEmpty] using hempty)
        obtain ⟨hstop, _⟩ := c.exists_splice_of_upTo hle hright hupTo hs
        have hordered := s.range.start_le_stop
        rw [hupTo.made.normal.anchored s hs] at hstop hordered
        show set.range.start + c.offset line ≤ cursor
        omega
      · intro s hs
        exact ⟨Nat.le_add_left _ _, c.exists_splice_of_upTo hle hright hupTo hs⟩

/-- Behind a lead mark of two bytes, with the cursor in a word: one provider speaks of the word and of the whole
    command, one offers what continues the word, and one reports an error. All offers are stated for the whole command,
    and put in where the command starts. -/
theorem completions_splice_wider :
    let both : Provider Unit := fun _ b =>
      ((Recipe.run b (.add (.suggest .given "là" (some "here")) (.suggest (.offset .given 0) "tout" none))).bind
        Builder.build).mapError .fault
    let matching : Provider Unit := fun _ b =>
      ((Recipe.run b .given).bind (·.suggestMatching ["lent", "haut"])).mapError .fault
    let broken : Provider Unit := fun _ _ => .error (.error ⟨.unknownCommand, none⟩)
    let c : Console Unit :=
      { dispatcher := ({} : Dispatcher Unit).registerAll
          [(((Declaration.literal "né").followedBy ((Declaration.argument "to" .word).offers both)).followedBy
            ((Declaration.argument "how" .word).offers matching)).followedBy
              ((Declaration.argument "if" .word).offers broken)]
        settings := { lead := "»" } }
    c.dispatcher.tree.OnlyBuilds ∧ Text.IsBoundary "»né lx" 7 ∧
      ∃ completion, c.complete "»né lx" 7 () = .ok completion ∧ completion.start = 2 ∧
        completion.suggestions.list.map Suggestion.text = ["né lent", "né là", "tout"] ∧
        ∀ s ∈ completion.suggestions.list, ∃ applied, s.apply "né lx" = .ok applied ∧
          "»" ++ s.text ++ "x" = "»" ++ applied := by
  intro both matching broken c
  have hbuilds : c.dispatcher.tree.OnlyBuilds := by
    have hproviders : c.dispatcher.tree.branches.map (·.label.provider?)
        = [none, some both, some matching, some broken] := rfl
    intro b hb provider hprovider
    have hmem : some provider ∈ [none, some both, some matching, some broken] := by
      rw [← hproviders, ← hprovider]
      exact List.mem_map_of_mem hb
    have hzero : ∀ line, Text.IsBoundary line 0 := fun line => ⟨[], line.toList, rfl, rfl⟩
    simp only [List.mem_cons, Option.some.injEq, List.not_mem_nil, or_false, reduceCtorEq, false_or] at hmem
    rcases hmem with rfl | rfl | rfl
    · exact fun _ b => .build ⟨trivial, trivial, hzero b.input⟩
    · exact fun _ b => .matching (show Recipe.given.Sound b.input from trivial) _
    · exact fun _ b => .error _
  have hcursor : Text.IsBoundary "»né lx" 7 := by decide
  obtain ⟨completion, front, command, right, hcomplete, hfront, hcommand, hright, _, hsplice⟩ :=
    c.completions_splice hbuilds "»né lx" () 7 hcursor
  have hanswer : (c.complete "»né lx" 7 ()).map (fun completion =>
      (completion.start, completion.suggestions.list.map Suggestion.text))
        = .ok (2, ["né lent", "né là", "tout"]) := by
    decide +kernel
  rw [hcomplete] at hanswer
  obtain ⟨hstart, htexts⟩ := Prod.mk.inj (Except.ok.inj hanswer)
  obtain rfl : "»" = front := Except.ok.inj ((show _ = Except.ok "»" by decide +kernel).symm.trans hfront)
  obtain rfl : "né lx" = command := Except.ok.inj ((show _ = Except.ok "né lx" by decide +kernel).symm.trans hcommand)
  obtain rfl : "x" = right := Except.ok.inj ((show _ = Except.ok "x" by decide +kernel).symm.trans hright)
  refine ⟨hbuilds, hcursor, completion, hcomplete, hstart, htexts, ?_⟩
  intro s hs
  obtain ⟨_, _, left, applied, hleft, happly, heq⟩ := hsplice s hs
  rw [hstart] at hleft
  obtain rfl : "»" = left := Except.ok.inj ((show _ = Except.ok "»" by decide +kernel).symm.trans hleft)
  exact ⟨applied, happly, heq⟩

end Console

end CommandGrammar
