import CommandGrammar.Console.Highlight
import CommandGrammar.Proofs.Access
import CommandGrammar.Proofs.Stray

/-!
# `Proofs.Colouring` — a coloured line shows the same text

A line is coloured by taking it apart at the ranges of what matched, and putting codes around some of the parts. The
parts are slices at offsets that were counted within the command, so that they can be cut at all, and make up the line
again, is a matter of what every way of reading leaves behind.

* `Screen.glyphs` — a text as a screen takes it, and from it `Screen.visible` and `Screen.codes`;
* `Highlight.Laid` — nodes that follow each other through a line, and `Tree.Traces.laid`: what was read is laid out so;
* `Highlight.Laid.exists_segments` — then the line can be taken apart, and the parts make it up again;
* `Segment.glyphs_join` — what a screen makes of the coloured parts, with `Segment.visible_join`, `Segment.codes_join`;
* `Console.highlight_keeps_line` — the coloured line shows the line, and each colour is switched off before the next.
-/

namespace CommandGrammar

variable {S : Type}

/-! ## Text on a screen -/

namespace Screen

/-- What a screen is given: a character to show, or a code to obey. -/
inductive Glyph where
  | shown (c : Char)
  | code (text : String)
deriving DecidableEq, Repr

/-- The character, if it is one to show. -/
def Glyph.shown? : Glyph → Option Char
  | shown c => some c
  | code _ => none

/-- The code, if it is one. -/
def Glyph.code? : Glyph → Option String
  | shown _ => none
  | code text => some text

/-- The character that starts a code. -/
def escape : Char := '\x1b'

/-- The character that ends a code. -/
def final : Char := 'm'

/-- A text as a screen takes it. Within a code, what was read of it so far comes first; a code without an end is
    nothing. -/
def glyphs : Option (List Char) → List Char → List Glyph
  | _, [] => []
  | none, c :: cs => if c = escape then glyphs (some [c]) cs else .shown c :: glyphs none cs
  | some code, c :: cs =>
    if c = final then .code (String.ofList (code ++ [c])) :: glyphs none cs else glyphs (some (code ++ [c])) cs

/-- **What a text shows**: its characters without the codes. -/
def visible (text : String) : String := String.ofList ((glyphs none text.toList).filterMap Glyph.shown?)

/-- **The codes in a text**, first one first. -/
def codes (text : String) : List String := (glyphs none text.toList).filterMap Glyph.code?

/-- A text is one whole code. -/
def IsCode (text : String) : Prop := ∃ body, text.toList = escape :: (body ++ [final]) ∧ final ∉ body

variable {cs rest : List Char}

/-- Characters that start no code are shown. -/
theorem glyphs_append (h : escape ∉ cs) : glyphs none (cs ++ rest) = cs.map .shown ++ glyphs none rest := by
  induction cs with
  | nil => rfl
  | cons c cs ih =>
    rw [List.mem_cons, not_or] at h
    rw [List.cons_append, glyphs, if_neg (Ne.symm h.1), ih h.2, List.map_cons, List.cons_append]

/-- A code ends at the first character that can end it. -/
theorem glyphs_inside (h : final ∉ cs) (code : List Char) :
    glyphs (some code) (cs ++ final :: rest) = .code (String.ofList (code ++ cs ++ [final])) :: glyphs none rest := by
  induction cs generalizing code with
  | nil => rw [List.nil_append, glyphs, if_pos rfl, List.append_nil]
  | cons c cs ih =>
    rw [List.mem_cons, not_or] at h
    rw [List.cons_append, glyphs, if_neg (Ne.symm h.1), ih h.2, List.append_assoc code, List.singleton_append]

theorem IsCode.glyphs_append {text : String} (h : IsCode text) :
    glyphs none (text.toList ++ rest) = .code text :: glyphs none rest := by
  obtain ⟨body, htext, hbody⟩ := h
  rw [htext, List.cons_append, List.append_assoc, glyphs, if_pos rfl, List.singleton_append, glyphs_inside hbody]
  rw [← String.ofList_toList (s := text), htext]
  rfl

end Screen

/-! ## Coloured parts on a screen -/

theorem Paint.isCode_code (paint : Paint) : Screen.IsCode paint.code := by
  cases paint with
  | literal => exact ⟨"[1;37".toList, by decide, by decide⟩
  | unparsed => exact ⟨"[31".toList, by decide, by decide⟩
  | argument index =>
    have hcycle : ∀ code ∈ cycle, Screen.IsCode code := by
      intro code hcode
      simp only [cycle, List.mem_cons, List.not_mem_nil, or_false] at hcode
      rcases hcode with rfl | rfl | rfl | rfl | rfl
      · exact ⟨"[36".toList, by decide, by decide⟩
      · exact ⟨"[33".toList, by decide, by decide⟩
      · exact ⟨"[32".toList, by decide, by decide⟩
      · exact ⟨"[35".toList, by decide, by decide⟩
      · exact ⟨"[34".toList, by decide, by decide⟩
    have hlt : index % cycle.length < cycle.length := Nat.mod_lt _ (by decide)
    rw [code, List.getElem?_eq_getElem hlt]
    exact hcycle _ (List.getElem_mem hlt)

theorem Paint.isCode_reset : Screen.IsCode reset := ⟨"[0".toList, by decide, by decide⟩

namespace Segment

/-- The text of parts, without colours. -/
def plain (segments : List Segment) : String := String.join (segments.map Segment.text)

/-- The colours of parts. -/
def paints (segments : List Segment) : List Paint := segments.filterMap Segment.paint

/-- What a screen is to make of a part: its text, between a colour and the code that switches it off. -/
def glyphs (s : Segment) : List Screen.Glyph :=
  match s.paint with
  | none => s.text.toList.map .shown
  | some paint => .code paint.code :: s.text.toList.map .shown ++ [.code Paint.reset]

theorem plain_cons (s : Segment) (segments : List Segment) : plain (s :: segments) = s.text ++ plain segments :=
  String.join_cons

theorem plain_append (front back : List Segment) : plain (front ++ back) = plain front ++ plain back := by
  rw [plain, List.map_append, String.join_append, plain, plain]

theorem plain_singleton (s : Segment) : plain [s] = s.text := by
  rw [plain_cons]
  exact String.append_empty

/-- A coloured part is shown as its text, and its codes come around it. -/
theorem glyphs_render {s : Segment} (h : Screen.escape ∉ s.text.toList) (rest : List Char) :
    Screen.glyphs none (s.render.toList ++ rest) = s.glyphs ++ Screen.glyphs none rest := by
  obtain ⟨_ | paint, text⟩ := s
  · exact Screen.glyphs_append h
  · show Screen.glyphs none ((paint.code ++ text ++ Paint.reset).toList ++ rest) = _
    rw [String.toList_append, String.toList_append, List.append_assoc, List.append_assoc,
      paint.isCode_code.glyphs_append, Screen.glyphs_append h, Paint.isCode_reset.glyphs_append]
    simp [glyphs]

/-- Coloured parts are taken one after the other. -/
theorem glyphs_join {segments : List Segment} (h : Screen.escape ∉ (plain segments).toList) :
    Screen.glyphs none (String.join (segments.map render)).toList = segments.flatMap glyphs := by
  induction segments with
  | nil => rfl
  | cons s segments ih =>
    rw [plain_cons, String.toList_append, List.mem_append, not_or] at h
    rw [List.map_cons, String.join_cons, String.toList_append, glyphs_render h.1, ih h.2, List.flatMap_cons]

theorem filterMap_shown?_glyphs (s : Segment) : s.glyphs.filterMap Screen.Glyph.shown? = s.text.toList := by
  have hshown : ∀ cs : List Char, (cs.map Screen.Glyph.shown).filterMap Screen.Glyph.shown? = cs := by
    intro cs
    rw [List.filterMap_map]
    exact List.filterMap_some
  obtain ⟨_ | paint, text⟩ := s
  · exact hshown text.toList
  · show (text.toList.map Screen.Glyph.shown ++ [Screen.Glyph.code Paint.reset]).filterMap Screen.Glyph.shown? = _
    rw [List.filterMap_append, hshown]
    exact List.append_nil _

theorem filterMap_code?_glyphs (s : Segment) :
    s.glyphs.filterMap Screen.Glyph.code? = s.paint.toList.flatMap fun paint => [paint.code, Paint.reset] := by
  have hshown : ∀ cs : List Char, (cs.map Screen.Glyph.shown).filterMap Screen.Glyph.code? = [] := by
    intro cs
    rw [List.filterMap_map]
    exact List.filterMap_eq_nil_iff.mpr fun c _ => rfl
  obtain ⟨_ | paint, text⟩ := s
  · exact hshown text.toList
  · show paint.code :: (text.toList.map Screen.Glyph.shown ++ [Screen.Glyph.code Paint.reset]).filterMap
      Screen.Glyph.code? = _
    rw [List.filterMap_append, hshown]
    rfl

/-- **Coloured parts show their text.** -/
theorem visible_join {segments : List Segment} (h : Screen.escape ∉ (plain segments).toList) :
    Screen.visible (String.join (segments.map render)) = plain segments := by
  rw [Screen.visible, glyphs_join h, List.filterMap_flatMap, ← String.toList_inj, String.toList_ofList, plain,
    String.toList_join, List.flatMap_map]
  exact congrArg (List.flatMap · segments) (funext filterMap_shown?_glyphs)

/-- **Each part's colour is switched off before the next one is switched on.** -/
theorem codes_join {segments : List Segment} (h : Screen.escape ∉ (plain segments).toList) :
    Screen.codes (String.join (segments.map render))
      = (paints segments).flatMap fun paint => [paint.code, Paint.reset] := by
  rw [Screen.codes, glyphs_join h, List.filterMap_flatMap, paints, List.filterMap_eq_flatMap_toList,
    List.flatMap_assoc]
  exact congrArg (List.flatMap · segments) (funext filterMap_code?_glyphs)

end Segment

namespace Highlight

variable {line : String} {shown : Option (List Segment)}

/-- A coloured line is its parts one after the other. A line that is not coloured is one part without a colour. -/
theorem render_eq_join (line : String) (shown : Option (List Segment)) :
    render line shown = String.join ((shown.getD [⟨none, line⟩]).map Segment.render) := by
  cases shown with
  | none =>
    show line = String.join [line]
    rw [String.join_cons]
    exact String.append_empty.symm
  | some parts => rfl

/-- A line is shown by the parts that make it up. -/
theorem shows_line (hplain : shown.elim line Segment.plain = line) (hescape : Screen.escape ∉ line.toList) :
    Screen.visible (render line shown) = line ∧
      Screen.codes (render line shown)
        = (shown.elim [] Segment.paints).flatMap fun paint => [paint.code, Paint.reset] := by
  have hparts : Segment.plain (shown.getD [⟨none, line⟩]) = line := by
    cases shown with
    | none => exact Segment.plain_singleton _
    | some parts => exact hplain
  have hpaints : Segment.paints (shown.getD [⟨none, line⟩]) = shown.elim [] Segment.paints := by
    cases shown <;> rfl
  rw [← hparts] at hescape
  rw [render_eq_join, ← hpaints]
  exact ⟨(Segment.visible_join hescape).trans hparts, Segment.codes_join hescape⟩

end Highlight

/-! ## Taking a line apart -/

/-- A later place in a line takes the rest of it apart. -/
theorem Text.IsBoundary.exists_split {front back : String} {n : Nat} (h : IsBoundary (front ++ back) n)
    (hle : byteSize front ≤ n) : ∃ m rest, m ++ rest = back ∧ byteSize (front ++ m) = n := by
  obtain ⟨a, rest, hline, rfl⟩ := h.exists_append
  obtain ⟨m, rfl⟩ := exists_append_of_byteSize_le hline.symm hle
  exact ⟨m, rest, by rwa [String.append_assoc, String.append_right_inj] at hline, rfl⟩

namespace Highlight

/-- Nodes of the tree that follow each other through a line, from `position` on: none of them starts before the end of
    the one before, and their ranges, counted from `offset` on, cut no character. -/
inductive Laid (tree : Tree S) (line : String) (offset : Nat) : (position : Nat) → List Step → Prop where
  | nil {position : Nat} : Laid tree line offset position []
  | cons {position : Nat} {step : Step} {steps : List Step} {node : Node S} (hnode : tree.node step.node = .ok node)
    (hle : position ≤ step.range.start + offset) (hstart : Text.IsBoundary line (step.range.start + offset))
    (hstop : Text.IsBoundary line (step.range.stop + offset))
    (hrest : Laid tree line offset (step.range.stop + offset) steps) : Laid tree line offset position (step :: steps)

variable {tree : Tree S} {line : String} {offset position : Nat} {steps : List Step}

/-- **The parts between and on the nodes make up the line**, from where they start to the end of the last one. -/
theorem Laid.exists_stepSegments (h : Laid tree line offset position steps) (index : Nat) {front back : String}
    (hline : front ++ back = line) (hposition : Text.byteSize front = position) :
    ∃ segments rest, stepSegments tree line offset position index steps
        = .ok (segments, Text.byteSize (front ++ Segment.plain segments)) ∧
      Segment.plain segments ++ rest = back := by
  induction h generalizing index front back with
  | nil =>
    refine ⟨[], back, ?_, String.empty_append⟩
    rw [← hposition, show Segment.plain [] = "" from rfl, String.append_empty]
    rfl
  | @cons position step steps node hnode hle hstart hstop _ ih =>
    subst hline hposition
    obtain ⟨gap, back, rfl, hgap⟩ := hstart.exists_split hle
    rw [← String.append_assoc] at hstop ih ⊢
    have hlt : Text.byteSize (front ++ gap) ≤ step.range.stop + offset := by
      rw [hgap]
      exact Nat.add_le_add_right step.range.start_le_stop offset
    obtain ⟨text, back, rfl, htext⟩ := hstop.exists_split hlt
    rw [← String.append_assoc] at ih ⊢
    obtain ⟨segments, rest, hsegments, hrest⟩ := ih (if node.isLiteral then index else index + 1) rfl htext
    refine ⟨⟨none, gap⟩ :: ⟨some (if node.isLiteral then .literal else .argument index), text⟩ :: segments, rest,
      ?_, ?_⟩
    · have hgapSlice : Fault.slice (front ++ gap ++ text ++ back) (Text.byteSize front) (step.range.start + offset)
          = .ok gap := by
        rw [← hgap, String.append_assoc]
        exact Fault.slice_append front gap (text ++ back)
      have htextSlice : Fault.slice (front ++ gap ++ text ++ back) (step.range.start + offset)
          (step.range.stop + offset) = .ok text := by
        rw [← hgap, ← htext]
        exact Fault.slice_append (front ++ gap) text back
      show (Fault.slice _ _ _).bind _ = _
      rw [hgapSlice]
      show (tree.node _).bind _ = _
      rw [hnode]
      show (Fault.slice _ _ _).bind _ = _
      rw [htextSlice]
      show (stepSegments _ _ _ _ _ _).bind _ = _
      rw [hsegments]
      simp only [Segment.plain_cons, ← String.append_assoc]
      rfl
    · rw [Segment.plain_cons, Segment.plain_cons, ← hrest, String.append_assoc, String.append_assoc]

/-- The parts behind the last node make up what stands there. -/
theorem plain_restSegments (rest : String) : Segment.plain (restSegments rest) = rest := by
  unfold restSegments
  split
  next blank unread hsplit =>
  have happend : blank ++ unread = rest.toList := by
    rw [← Text.splitBlank_append rest.toList, hsplit]
  split
  · exact Segment.plain_singleton _
  · rw [Segment.plain_cons, Segment.plain_singleton, ← String.ofList_append, happend, String.ofList_toList]

/-- **A line whose nodes are laid out can be taken apart**, and its parts make it up again. -/
theorem Laid.exists_segments {p : Parse S} {lead command : String}
    (h : Laid tree (lead ++ command) (Text.byteSize lead) (Text.byteSize lead) p.trail.steps) :
    ∃ shown, segments tree (lead ++ command) (Text.byteSize lead) p = .ok shown ∧
      shown.elim (lead ++ command) Segment.plain = lead ++ command := by
  obtain ⟨parts, rest, hparts, rfl⟩ := h.exists_stepSegments 0 rfl rfl
  have hsegments : segments tree (lead ++ (Segment.plain parts ++ rest)) (Text.byteSize lead) p
      = if p.trail.steps.isEmpty && Text.allBlank (Segment.plain parts ++ rest) then .ok none
        else .ok (some (⟨none, lead⟩ :: parts ++ restSegments rest)) := by
    show (Fault.after _ _).bind _ = _
    rw [Fault.after_append]
    show (if _ then _ else (Fault.before _ _).bind _) = _
    rw [Fault.before_append]
    show (if _ then _ else (stepSegments _ _ _ _ _ _).bind _) = _
    rw [hparts]
    show (if _ then _ else (Fault.after _ _).bind _) = _
    rw [← String.append_assoc, Fault.after_append]
    rfl
  rw [hsegments]
  split
  · exact ⟨none, rfl, rfl⟩
  · refine ⟨_, rfl, ?_⟩
    show Segment.plain (⟨none, lead⟩ :: (parts ++ restSegments rest)) = _
    rw [Segment.plain_cons, Segment.plain_append, plain_restSegments]

end Highlight

/-! ## What was read -/

/-- A place in a command is a place in the line, behind the text in front of the command. -/
theorem Text.IsBoundary.behind {command : String} {n : Nat} (h : IsBoundary command n) (lead : String) :
    IsBoundary (lead ++ command) (n + byteSize lead) := by
  obtain ⟨a, rest, rfl, rfl⟩ := h.exists_append
  rw [← String.append_assoc, Nat.add_comm, ← byteSize_append]
  exact isBoundary_append (lead ++ a) rest

namespace Tree

variable {t : Tree S} {command : String} {trail : Trail S (Handler S)}

/-- The nodes of a trail are nodes of the tree. -/
theorem Traces.exists_node {text : String} {start : Nat} (h : t.Traces text start trail) {step : Step}
    (hstep : step ∈ trail.steps) : ∃ node, t.node step.node = .ok node := by
  obtain ⟨parent, _, b, hchild⟩ := exists_parent_of_mem_path h.path (List.mem_map_of_mem hstep)
  exact ⟨.branch b, node_of_branch? (branch?_of_mem_children hchild)⟩

/-- Steps that follow each other through a command follow each other through the line. -/
theorem laid_of_isChain (lead : String) {position : Nat} {steps : List Step}
    (hnode : ∀ step ∈ steps, ∃ node, t.node step.node = .ok node) (hwithin : ∀ step ∈ steps, step.range.Within command)
    (hchain : steps.IsChain fun a b => b.range.start = a.range.stop + 1)
    (hfirst : ∀ first ∈ steps.head?, position ≤ first.range.start + Text.byteSize lead) :
    Highlight.Laid t (lead ++ command) (Text.byteSize lead) position steps := by
  induction steps generalizing position with
  | nil => exact .nil
  | cons step steps ih =>
    obtain ⟨⟨node, hstep⟩, hnodes⟩ := List.forall_mem_cons.mp hnode
    obtain ⟨⟨hstart, hstop⟩, hwithins⟩ := List.forall_mem_cons.mp hwithin
    obtain ⟨hnext, hrest⟩ := List.isChain_cons.mp hchain
    refine .cons hstep (hfirst step rfl) (hstart.behind lead) (hstop.behind lead) (ih hnodes hwithins hrest ?_)
    intro next hmem
    rw [hnext next hmem]
    omega

/-- **What was read is laid out.** -/
theorem Traces.laid (h : t.Traces command 0 trail) (lead : String) :
    Highlight.Laid t (lead ++ command) (Text.byteSize lead) (Text.byteSize lead) trail.steps := by
  refine laid_of_isChain lead (fun step hstep => h.exists_node hstep) h.bounds h.adjoining ?_
  intro first hfirst
  omega

end Tree

/-- **A coloured line shows the line.** For every grammar, source, line and place of it the line is coloured without
    a fault, and the texts of its parts make it up. If no code stands in the line itself, then the coloured line shows
    it, and its codes are a colour and the code that switches it off in turn. -/
theorem Console.highlight_keeps_line (c : Console S) (source : S) {line : String} {offset : Nat}
    (hoffset : Text.IsBoundary line offset) :
    ∃ shown, c.highlight line offset source = .ok shown ∧ shown.elim line Segment.plain = line ∧
      (Screen.escape ∉ line.toList → Screen.visible (Highlight.render line shown) = line ∧
        Screen.codes (Highlight.render line shown)
          = (shown.elim [] Segment.paints).flatMap fun paint => [paint.code, Paint.reset]) := by
  obtain ⟨lead, command, rfl, rfl⟩ := hoffset.exists_append
  have htraces : c.dispatcher.tree.Traces command 0 (c.dispatcher.parse command source).trail := by
    have h := (c.dispatcher.outcome_parseFrom (.ofString command) source).traces
      (c.dispatcher.tree.stands_start (.ofString command) source)
    rwa [Scanner.text_ofString] at h
  obtain ⟨shown, hshown, hplain⟩ := (htraces.laid lead).exists_segments
  refine ⟨shown, ?_, hplain, fun hescape => ?_⟩
  · show (Fault.after _ _).bind _ = _
    rw [Fault.after_append]
    exact hshown
  · exact Highlight.shows_line hplain hescape

-- A word, a number and something that is no second number, behind a lead mark.
example :
    let d := ({} : Dispatcher Unit).registerAll [(Declaration.literal "né").followedBy
      (.argument "n" (.int (Bounds.signed 32)))]
    (Console.highlight ⟨d, {}⟩ "/né 7 x" 1 ()).toOption.map (Highlight.render "/né 7 x")
      = some "/\x1b[1;37mné\x1b[0m \x1b[36m7\x1b[0m \x1b[31mx\x1b[0m" := by
  decide +kernel

/-- The place behind the lead mark is one, and no code stands in the line. -/
theorem Console.highlight_keeps_line_accented :
    let d := ({} : Dispatcher Unit).registerAll [(Declaration.literal "né").followedBy
      (.argument "n" (.int (Bounds.signed 32)))]
    let c : Console Unit := ⟨d, {}⟩
    Text.IsBoundary "/né 7 x" 1 ∧ Screen.escape ∉ "/né 7 x".toList ∧
      ∃ shown, c.highlight "/né 7 x" 1 () = .ok shown ∧ shown.elim "/né 7 x" Segment.plain = "/né 7 x" ∧
        Screen.visible (Highlight.render "/né 7 x" shown) = "/né 7 x" ∧
          Screen.codes (Highlight.render "/né 7 x" shown)
            = (shown.elim [] Segment.paints).flatMap fun paint => [paint.code, Paint.reset] := by
  intro d c
  have hoffset : Text.IsBoundary "/né 7 x" 1 := by decide
  have hescape : Screen.escape ∉ "/né 7 x".toList := by decide
  obtain ⟨shown, hshown, hplain, hcodes⟩ := c.highlight_keeps_line () hoffset
  exact ⟨hoffset, hescape, shown, hshown, hplain, hcodes hescape⟩

end CommandGrammar
