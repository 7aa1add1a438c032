import CommandGrammar.Proofs.Behind
import CommandGrammar.Proofs.Ending
import CommandGrammar.Proofs.Quoting
import CommandGrammar.Proofs.Shape
import Mathlib.Data.List.TakeWhile

/-!
# `Proofs.Selection` — selecting a word by the token is trying all words

Whether a word stands next in a line is decided twice, in two ways. The candidates below a node are selected by the
token, the text up to the next separator, which has to be the name of a word. Matching a word asks instead whether the
rest of the line starts with its name and a break follows. The two agree on names without a separator, and a word whose
name holds one is never selected.

* `Scanner.matches_iff_eq_token` — the two ways of deciding, on lists of characters;
* `Label.read_literal_iff`, `Label.read_literal_of_ne_token` — matching a word, told by the token;
* `Tree.candidates_cases` — either one word is a candidate, and it is the token, or all arguments are, and no word is;
* `Tree.Reachable.mem_candidates_iff` — so a word is a candidate exactly when matching it would succeed;
* `Error.Kind.ofArgument`, `ArgumentType.argues_read` — the kinds of errors that reading an argument of the library's own
  types ends with; a type that the author of the grammar brought along may end with any;
* `Dispatcher.selection_agrees_with_matching` — both views together, and what that means for the recorded errors;
* `CustomType.someWord`, `Dispatcher.selection_disagrees_with_matching` — why names with a separator and types of the
  author's own are left out of it.
-/

namespace CommandGrammar

variable {S H : Type}

/-! ## The token -/

namespace Scanner

/-- **A name without a separator starts the rest of the line, with a break behind it, exactly when it is the token.** -/
theorem matches_iff_eq_token {name : List Char} (hname : separator ∉ name) (s : Scanner) :
    (name.isPrefixOf s.rest && (s.advance name.length).atBreak) = true ↔ name = s.token := by
  constructor
  · intro hmatch
    obtain ⟨hfront, hbreak⟩ := Bool.and_eq_true_iff.mp hmatch
    obtain ⟨behind, hrest⟩ := List.isPrefixOf_iff_prefix.mp hfront
    -- What stands behind the name starts with a separator, so the token ends with the name.
    have hinside : ∀ c ∈ name, decide (c ≠ separator) = true := by
      intro c hc
      rw [decide_eq_true_eq]
      rintro rfl
      exact hname hc
    have hbehind : ∀ c ∈ behind.head?, decide (c ≠ separator) = false := by
      intro c hc
      have hall : behind.head?.all (· == separator) = true := by
        simpa [atBreak, advance, ← hrest] using hbreak
      rw [hc] at hall
      simpa using hall
    rw [token, ← hrest, (skipWhile_append hinside hbehind []).2]
  · rintro rfl
    exact s.matches_token

end Scanner

/-! ## Matching a word -/

namespace Label

variable {name : String} {s : Scanner} {id : NodeId} {trail : Trail S H}

/-- A word without a separator that is not the token does not match. -/
theorem read_literal_of_ne_token (hname : Scanner.separator ∉ name.toList) (h : name.toList ≠ s.token) :
    (literal name : Label S).read id s trail = .error (s.error (.literalExpected name)) s :=
  if_neg fun hmatch => h ((s.matches_iff_eq_token hname).mp hmatch)

/-- **A word without a separator matches exactly when it is the token.** -/
theorem read_literal_iff (hname : Scanner.separator ∉ name.toList) :
    (∃ trail' u, (literal name : Label S).read id s trail = .ok trail' u) ↔ name.toList = s.token := by
  constructor
  · rintro ⟨trail', u, hread⟩
    by_contra hne
    rw [read_literal_of_ne_token hname hne] at hread
    cases hread
  · intro htoken
    obtain ⟨trail', hread⟩ := read_of_token htoken id trail
    exact ⟨trail', _, hread⟩

end Label

/-! ## Candidates -/

namespace Tree

variable {t : Tree S} {node : NodeId} {s : Scanner}

/-- **Either one word is the only candidate, and it is the token, or all arguments are, and no word is the token.** -/
theorem candidates_cases (t : Tree S) (node : NodeId) (s : Scanner) :
    (∃ c name, t.candidates node s = [c] ∧ c ∈ t.children node ∧ c.1.label = .literal name ∧ name.toList = s.token) ∨
      t.candidates node s = t.arguments node ∧
        ∀ c ∈ t.children node, ∀ name, c.1.label = .literal name → name.toList ≠ s.token := by
  rw [candidates_eq_literal?]
  cases hfind : t.literal? node (String.ofList s.token) with
  | some c =>
    have hfound := List.find?_some hfind
    rw [Bool.and_eq_true, beq_iff_eq] at hfound
    exact .inl ⟨c, _, rfl, List.mem_of_find?_eq_some hfind, Label.eq_literal_iff.mpr hfound, String.toList_ofList⟩
  | none =>
    refine .inr ⟨rfl, fun c hc name hlabel htoken => ?_⟩
    have hnot := List.find?_eq_none.mp hfind c hc
    simp [hlabel, Label.isLiteral, Label.name, ← htoken] at hnot

/-- **Selecting loses no word and adds none**: below a node of a tree that was built up, a word without a separator is
    a candidate exactly when matching it succeeds. -/
theorem Reachable.mem_candidates_iff (h : t.Reachable) {c : Branch S × NodeId} (hc : c ∈ t.children node)
    {name : String} (hlabel : c.1.label = .literal name) (hname : Scanner.separator ∉ name.toList)
    (trail : Trail S H) :
    c ∈ t.candidates node s ↔ ∃ trail' u, (Node.branch c.1).read c.2 s trail = .ok trail' u := by
  rw [Node.read, hlabel, Label.read_literal_iff hname]
  rcases t.candidates_cases node s with ⟨c', name', hcandidates, hc', hlabel', htoken⟩ | ⟨hcandidates, hnone⟩
  · rw [hcandidates, List.mem_singleton]
    constructor
    · rintro rfl
      obtain rfl : name' = name := Label.literal.inj (hlabel'.symm.trans hlabel)
      exact htoken
    · -- The name that is the token belongs to one child only.
      intro htoken'
      have hsame : name = name' := String.toList_inj.mp (htoken'.trans htoken.symm)
      exact h.eq_of_name_eq hc hc' (by rw [hlabel, hlabel', hsame])
  · rw [hcandidates]
    refine iff_of_false (fun hmem => ?_) (hnone c hc name hlabel)
    have hargument : c.1.label.isArgument := (List.mem_filter.mp hmem).2
    rw [hlabel] at hargument
    cases hargument

end Tree

/-! ## What arguments are refused for -/

/-- Whether reading an argument can end with an error of the kind. -/
def Error.Kind.ofArgument : Error.Kind → Bool
  | endOfQuoteExpected | invalidEscape _ | numberExpected _ | invalidNumber _ _ | boolExpected | invalidBool _
  | tooLow _ _ _ | tooHigh _ _ _ | incompleteArgument _ => true
  | _ => false

/-- The error of an outcome, if there is one, is of a kind that reading an argument can end with. -/
def Scanned.Argues {α : Type} : Scanned α → Prop
  | ok _ _ => True
  | error e _ => e.kind.ofArgument

section

variable {α β : Type} {r : Scanned α}

theorem Scanned.Argues.map (f : α → β) (h : r.Argues) : (r.map f).Argues := by
  cases r with
  | ok value u => trivial
  | error e u => exact h

namespace Scanner

theorem argues_readNumber (kind : NumberKind) (read? : List Char → Option α) (s : Scanner) :
    (s.readNumber kind read?).Argues := by
  unfold readNumber
  dsimp only
  split
  · rfl
  · split
    · trivial
    · rfl

theorem argues_readUntil (terminator : Char) (s : Scanner) : (s.readUntil terminator).Argues := by
  unfold readUntil
  split
  · trivial
  · rfl
  · rfl

theorem argues_readString (s : Scanner) : s.readString.Argues := by
  unfold readString
  split
  · trivial
  · split
    · exact argues_readUntil _ _
    · trivial

theorem argues_readBool (s : Scanner) : s.readBool.Argues := by
  have hstring := s.argues_readString
  unfold readBool
  split
  · next hread =>
    rw [hread] at hstring
    exact hstring
  · split
    · rfl
    · split
      · trivial
      · split
        · trivial
        · rfl

end Scanner

theorem Bounds.argues_read [LT α] [DecidableLT α] (bounds : Bounds α) (kind : NumberKind) (render : α → String)
    (read? : List Char → Option α) (s : Scanner) : (bounds.read kind render read? s).Argues := by
  have hnumber := s.argues_readNumber kind read?
  unfold Bounds.read
  cases hread : s.readNumber kind read? with
  | error e t =>
    rw [hread] at hnumber
    exact hnumber
  | ok value t =>
    unfold Bounds.check
    dsimp only
    split
    · rfl
    · split
      · rfl
      · trivial

theorem Coordinate.argues_read (s : Scanner) : (Coordinate.read s).Argues := by
  unfold Coordinate.read
  split
  · rfl
  · dsimp only
    generalize (if s.nextIs mark then s.skip else s) = t
    have hnumber : t.readDouble.Argues := t.argues_readNumber _ _
    split
    · trivial
    · split
      · trivial
      · next hread =>
        rw [hread] at hnumber
        exact hnumber

theorem Position.argues_read (s : Scanner) : (Position.read s).Argues := by
  have hfirst := Coordinate.argues_read s
  unfold Position.read
  split
  · next hread =>
    rw [hread] at hfirst
    exact hfirst
  · next t _ =>
    have hsecond := Coordinate.argues_read t.skip
    split
    · split
      · trivial
      · next hread =>
        rw [hread] at hsecond
        exact hsecond
    · rfl

/-- **Whatever an argument of the library's own types is refused for, it is not a word that is missing.** -/
theorem ArgumentType.argues_read (type : ArgumentType) (s : Scanner) :
    (type.read s).Argues ∨ ∃ custom, type = .custom custom := by
  cases type with
  | bool => exact .inl (s.argues_readBool.map _)
  | int bounds => exact .inl ((bounds.argues_read _ _ _ s).map _)
  | long bounds => exact .inl ((bounds.argues_read _ _ _ s).map _)
  | double bounds => exact .inl ((bounds.argues_read _ _ _ s).map _)
  | single bounds => exact .inl ((bounds.argues_read _ _ _ s).map _)
  | word => exact .inl trivial
  | string => exact .inl (s.argues_readString.map _)
  | greedy => exact .inl trivial
  | position candidates => exact .inl ((Position.argues_read s).map _)
  | custom type => exact .inr ⟨type, rfl⟩

end

/-- What an argument fails with is of a kind that the library's own types fail with, or says that a separator is
    missing, or is what a type of the author's own refused with. -/
theorem ArgumentType.Fails.kind {type : ArgumentType} {s : Scanner} {e : Error} (h : type.Fails s e) :
    e.kind.ofArgument ∨ e.kind = .separatorExpected ∨
      ∃ custom u, type = .custom custom ∧ custom.read s = .error e u := by
  rcases h with ⟨u, hread⟩ | ⟨_, u, _, _, rfl⟩
  · rcases type.argues_read s with hargues | ⟨custom, rfl⟩
    · rw [hread] at hargues
      exact .inl hargues
    · exact .inr (.inr ⟨custom, u, rfl, hread⟩)
  · exact .inr (.inl rfl)

namespace Dispatcher

/-- What is recorded as having failed is an argument that fails where reading ended. -/
theorem argument_of_mem_errors (d : Dispatcher S) (s : Scanner) (source : S) {failure : NodeId × Error}
    (h : failure ∈ (d.parseFrom s source).errors) :
    ∃ b name type provider, d.tree.branch? failure.1 = some b ∧ b.label = .argument name type provider ∧
      type.Fails (d.parseFrom s source).scanner failure.2 := by
  rcases d.finished_or_stalled_parseFrom s source with hfinished | hstalled
  · rw [hfinished.errors] at h
    cases h
  · obtain ⟨b, name, type, provider, hmem, _, hlabel, hfails⟩ := hstalled.fails failure h
    exact ⟨b, name, type, provider, Tree.branch?_of_mem_children (Tree.mem_children_of_mem_candidates hmem), hlabel,
      hfails⟩

/-- **Selecting by the token agrees with trying all words.** Below every node of a grammar that was built up, wherever
    the scanner stands, there are two cases. Either a single word is the candidate: it is a child of the node, matching
    it succeeds, and a separator or the end follows. Or all arguments are candidates, in the order of registration, and
    then matching fails for every word among the children whose name holds no separator. So among these words the
    candidates are exactly those that match. And no error that is recorded for a line is that of a word: each belongs
    to an argument, and it says that a word was expected only where a type that the author of the grammar brought along
    refused with just this error. -/
theorem selection_agrees_with_matching (d : Dispatcher S) (h : d.tree.Reachable) :
    (∀ (node : NodeId) (s : Scanner) (trail : Trail S H),
      ((∃ c name, d.tree.candidates node s = [c] ∧ c ∈ d.tree.children node ∧ c.1.label = .literal name ∧
          ∃ trail' u, (Node.branch c.1).read c.2 s trail = .ok trail' u ∧ u.atBreak) ∨
        d.tree.candidates node s = d.tree.arguments node ∧
          ∀ c ∈ d.tree.children node, ∀ name, c.1.label = .literal name → Scanner.separator ∉ name.toList →
            (Node.branch c.1).read c.2 s trail = .error (s.error (.literalExpected name)) s) ∧
      ∀ c ∈ d.tree.children node, ∀ name, c.1.label = .literal name → Scanner.separator ∉ name.toList →
        (c ∈ d.tree.candidates node s ↔ ∃ trail' u, (Node.branch c.1).read c.2 s trail = .ok trail' u)) ∧
    (∀ node, ((d.tree.arguments node).map Prod.snd).Pairwise (· < ·) ∧
      ∀ c, c ∈ d.tree.arguments node ↔ c ∈ d.tree.children node ∧ c.1.label.isArgument) ∧
    (∀ s source, ∀ failure ∈ (d.parseFrom s source).errors,
      ∃ b name type provider, d.tree.branch? failure.1 = some b ∧ b.label = .argument name type provider ∧
        ∀ word, failure.2.kind = .literalExpected word →
          ∃ custom u, type = .custom custom ∧ custom.read (d.parseFrom s source).scanner = .error failure.2 u) := by
  refine ⟨fun node s trail => ⟨?_, ?_⟩, fun node => ⟨?_, fun c => List.mem_filter⟩, ?_⟩
  · rcases d.tree.candidates_cases node s with ⟨c, name, hcandidates, hc, hlabel, htoken⟩ | ⟨hcandidates, hnone⟩
    · obtain ⟨trail', hread⟩ := Label.read_of_token htoken c.2 trail
      refine .inl ⟨c, name, hcandidates, hc, hlabel, trail', _, ?_, s.atBreak_skipWhile_token⟩
      rw [Node.read, hlabel, hread]
    · refine .inr ⟨hcandidates, fun c hc name hlabel hname => ?_⟩
      rw [Node.read, hlabel, Label.read_literal_of_ne_token hname (hnone c hc name hlabel)]
  · exact fun c hc name hlabel hname => h.mem_candidates_iff hc hlabel hname trail
  · exact List.pairwise_map.mpr ((d.tree.pairwise_children node).sublist List.filter_sublist)
  · intro s source failure hfailure
    obtain ⟨b, name, type, provider, hbranch, hlabel, hfails⟩ := d.argument_of_mem_errors s source hfailure
    refine ⟨b, name, type, provider, hbranch, hlabel, fun word hword => ?_⟩
    rcases hfails.kind with hof | hseparator | hcustom
    · rw [hword] at hof
      cases hof
    · rw [hword] at hseparator
      cases hseparator
    · exact hcustom

/-- Words that start each other, one of them with a separator, beside a number: the word up to the separator is the
    candidate where it stands, and the number is where no word does. There every word fails, and the only error is that
    of the number. -/
theorem selection_agrees_with_matching_prefixes :
    let d := ({} : Dispatcher Unit).registerAll
      [.literal "né", .literal "néo", .literal "né x", .argument "n" (.int (Bounds.signed 32))]
    let s := Scanner.ofString "nén"
    d.tree.Reachable ∧ (d.tree.candidates 0 (Scanner.ofString "né x")).map Prod.snd = [1] ∧
      (d.tree.candidates 0 s).map Prod.snd = [4] ∧
      (∀ trail : Trail Unit Unit, ∀ c ∈ d.tree.children 0, ∀ name, c.1.label = .literal name →
        Scanner.separator ∉ name.toList →
          (Node.branch c.1).read c.2 s trail = .error (s.error (.literalExpected name)) s) ∧
      (d.parseFrom s ()).errors.map Prod.fst = [4] ∧
      ∀ failure ∈ (d.parseFrom s ()).errors, ∀ name, failure.2.kind ≠ .literalExpected name := by
  intro d s
  have hreachable : d.tree.Reachable := reachable_registerAll (d := {}) .empty _
  obtain ⟨hselection, _, herrors⟩ := selection_agrees_with_matching (H := Unit) d hreachable
  refine ⟨hreachable, by decide +kernel, by decide +kernel, fun trail => ?_, by decide +kernel, ?_⟩
  · rcases (hselection 0 s trail).1 with ⟨c, name, hcandidates, _, hlabel, _⟩ | ⟨_, hnone⟩
    · -- The candidate here is no word.
      have hkinds : (d.tree.candidates 0 s).map (·.1.label.isLiteral) = [false] := by decide +kernel
      rw [hcandidates, List.map_singleton, hlabel] at hkinds
      cases hkinds
    · exact hnone
  · intro failure hfailure word hword
    obtain ⟨b, name, type, provider, hbranch, hlabel, hcustom⟩ := herrors s () failure hfailure
    obtain ⟨custom, _, rfl, _⟩ := hcustom word hword
    -- What failed is the number, whose type is not the author's own.
    have hid : failure.1 = 4 := by
      have hids : (d.parseFrom s ()).errors.map Prod.fst = [4] := by decide +kernel
      simpa [hids] using List.mem_map_of_mem (f := Prod.fst) hfailure
    have hown : (d.tree.branch? 4).map (fun b => b.label matches .argument _ (.custom _) _) = some false := by
      decide +kernel
    rw [← hid, hbranch, Option.map_some, hlabel] at hown
    cases hown

end Dispatcher

/-! ## What is left out -/

/-- A word that may not be empty: an empty one is refused as a word that is missing. -/
def CustomType.someWord : CustomType where
  valueType := .string
  read s :=
    if s.readWord.1 = "" then .error (s.readWord.2.error (.literalExpected "word")) s.readWord.2
    else .ok (.string s.readWord.1) s.readWord.2
  precedes s := by
    split
    · exact s.precedes_readWord
    · exact s.precedes_readWord
  placed s := by
    split
    · exact ⟨_, _, s.precedes_readWord, rfl⟩
    · trivial
  behind front s := by
    simp only [Scanner.readWord_behind, Scanner.error_behind]
    split
    · rfl
    · rfl

/-- **Names with a separator and types of the author's own are left out with reason.** Matching the only word of a
    grammar succeeds where it stands, and still it is no candidate there, for its name holds a separator. And below a
    word, the only argument says that a word was expected where it finds none. -/
theorem Dispatcher.selection_disagrees_with_matching :
    let spaced := ({} : Dispatcher Unit).registerAll [.literal "a b"]
    let s := Scanner.ofString "a b"
    let worded := ({} : Dispatcher Unit).registerAll
      [(Declaration.literal "go").followedBy (.argument "w" (.custom .someWord))]
    (spaced.tree.Reachable ∧ spaced.tree.candidates 0 s = [] ∧
      ∃ c ∈ spaced.tree.children 0, c.1.label = .literal "a b" ∧ ∀ trail : Trail Unit Unit,
        ∃ trail' u, (Node.branch c.1).read c.2 s trail = .ok trail' u ∧ u.atBreak) ∧
    worded.tree.Reachable ∧
      (worded.parse "go  x" ()).errors = [(2, ⟨.literalExpected "word", some ⟨"go  x", 3⟩⟩)] := by
  intro spaced s worded
  refine ⟨⟨reachable_registerAll (d := {}) .empty _, ?_, ?_⟩, reachable_registerAll (d := {}) .empty _, ?_⟩
  · exact List.length_eq_zero_iff.mp (by decide +kernel)
  · refine ⟨(⟨0, .literal "a b", fun _ => true, none⟩, 1), ?_, rfl, fun trail => ?_⟩
    · exact List.mem_singleton_self _
    · exact ⟨_, _, rfl, rfl⟩
  · decide +kernel

end CommandGrammar
