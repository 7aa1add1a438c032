import CommandGrammar.Proofs.Access
import CommandGrammar.Proofs.Frame
import CommandGrammar.Proofs.Placed
import CommandGrammar.Proofs.Token

/-!
# `Proofs.Ending` — where and why reading a line ends

Reading a line is a search with many ways to go on, but it can end in two ways only. Either the last node that
matched takes the line up to its end, but for a separator that may follow (`Parse.Finished`); or more is to come
and none of the candidates below the last node takes it (`Parse.Stalled`). In the second case the errors of the
result say which candidates were tried there, that every one of them failed, and where.

* `Label.read_of_token`, `Tree.exists_attempt_of_literal` — a word that is a candidate always matches, so only
  arguments can fail;
* `Branch.fails_of_attempt` — how they fail;
* `Tree.fst_failures_of_stalled`, `Tree.candidates_sublist` — where nothing matched, each candidate that was tried
  has its error, in the order of registration;
* `Tree.Enters` — the invariant of the descent: what `Tree.Stands` says, and that something is to come;
* `Tree.Outcome.finished_or_stalled` — hence every way of reading ends in one of the two ways.
-/

namespace CommandGrammar

variable {S : Type}

/-! ## Words never fail as candidates -/

namespace Scanner

/-- Behind the token a separator stands or the text ends. -/
theorem atBreak_skipWhile_token (s : Scanner) : (s.skipWhile (· ≠ separator)).atBreak := by
  show (List.head? (s.rest.dropWhile (· ≠ separator))).all (· == separator)
  have hhead := List.head?_dropWhile_not (fun c : Char => decide (c ≠ separator)) s.rest
  cases hdrop : (s.rest.dropWhile (fun c => decide (c ≠ separator))).head? with
  | none => rfl
  | some c =>
    rw [hdrop] at hhead
    simpa using hhead

/-- Passing as many characters as the token has is passing the token. -/
theorem advance_length_token (s : Scanner) : s.advance s.token.length = s.skipWhile (· ≠ separator) := by
  have hsplit : s.token ++ s.rest.dropWhile (· ≠ separator) = s.rest := List.takeWhile_append_dropWhile
  unfold advance skipWhile
  rw [← hsplit, List.take_left, List.drop_left, hsplit]
  rfl

/-- The token starts the rest of the line, and a break follows. -/
theorem matches_token (s : Scanner) :
    (s.token.isPrefixOf s.rest && (s.advance s.token.length).atBreak) = true := by
  rw [s.advance_length_token, s.atBreak_skipWhile_token, Bool.and_true, List.isPrefixOf_iff_prefix]
  exact List.takeWhile_prefix _

/-- Past a separator with more behind it, something is still to come. -/
theorem canRead_skip {s : Scanner} (hbreak : s.atBreak) (hread : s.canReadBytes 2) : s.skip.canRead := by
  obtain ⟨rest, hrest⟩ := rest_eq_separator_cons hbreak hread
  obtain ⟨passed, _⟩ := s
  subst hrest
  cases rest with
  | nil =>
    have hone : separator.utf8Size = 1 := by decide
    simp [canReadBytes, remainingSize, hone] at hread
  | cons c rest => rfl

/-- Where an argument may end and no more than a separator is to come, there is nothing else. -/
theorem rest_of_not_canReadBytes {s : Scanner} (hbreak : s.atBreak) (hread : ¬ s.canReadBytes 2) :
    s.rest = [] ∨ s.rest = [separator] := by
  obtain ⟨passed, rest⟩ := s
  cases rest with
  | nil => exact .inl rfl
  | cons c rest =>
    right
    obtain rfl : c = separator := by simpa [atBreak] using hbreak
    have hone : separator.utf8Size = 1 := by decide
    have hsize : Text.size rest = 0 := by
      simp [canReadBytes, remainingSize, hone] at hread
      omega
    rw [Text.size_eq_zero.mp hsize]

end Scanner

/-- A word matches where it is the token. -/
theorem Label.read_of_token {H : Type} {name : String} {s : Scanner} (h : name.toList = s.token) (id : NodeId)
    (trail : Trail S H) :
    ∃ trail', (literal name : Label S).read id s trail = .ok trail' (s.skipWhile (· ≠ Scanner.separator)) := by
  have hmatch : (name.toList.isPrefixOf s.rest && (s.advance name.toList.length).atBreak) = true := by
    rw [h]
    exact s.matches_token
  rw [Label.read, if_pos hmatch, h, s.advance_length_token]
  exact ⟨_, rfl⟩

/-- **A word that is a candidate matches.** Candidates are selected by the token, and the token is what a word
    has to be. -/
theorem Tree.exists_attempt_of_literal {t : Tree S} {node id : NodeId} {s : Scanner} {b : Branch S}
    (h : (b, id) ∈ t.candidates node s) {name : String} (hlabel : b.label = .literal name)
    (trail : Trail S (Handler S)) : ∃ m, b.attempt id s trail = .ok m := by
  unfold candidates at h
  split at h
  · next c hfind =>
    obtain rfl : (b, id) = c := List.mem_singleton.mp h
    have htoken : name.toList = s.token := by
      simpa [hlabel, Label.isLiteral, Label.name] using List.find?_some hfind
    obtain ⟨trail', hread⟩ := Label.read_of_token htoken id trail
    unfold Branch.attempt
    rw [hlabel, hread]
    dsimp only
    rw [if_pos s.atBreak_skipWhile_token]
    exact ⟨_, rfl⟩
  · have hargument : b.label.isArgument := (List.mem_filter.mp h).2
    rw [hlabel] at hargument
    cases hargument

/-! ## How candidates fail -/

/-- An argument of the type fails: it cannot be read, or it is read and neither a separator nor the end follows. -/
def ArgumentType.Fails (type : ArgumentType) (s : Scanner) (e : Error) : Prop :=
  (∃ u, type.read s = .error e u) ∨
    ∃ value u, type.read s = .ok value u ∧ u.atBreak = false ∧ e = u.error .separatorExpected

/-- An argument fails at a place of the text. -/
theorem ArgumentType.Fails.placedFrom {type : ArgumentType} {s : Scanner} {e : Error} (h : type.Fails s e) :
    e.PlacedFrom s := by
  rcases h with ⟨u, hread⟩ | ⟨value, u, hread, _, rfl⟩
  · have hplaced := type.placed_read s
    rw [hread] at hplaced
    exact hplaced
  · have hprecedes := type.precedes_read s
    rw [hread] at hprecedes
    exact ⟨u, _, hprecedes, rfl⟩

theorem Branch.fails_of_attempt {b : Branch S} {id : NodeId} {s : Scanner} {trail : Trail S (Handler S)}
    {e : Error} {name : String} {type : ArgumentType} {provider : Option (Provider S)}
    (hlabel : b.label = .argument name type provider) (h : b.attempt id s trail = .error e) :
    type.Fails s e := by
  unfold Branch.attempt at h
  rw [hlabel, Label.read] at h
  cases hcapture : type.capture s with
  | error e' u =>
    rw [hcapture] at h
    obtain rfl := Except.error.inj h
    exact .inl ⟨u, ArgumentType.capture_eq_error_iff.mp hcapture⟩
  | ok c u =>
    rw [hcapture] at h
    dsimp only at h
    split at h
    · cases h
    · next hbreak =>
      obtain rfl := Except.error.inj h
      exact .inr ⟨c.value, u, (ArgumentType.capture_eq_ok_iff.mp hcapture).1, by simpa using hbreak, rfl⟩

namespace Tree

variable {t : Tree S} {node : NodeId} {s : Scanner} {trail : Trail S (Handler S)}

/-- Candidates come in the order in which the children do. -/
theorem candidates_sublist (t : Tree S) (node : NodeId) (s : Scanner) :
    (t.candidates node s).Sublist (t.children node) := by
  unfold candidates
  split
  · next c hfind => exact List.singleton_sublist.mpr (List.mem_of_find?_eq_some hfind)
  · exact List.filter_sublist

/-- Where nothing matched, everything that was tried has failed. -/
theorem fst_failures_of_stalled {tried : List (NodeId × Except Error (Matched S))} (h : successes tried = []) :
    (failures tried).map Prod.fst = tried.map Prod.fst := by
  induction tried with
  | nil => rfl
  | cons first rest ih =>
    obtain ⟨id, result⟩ := first
    cases result with
    | ok m => simp [successes, Except.toOption] at h
    | error e =>
      have hrest : successes rest = [] := by simpa [successes, Except.toOption] using h
      simpa [failures] using ih hrest

/-- Among the candidates below a node there is an argument that the source may use and that fails with the error. -/
def CandidateFails (t : Tree S) (source : S) (node : NodeId) (s : Scanner) (failure : NodeId × Error) : Prop :=
  ∃ b name type provider, (b, failure.1) ∈ t.candidates node s ∧ b.requirement source ∧
    b.label = .argument name type provider ∧ type.Fails s failure.2

/-- What fails below a node is an argument among its candidates that the source may use. -/
theorem candidateFails_of_mem_failures {failure : NodeId × Error}
    (h : failure ∈ failures (t.attempts node s trail)) : t.CandidateFails trail.source node s failure := by
  obtain ⟨b, hmem, hreq, hattempt⟩ := mem_failures_iff.mp h
  cases hlabel : b.label with
  | literal name =>
    obtain ⟨m, hok⟩ := exists_attempt_of_literal hmem hlabel trail
    rw [hattempt] at hok
    cases hok
  | argument name type provider =>
    exact ⟨b, name, type, provider, hmem, hreq, hlabel, Branch.fails_of_attempt hlabel hattempt⟩

end Tree

/-! ## The two endings -/

namespace Parse

/-- **Reading has finished.** -/
structure Finished (p : Parse S) : Prop where
  /-- Something matched, and the scanner stands at the end of the last match. -/
  last : ∃ last ∈ p.trail.steps.getLast?, p.scanner.cursor = last.range.stop
  /-- Nothing is to come, or one separator. -/
  unread : p.scanner.rest = [] ∨ p.scanner.rest = [Scanner.separator]
  /-- No candidate has an error. -/
  errors : p.errors = []

/-- **Reading has stalled** at the last node that matched, or at the root: no candidate below this node goes on. -/
structure Stalled (t : Tree S) (source : S) (start : Nat) (p : Parse S) : Prop where
  /-- Where nothing matched, the scanner has not moved. -/
  unmoved : p.trail.steps = [] → p.scanner.cursor = start
  /-- Otherwise it stands one byte behind the last match, and something is to come. -/
  behind : ∀ last ∈ p.trail.steps.getLast?, p.scanner.cursor = last.range.stop + 1 ∧ p.scanner.canRead
  /-- The errors are those of all candidates that the source may use. -/
  keys : p.errors.map Prod.fst
    = ((t.candidates p.trail.last p.scanner).filter fun c => c.1.requirement source).map Prod.snd
  /-- They come in the order of registration. -/
  ordered : (p.errors.map Prod.fst).Pairwise (· < ·)
  /-- Each of these candidates is an argument that fails where the scanner stands, with this error. -/
  fails : ∀ failure ∈ p.errors, t.CandidateFails source p.trail.last p.scanner failure
  /-- Each error points into the whole line, between two characters, and not in front of the scanner. -/
  placed : ∀ failure ∈ p.errors, ∃ place, failure.2.place = some place ∧ place.input = p.input ∧
    Text.IsBoundary p.input place.cursor ∧ p.scanner.cursor ≤ place.cursor ∧
      place.cursor ≤ Text.byteSize p.input

/-- No result is both: the scanner cannot stand at the end of the last match and behind it. -/
theorem Finished.not_stalled {t : Tree S} {source : S} {start : Nat} {p : Parse S} (h : p.Finished) :
    ¬ p.Stalled t source start := by
  intro hstalled
  obtain ⟨last, hlast, hcursor⟩ := h.last
  have hbehind := (hstalled.behind last hlast).1
  omega

end Parse

namespace Tree

/-- The invariant of the descent: a path on behalf of the source leads from the root to `node`, the scanner stands
    behind it, and once something matched, something is to come. -/
structure Enters (t : Tree S) (source : S) (text : String) (start : Nat) (node : NodeId) (s : Scanner)
    (trail : Trail S (Handler S)) : Prop where
  /-- The trail traces a path, and the scanner stands behind it. -/
  stands : t.Stands text start node s trail
  /-- The trail was made for the source. -/
  source_eq : trail.source = source
  /-- The trail starts at the root. -/
  root_eq : trail.root = 0
  /-- Behind a match something is to come. -/
  unread : trail.steps ≠ [] → s.canRead

variable {t : Tree S} {source : S} {text : String} {start : Nat} {node : NodeId} {s : Scanner}
  {trail : Trail S (Handler S)}

theorem enters_start (t : Tree S) (s : Scanner) (source : S) :
    t.Enters source s.text s.cursor 0 s (Trail.start source 0 s.cursor) where
  stands := t.stands_start s source
  source_eq := rfl
  root_eq := rfl
  unread := by simp [Trail.start]

theorem Enters.descend (h : t.Enters source text start node s trail) {m : Matched S}
    (hm : m ∈ successes (t.attempts node s trail)) (hread : m.scanner.canReadBytes 2) :
    t.Enters source text start m.node m.scanner.skip m.trail := by
  obtain ⟨_, _, _, _, hattempt⟩ := mem_successes_iff.mp hm
  have hbreak : m.scanner.atBreak := (Branch.attempt_cases hattempt).2.2.1
  exact ⟨h.stands.descend hm hread, (source_of_mem_successes hm).trans h.source_eq,
    (root_of_mem_successes hm).trans h.root_eq, fun _ => Scanner.canRead_skip hbreak hread⟩

/-- The node where the search stands is the last one of the trail. -/
theorem Enters.last_eq (h : t.Enters source text start node s trail) : trail.last = node := by
  have hnode := h.stands.node_eq
  rw [List.getLast?_cons, List.getLast?_map] at hnode
  rw [Trail.last, h.root_eq]
  exact Option.some.inj hnode

/-- Without a match the search stalls. -/
theorem Enters.stalled (h : t.Enters source text start node s trail)
    (hstall : successes (t.attempts node s trail) = []) :
    Parse.Stalled t source start { scanner := s, trail, errors := failures (t.attempts node s trail) } := by
  have hkeys : (failures (t.attempts node s trail)).map Prod.fst
      = ((t.candidates node s).filter fun c => c.1.requirement source).map Prod.snd := by
    rw [fst_failures_of_stalled hstall, attempts, List.map_map, h.source_eq]
    rfl
  refine ⟨h.stands.unmoved, ?_, ?_, ?_, ?_, ?_⟩
  · -- A match further up left something to come, or the descent would have ended there.
    intro last hlast
    have hne : trail.steps ≠ [] := List.ne_nil_of_mem (List.mem_of_getLast? hlast)
    exact ⟨(h.stands.behind last hlast).2, h.unread hne⟩
  · show _ = ((t.candidates trail.last s).filter _).map _
    rw [h.last_eq]
    exact hkeys
  · show ((failures (t.attempts node s trail)).map Prod.fst).Pairwise _
    -- Children come in the order of their ids, and both selections keep it.
    rw [hkeys, List.pairwise_map]
    exact (t.pairwise_children node).sublist (List.filter_sublist.trans (t.candidates_sublist node s))
  · intro failure hfailure
    show t.CandidateFails source trail.last s failure
    rw [h.last_eq, ← h.source_eq]
    exact candidateFails_of_mem_failures hfailure
  · intro failure hfailure
    obtain ⟨_, _, _, _, _, _, _, hfails⟩ := candidateFails_of_mem_failures hfailure
    exact hfails.placedFrom.exists_place

/-- A match with no more than a separator behind it finishes the line. -/
theorem finished_of_mem_successes {m : Matched S} (hm : m ∈ successes (t.attempts node s trail))
    (hread : ¬ m.scanner.canReadBytes 2) : Parse.Finished { scanner := m.scanner, trail := m.trail } := by
  obtain ⟨b, id, _, _, hattempt⟩ := mem_successes_iff.mp hm
  have hbreak : m.scanner.atBreak := (Branch.attempt_cases hattempt).2.2.1
  obtain ⟨range, _, hstop, hsteps, _⟩ := Branch.steps_of_attempt hattempt
  refine ⟨⟨⟨id, range⟩, ?_, hstop.symm⟩, Scanner.rest_of_not_canReadBytes hbreak hread, rfl⟩
  show m.trail.steps.getLast? = _
  rw [hsteps, List.getLast?_concat]

/-- **Run.** Every way of reading ends in one of the two ways. -/
theorem Outcome.finished_or_stalled {p : Parse S} (h : t.Outcome node s trail p)
    (henters : t.Enters source text start node s trail) : p.Finished ∨ p.Stalled t source start := by
  induction h with
  | stalled hstall => exact .inr (henters.stalled hstall)
  | finished hm hread => exact .inl (finished_of_mem_successes hm hread)
  | followed hm hread _ ih => exact ih (henters.descend hm hread)

end Tree

namespace Dispatcher

/-- Reading stops in the way in which one of the ways of reading does. -/
theorem finished_or_stalled_parseFrom (d : Dispatcher S) (s : Scanner) (source : S) :
    (d.parseFrom s source).Finished ∨ (d.parseFrom s source).Stalled d.tree source s.cursor :=
  (d.outcome_parseFrom s source).finished_or_stalled (d.tree.enters_start s source)

/-- **A line is read to its end, or reading stalls with an error for every candidate.** For every grammar, strategy,
    source and place of a text the result is over the whole text, starts at the root, and has one of two forms, never
    both. -/
theorem parse_finishes_or_stalls (d : Dispatcher S) (s : Scanner) (source : S) :
    let p := d.parseFrom s source
    p.input = s.text ∧ p.trail.root = 0 ∧ (p.Finished ∨ p.Stalled d.tree source s.cursor) ∧
      ¬ (p.Finished ∧ p.Stalled d.tree source s.cursor) := by
  intro p
  refine ⟨d.input_parseFrom s source, (d.outcome_parseFrom s source).root_eq, ?_, ?_⟩
  · exact d.finished_or_stalled_parseFrom s source
  · rintro ⟨hfinished, hstalled⟩
    exact hfinished.not_stalled hstalled

-- A number and a truth value below a word: both fail where reading stalls, the number in front of what it cannot
-- read and the truth value behind the empty quotes.
example :
    let d := ({} : Dispatcher Unit).registerAll [((Declaration.literal "né").followedBy
      (.argument "n" (.int (Bounds.signed 32)))).followedBy (.argument "b" .bool)]
    (d.parse "né '' x" ()).errors.map (fun failure => (failure.1, failure.2.cursor?))
      = [(2, some 4), (3, some 6)] := by
  decide +kernel

end Dispatcher

end CommandGrammar
