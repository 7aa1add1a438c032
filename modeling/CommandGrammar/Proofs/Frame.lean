import CommandGrammar.Dispatch
import CommandGrammar.Proofs.Outcomes
import CommandGrammar.Proofs.Registration
import Mathlib.Data.List.Sort

/-!
# `Proofs.Frame` — a new command leaves the others alone

Registering a command puts nodes into a list that all commands share, may change handlers in it, and makes the
children of the root more. A line that starts with another word must not notice. The argument has two halves.

The first one knows nothing of registration. Two trees may share a part: nodes that are the same in both, with the
same children, which are shared again (`Tree.Shares`). Once the search stands among shared nodes it never leaves
them, so it gives the same in both trees:

* `Tree.Shares.outcomes_eq` — the ways of reading a line are the same when the candidates at the first node are;
* `Tree.Shares.steps` — and everything that is matched is shared;
* `Dispatcher.execute_of_shares` — running a line looks only at what was matched.

The second half finds the shared part: with the entries of a command appended, nothing changes at the paths that
do not start with its name.

* `Tree.Records.shares` — these paths are shared;
* `Tree.Records.candidates_root` — at the root, the candidates for a token change only if the token is the name.
-/

namespace CommandGrammar

variable {S : Type}

/-! ## Children as sorted lists -/

namespace Tree

/-- Children come in the order of their ids. -/
theorem pairwise_children (t : Tree S) (node : NodeId) :
    (t.children node).Pairwise fun a b => a.2 < b.2 := by
  have hids : ((t.branches.zipIdx 1).map Prod.snd).Pairwise (· < ·) := by
    rw [List.zipIdx_map_snd]
    exact List.pairwise_lt_range'
  exact (List.pairwise_map.mp hids).filter _

instance : Std.Antisymm fun a b : Branch S × NodeId => a.2 < b.2 :=
  ⟨fun _ _ hab hba => absurd hba (Nat.lt_asymm hab)⟩

instance : Std.Irrefl fun a b : Branch S × NodeId => a.2 < b.2 := ⟨fun a => Nat.lt_irrefl a.2⟩

/-- The children worth trying among given ones: the word that stands where the scanner is, or all arguments. -/
def candidatesAmong (children : List (Branch S × NodeId)) (s : Scanner) : List (Branch S × NodeId) :=
  match children.find? fun c => c.1.label.isLiteral && c.1.label.name.toList == s.token with
  | some c => [c]
  | none => children.filter (·.1.label.isArgument)

theorem candidates_eq_among (t : Tree S) (node : NodeId) (s : Scanner) :
    t.candidates node s = candidatesAmong (t.children node) s := rfl

/-- Other words than the one that stands there may be left out. -/
theorem candidatesAmong_filter {children : List (Branch S × NodeId)} {s : Scanner}
    {keep : Branch S × NodeId → Bool}
    (h : ∀ c ∈ children, keep c = false → c.1.label.isArgument = false ∧ c.1.label.name.toList ≠ s.token) :
    candidatesAmong (children.filter keep) s = candidatesAmong children s := by
  have hfind : (children.filter keep).find? (fun c => c.1.label.isLiteral && c.1.label.name.toList == s.token)
      = children.find? fun c => c.1.label.isLiteral && c.1.label.name.toList == s.token := by
    rw [← List.head?_filter, ← List.head?_filter, List.filter_filter]
    apply congrArg List.head?
    apply List.filter_congr
    intro c hc
    cases hkeep : keep c with
    | true => rw [Bool.and_true]
    | false => simp [(h c hc hkeep).2]
  have harguments : (children.filter keep).filter (·.1.label.isArgument)
      = children.filter (·.1.label.isArgument) := by
    rw [List.filter_filter]
    apply List.filter_congr
    intro c hc
    cases hkeep : keep c with
    | true => rw [Bool.and_true]
    | false => simp [(h c hc hkeep).1]
  unfold candidatesAmong
  rw [hfind, harguments]

/-! ## Trees that share a part -/

/-- **The two trees share some nodes**: these are the same in both, and so are their children, which are shared
    as well. -/
structure Shares (t t' : Tree S) (shared : NodeId → Prop) : Prop where
  /-- A shared node is the same in both trees. -/
  branch : ∀ id, shared id → t'.branch? id = t.branch? id
  /-- It has the same children. -/
  children : ∀ id, shared id → t'.children id = t.children id
  /-- Its children are shared. -/
  closed : ∀ id, shared id → ∀ c ∈ t.children id, shared c.2

variable {t t' : Tree S} {shared : NodeId → Prop} {node : NodeId} {s : Scanner} {trail : Trail S (Handler S)}

namespace Shares

/-- Whatever matches at a node is shared when the candidates are. -/
theorem node_of_mem_successes (hshared : ∀ c ∈ t.candidates node s, shared c.2) {m : Matched S}
    (hm : m ∈ successes (t.attempts node s trail)) : shared m.node := by
  obtain ⟨b, id, hmem, _, hattempt⟩ := mem_successes_iff.mp hm
  have hnode : m.node = id := (Branch.attempt_cases hattempt).1
  rw [hnode]
  exact hshared (b, id) hmem

theorem candidates_eq (h : t.Shares t' shared) (hnode : shared node) (s : Scanner) :
    t'.candidates node s = t.candidates node s := by
  rw [candidates_eq_among, candidates_eq_among, h.children node hnode]

theorem candidates_shared (h : t.Shares t' shared) (hnode : shared node) (s : Scanner) :
    ∀ c ∈ t.candidates node s, shared c.2 :=
  fun c hc => h.closed node hnode c (mem_children_of_mem_candidates hc)

/-- **From shared candidates on, both trees read a line in the same ways.** -/
theorem outcomes_eq (h : t.Shares t' shared) (hcandidates : t'.candidates node s = t.candidates node s)
    (hshared : ∀ c ∈ t.candidates node s, shared c.2) :
    t'.outcomes node s trail = t.outcomes node s trail := by
  induction node, s, trail using outcomes.induct t with
  | case1 node s trail _ hstall =>
    have hattempts : t'.attempts node s trail = t.attempts node s trail := by
      rw [attempts, attempts, hcandidates]
    rw [outcomes_of_stalled hstall, outcomes_of_stalled (by rw [hattempts]; exact hstall), hattempts]
  | case2 node s trail _ hmatch ih =>
    have hattempts : t'.attempts node s trail = t.attempts node s trail := by
      rw [attempts, attempts, hcandidates]
    rw [outcomes_of_matched hmatch, outcomes_of_matched (by rw [hattempts]; exact hmatch), hattempts]
    apply List.flatMap_congr
    intro m hm
    have hnode : shared m.node := node_of_mem_successes hshared hm
    unfold outcomesOf
    split
    · next hread => exact ih m hm hread (h.candidates_eq hnode _) (h.candidates_shared hnode _)
    · rfl

/-- From shared candidates on, everything that is matched is shared. -/
theorem steps (h : t.Shares t' shared) {p : Parse S} (houtcome : t.Outcome node s trail p)
    (hshared : ∀ c ∈ t.candidates node s, shared c.2) (hsteps : ∀ step ∈ trail.steps, shared step.node) :
    ∀ step ∈ p.trail.steps, shared step.node := by
  -- What one match adds is a candidate.
  have hextend : ∀ {node : NodeId} {s : Scanner} {trail : Trail S (Handler S)} {m : Matched S},
      (∀ c ∈ t.candidates node s, shared c.2) → (∀ step ∈ trail.steps, shared step.node) →
      m ∈ successes (t.attempts node s trail) → ∀ step ∈ m.trail.steps, shared step.node := by
    intro node s trail m hshared hsteps hm step hstep
    obtain ⟨b, id, hmem, _, hattempt⟩ := mem_successes_iff.mp hm
    obtain ⟨range, _, _, hgrown, _⟩ := Branch.steps_of_attempt hattempt
    rw [hgrown, List.mem_append, List.mem_singleton] at hstep
    rcases hstep with hstep | rfl
    · exact hsteps step hstep
    · exact hshared (b, id) hmem
  induction houtcome with
  | stalled _ => exact hsteps
  | finished hm _ => exact hextend hshared hsteps hm
  | followed hm _ _ ih =>
    exact ih (h.candidates_shared (node_of_mem_successes hshared hm) _) (hextend hshared hsteps hm)

end Shares

end Tree

namespace Dispatcher

/-- **Running a line looks only at what was matched.** -/
theorem execute_of_shares {d d' : Dispatcher S} {shared : NodeId → Prop} (h : d.tree.Shares d'.tree shared)
    {p : Parse S} (hsteps : ∀ step ∈ p.trail.steps, shared step.node) : d'.execute p = d.execute p := by
  have hleftover : d'.leftover p = d.leftover p := by
    unfold leftover
    cases hlast : p.trail.steps.getLast? with
    | none => rfl
    | some last =>
      dsimp only
      rw [h.children last.node (hsteps last (List.mem_of_getLast? hlast))]
  have husage : d'.pathUsage p = d.pathUsage p := by
    unfold pathUsage
    apply congrArg
    apply List.map_congr_left
    intro step hstep
    rw [Tree.usageOf, Tree.usageOf, h.branch step.node (hsteps step hstep)]
  have hhandler : d'.handlerOf p = d.handlerOf p := by
    unfold handlerOf
    rw [hleftover, husage]
  unfold execute
  rw [hhandler]

/-- Where both dispatchers choose in the same way among the same ways of reading, they read the same. -/
theorem parseFrom_of_outcomes {d d' : Dispatcher S} (hsettings : d'.settings = d.settings) {s : Scanner}
    {source : S} (h : d'.outcomes s source = d.outcomes s source) :
    d'.parseFrom s source = d.parseFrom s source := by
  have hselect := d'.select_outcomes s source
  rw [hsettings, h, d.select_outcomes s source] at hselect
  exact (Option.some.inj hselect).symm

end Dispatcher

/-! ## Entries of one command -/

namespace Declaration

mutual

/-- The paths of a declaration's entries go through its own node. -/
theorem exists_path_of_mem_entries {above : List String} {e : Entry S} :
    (d : Declaration S) → e ∈ d.entries above → ∃ below, e.path = above ++ d.label.name :: below
  | ⟨label, requirement, handler, children⟩, he => by
    rw [entries] at he
    rcases List.mem_cons.mp he with rfl | he
    · exact ⟨[], rfl⟩
    · obtain ⟨below, hpath⟩ := exists_path_of_mem_entriesAll children he
      exact ⟨below, by rw [hpath, List.append_assoc]; rfl⟩

theorem exists_path_of_mem_entriesAll {above : List String} {e : Entry S} :
    (ds : List (Declaration S)) → e ∈ entriesAll above ds → ∃ below, e.path = above ++ below
  | [], he => by
    rw [entriesAll] at he
    cases he
  | d :: ds, he => by
    rw [entriesAll, List.mem_append] at he
    rcases he with he | he
    · obtain ⟨below, hpath⟩ := exists_path_of_mem_entries d he
      exact ⟨_, hpath⟩
    · exact exists_path_of_mem_entriesAll ds he

end

/-- The node of a declaration is its first entry. -/
theorem first?_entries (d : Declaration S) :
    Entry.first? (d.entries []) [d.label.name] = some ⟨[], d.label, d.requirement, d.handler⟩ := by
  obtain ⟨label, requirement, handler, children⟩ := d
  rw [entries, Entry.first?]
  apply List.find?_cons_of_pos
  simp [Entry.path]

end Declaration

namespace Entry

variable {es more : List (Entry S)} {name : String} {p : List String}

/-- All of the entries stand at the node of a name below the root, or below it. -/
def AllUnder (name : String) (es : List (Entry S)) : Prop := ∀ e ∈ es, e.path.head? = some name

theorem allUnder_entries (d : Declaration S) : AllUnder d.label.name (d.entries []) := by
  intro e he
  obtain ⟨below, hpath⟩ := d.exists_path_of_mem_entries he
  rw [hpath]
  rfl

theorem AllUnder.mem_paths_append (h : AllUnder name more) (hp : p.head? ≠ some name) :
    p ∈ paths (es ++ more) ↔ p ∈ paths es := by
  constructor
  · intro hmem
    obtain ⟨e, he, rfl⟩ := mem_paths.mp hmem
    rcases List.mem_append.mp he with he | he
    · exact mem_paths.mpr ⟨e, he, rfl⟩
    · exact absurd (h e he) hp
  · exact fun hmem => (paths_prefix_append es more).subset hmem

/-- Entries under another name change nothing at a path. -/
theorem AllUnder.branch?_append (h : AllUnder name more) (hclosed : Closed es) (hp : p.head? ≠ some name)
    (hmem : p ∈ paths es) : branch? (es ++ more) p = branch? es p := by
  have hhandler : handler? more p = none := by
    rw [handler?_eq_none_iff]
    rintro e he rfl
    exact absurd (h e he) hp
  rw [branch?_append_of_mem hclosed hmem, hhandler]
  simp

end Entry

namespace Tree

namespace Records

variable {t t' : Tree S} {es more : List (Entry S)} {name : String}

/-- Entries under another name change none of the children one name further. -/
theorem mem_children_append (h : t.Records es) (h' : t'.Records (es ++ more)) (hmore : Entry.AllUnder name more)
    {q : List String} (hq : q ∈ [] :: Entry.paths es) {b : Branch S} {id : NodeId}
    (helsewhere : (q ++ [b.label.name]).head? ≠ some name) :
    (b, id) ∈ t'.children (Entry.idOf es q) ↔ (b, id) ∈ t.children (Entry.idOf es q) := by
  rw [h.mem_children_iff, ← Entry.idOf_append hq, h'.mem_children_iff, hmore.mem_paths_append helsewhere]
  apply and_congr_right
  intro hmem
  rw [Entry.idOf_append (List.mem_cons_of_mem _ hmem), hmore.branch?_append h.closed helsewhere hmem]

/-- **What stands under other names is shared** with the tree that has the entries of one name appended. -/
theorem shares (h : t.Records es) (h' : t'.Records (es ++ more)) (hmore : Entry.AllUnder name more) :
    t.Shares t' fun id => ∃ q ∈ Entry.paths es, q.head? ≠ some name ∧ Entry.idOf es q = id where
  branch := by
    rintro id ⟨q, hq, helsewhere, rfl⟩
    have hq' : q ∈ Entry.paths (es ++ more) := (hmore.mem_paths_append helsewhere).mpr hq
    have hbranch' := h'.branch?_idOf hq'
    rw [Entry.idOf_append (List.mem_cons_of_mem _ hq)] at hbranch'
    rw [hbranch', h.branch?_idOf hq, hmore.branch?_append h.closed helsewhere hq]
  children := by
    rintro id ⟨q, hq, helsewhere, rfl⟩
    apply (t'.pairwise_children _).eq_of_mem_iff (t.pairwise_children _)
    rintro ⟨b, id⟩
    apply h.mem_children_append h' hmore (List.mem_cons_of_mem _ hq)
    rw [List.head?_append_of_ne_nil _ (Entry.ne_nil_of_mem_paths hq)]
    exact helsewhere
  closed := by
    rintro id ⟨q, hq, helsewhere, rfl⟩ ⟨b, id⟩ hc
    obtain ⟨hmem, hid, _⟩ := h.mem_children_iff.mp hc
    refine ⟨_, hmem, ?_, hid.symm⟩
    rw [List.head?_append_of_ne_nil _ (Entry.ne_nil_of_mem_paths hq)]
    exact helsewhere

/-- Below the root, what stands under other names stays the same. -/
theorem children_root (h : t.Records es) (h' : t'.Records (es ++ more)) (hmore : Entry.AllUnder name more) :
    (t'.children 0).filter (·.1.label.name ≠ name) = (t.children 0).filter (·.1.label.name ≠ name) := by
  apply ((t'.pairwise_children 0).filter _).eq_of_mem_iff ((t.pairwise_children 0).filter _)
  rintro ⟨b, id⟩
  rw [List.mem_filter, List.mem_filter]
  apply and_congr_left
  intro hname
  have helsewhere : ([] ++ [b.label.name]).head? ≠ some name := by simpa using hname
  rw [← Entry.idOf_nil es]
  exact h.mem_children_append h' hmore List.mem_cons_self helsewhere

/-- With a word's declaration appended, every node of its name below the root is a word, if the nodes of this name
    were. -/
theorem isLiteral_of_child_root (h : t.Records es) {declaration : Declaration S}
    (h' : t'.Records (es ++ declaration.entries [])) (hword : declaration.label = .literal name)
    (hroot : ∀ c ∈ t.children 0, c.1.label.name = name → c.1.label.isArgument = false) :
    ∀ c ∈ t'.children 0, c.1.label.name = name → c.1.label.isArgument = false := by
  rintro ⟨b, id⟩ hc hname
  change b.label.name = name at hname
  show b.label.isArgument = false
  rw [← Entry.idOf_nil (es ++ declaration.entries []), h'.mem_children_iff] at hc
  obtain ⟨_, _, hbranch⟩ := hc
  rw [List.nil_append, hname] at hbranch
  by_cases hmem : [name] ∈ Entry.paths es
  · -- The name was there: the node may only have got another handler.
    rw [Entry.branch?_append_of_mem h.closed hmem] at hbranch
    obtain ⟨old, hold, heq⟩ := Option.map_eq_some_iff.mp hbranch
    have hlabel : b.label = old.label := by rw [← heq]
    have holdName : old.label.name = name := by rw [← hlabel, hname]
    have hchild : (old, Entry.idOf es [name]) ∈ t.children 0 := by
      rw [← Entry.idOf_nil es, h.mem_children_iff, holdName]
      exact ⟨hmem, rfl, hold⟩
    rw [hlabel]
    exact hroot _ hchild holdName
  · -- The name is new: the node is what the declaration says.
    obtain ⟨e, he, _, _, _, hlabel, _⟩ := Entry.branch?_eq_some hbranch
    have hfirst := declaration.first?_entries
    rw [hword] at hfirst
    change Entry.first? _ [name] = _ at hfirst
    rw [Entry.first?_append, Entry.first?_eq_none hmem, Option.none_or, hfirst] at he
    obtain rfl := Option.some.inj he
    rw [hlabel]
    rfl

/-- **At the root only one token is affected**: the name of the word. -/
theorem candidates_root (h : t.Records es) {declaration : Declaration S}
    (h' : t'.Records (es ++ declaration.entries [])) (hword : declaration.label = .literal name)
    (hroot : ∀ c ∈ t.children 0, c.1.label.name = name → c.1.label.isArgument = false) {s : Scanner}
    (htoken : s.token ≠ name.toList) : t'.candidates 0 s = t.candidates 0 s := by
  have hmore : Entry.AllUnder name (declaration.entries []) := by
    have hunder := Entry.allUnder_entries declaration
    rwa [hword] at hunder
  have hdropped : ∀ {u : Tree S}, (∀ c ∈ u.children 0, c.1.label.name = name → c.1.label.isArgument = false) →
      ∀ c ∈ u.children 0, decide (c.1.label.name ≠ name) = false →
        c.1.label.isArgument = false ∧ c.1.label.name.toList ≠ s.token := by
    intro u hliteral c hc hname
    have heq : c.1.label.name = name := by simpa using hname
    exact ⟨hliteral c hc heq, fun htoken' => htoken (by rw [← htoken', heq])⟩
  rw [candidates_eq_among, candidates_eq_among,
    ← candidatesAmong_filter (hdropped (h.isLiteral_of_child_root h' hword hroot)),
    ← candidatesAmong_filter (hdropped hroot), h.children_root h' hmore]

/-- The candidates at the root stand under other names. -/
theorem candidates_root_elsewhere (h : t.Records es)
    (hroot : ∀ c ∈ t.children 0, c.1.label.name = name → c.1.label.isArgument = false) {s : Scanner}
    (htoken : s.token ≠ name.toList) :
    ∀ c ∈ t.candidates 0 s, ∃ q ∈ Entry.paths es, q.head? ≠ some name ∧ Entry.idOf es q = c.2 := by
  rintro ⟨b, id⟩ hc
  have hchild := mem_children_of_mem_candidates hc
  have hname : b.label.name ≠ name := by
    intro heq
    have hargument := hroot _ hchild heq
    -- A word is a candidate only for its own token.
    unfold candidates at hc
    split at hc
    · next found hfound =>
      obtain rfl := List.mem_singleton.mp hc
      have hfoundToken := List.find?_some hfound
      simp only [Bool.and_eq_true, beq_iff_eq] at hfoundToken
      exact htoken (by rw [← hfoundToken.2, heq])
    · simp [arguments, hargument] at hc
  rw [← Entry.idOf_nil es, h.mem_children_iff] at hchild
  obtain ⟨hmem, hid, _⟩ := hchild
  exact ⟨_, hmem, by simpa using hname, hid.symm⟩

end Records

end Tree

/-! ## Registering a command -/

namespace Dispatcher

/-- **Registering a command leaves the other commands alone.** Let a grammar be registered, declaration by
    declaration, and then a word with anything below it, whether the word is new or not; only no argument below
    the root may have its name. Then every line whose first token is not the word is read as before, in every
    part of the result, and running it has the same outcome. -/
theorem registering_leaves_others_alone (settings : Dispatch.Settings) (declarations : List (Declaration S))
    (declaration : Declaration S) (name : String) (hword : declaration.label = .literal name)
    (hroot : ∀ c ∈ (({ settings } : Dispatcher S).registerAll declarations).tree.children 0,
      c.1.label.isArgument → c.1.label.name ≠ name) :
    let d := ({ settings } : Dispatcher S).registerAll declarations
    let d' := (d.register declaration).1
    (∀ (s : Scanner) (source : S), s.token ≠ name.toList →
      d'.parseFrom s source = d.parseFrom s source ∧
      d'.execute (d'.parseFrom s source) = d.execute (d.parseFrom s source)) ∧
    ∀ (line : String) (source : S), line.toList.takeWhile (· ≠ ' ') ≠ name.toList →
      d'.parse line source = d.parse line source ∧ d'.run line source = d.run line source := by
  intro d d'
  have h : d.tree.Records (Declaration.entriesAll [] declarations) := records_registerAll settings declarations
  have h' : d'.tree.Records (Declaration.entriesAll [] declarations ++ declaration.entries []) := by
    have hinsert := Tree.Records.insert h List.mem_cons_self declaration
    rwa [Entry.idOf_nil] at hinsert
  have hliteral : ∀ c ∈ d.tree.children 0, c.1.label.name = name → c.1.label.isArgument = false := by
    intro c hc hname
    by_contra hargument
    exact hroot c hc (by simpa using hargument) hname
  have hmore : Entry.AllUnder name (declaration.entries []) := by
    have hunder := Entry.allUnder_entries declaration
    rwa [hword] at hunder
  have hshares := h.shares h' hmore
  have hfrom : ∀ (s : Scanner) (source : S), s.token ≠ name.toList →
      d'.parseFrom s source = d.parseFrom s source ∧
      d'.execute (d'.parseFrom s source) = d.execute (d.parseFrom s source) := by
    intro s source htoken
    have hcandidates := h.candidates_root h' hword hliteral htoken
    have hshared := h.candidates_root_elsewhere hliteral htoken
    have houtcomes : d'.outcomes s source = d.outcomes s source := hshares.outcomes_eq hcandidates hshared
    have hsettings : d'.settings = d.settings := rfl
    have hparse : d'.parseFrom s source = d.parseFrom s source := parseFrom_of_outcomes hsettings houtcomes
    have hsteps := hshares.steps (d.outcome_parseFrom s source) hshared (by simp [Trail.start])
    rw [hparse]
    exact ⟨rfl, execute_of_shares hshares hsteps⟩
  exact ⟨hfrom, fun line source htoken => hfrom (Scanner.ofString line) source htoken⟩

/-- A word that merges into a command of its name, with a new handler and a new child: a command beside it is
    read as before, and so is a line that an argument takes. -/
theorem registering_leaves_others_alone_merged :
    let flag := (Declaration.literal "flag").followedBy (.literal "on")
    let d := ({} : Dispatcher Unit).registerAll
      [flag, (Declaration.literal "list").runs fun c => (.ok (), c.source), .argument "rest" .greedy]
    let more := ((Declaration.literal "flag").runs fun c => (.ok (), c.source)).followedBy (.literal "off")
    let d' := (d.register more).1
    more.label = .literal "flag" ∧
    (∀ c ∈ d.tree.children 0, c.1.label.isArgument → c.1.label.name ≠ "flag") ∧
    d'.parse "list" () = d.parse "list" () ∧ d'.run "flags off" () = d.run "flags off" () ∧
    ((d'.parse "flag off" ()).isComplete, (d.parse "flag off" ()).isComplete) = (true, false) := by
  intro flag d more d'
  have hroot : ∀ c ∈ d.tree.children 0, c.1.label.isArgument → c.1.label.name ≠ "flag" := by
    have hchildren : (d.tree.children 0).map (fun c => (c.1.label.isArgument, c.1.label.name))
        = [(false, "flag"), (false, "list"), (true, "rest")] := by decide
    intro c hc hargument hname
    have hmem : (c.1.label.isArgument, c.1.label.name) ∈ [(false, "flag"), (false, "list"), (true, "rest")] :=
      hchildren ▸ List.mem_map_of_mem hc
    rw [hname, hargument] at hmem
    revert hmem
    decide
  obtain ⟨_, hlines⟩ := registering_leaves_others_alone {} [flag, _, _] more "flag" rfl hroot
  exact ⟨rfl, hroot, (hlines "list" () (by decide)).1, (hlines "flags off" () (by decide)).2, by decide +kernel⟩

end Dispatcher

end CommandGrammar
