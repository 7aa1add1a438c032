import CommandGrammar.Dispatch
import CommandGrammar.Proofs.Path
import CommandGrammar.Proofs.Recast
import Mathlib.Logic.Relation

/-!
# `Proofs.Access` — requirements are respected at every depth

A node may be restricted to some sources. This module shows that the search honours every restriction on its
way and learns nothing else about the source:

* `Tree.Outcome.granted` — along every way of reading, each node that matched and each node that failed is
  open to the source;
* `Tree.mem_path_of_above` — the nodes above a node are on the path to it, since a node has one parent, so a
  handler that runs lies below open nodes only;
* `Tree.respects_onBehalfOf` — two sources that every node answers alike are treated alike at every level, so a
  line is read in the same way for both.
-/

namespace CommandGrammar

variable {S : Type}

/-! ## Open nodes -/

namespace Tree

/-- The node with an id is open to the source. -/
def Admits (t : Tree S) (source : S) (id : NodeId) : Prop :=
  ∃ node, t.node id = .ok node ∧ node.allows source

/-- `above` is the node `id` or one of the nodes above it. -/
def Above (t : Tree S) : NodeId → NodeId → Prop := Relation.ReflTransGen t.IsChild

/-- Every node of the tree answers the two sources alike. -/
def Agree (t : Tree S) (source other : S) : Prop :=
  ∀ id node, t.node id = .ok node → node.allows source = node.allows other

variable {t : Tree S}

theorem node_of_branch? {id : NodeId} {b : Branch S} (h : t.branch? id = some b) :
    t.node id = .ok (.branch b) := by
  cases id with
  | zero => cases h
  | succ k => simp [node, h]

theorem admits_root (t : Tree S) (source : S) : t.Admits source 0 := ⟨.root, rfl, rfl⟩

theorem admits_of_branch? {source : S} {id : NodeId} {b : Branch S} (h : t.branch? id = some b)
    (hreq : b.requirement source) : t.Admits source id :=
  ⟨.branch b, node_of_branch? h, hreq⟩

theorem Admits.requirement {source : S} {id : NodeId} {b : Branch S} (h : t.Admits source id)
    (hbranch : t.branch? id = some b) : b.requirement source := by
  obtain ⟨node, hnode, hallows⟩ := h
  rw [node_of_branch? hbranch] at hnode
  obtain rfl := Except.ok.inj hnode
  exact hallows

theorem Agree.requirement_eq {source other : S} (h : t.Agree source other) {id : NodeId} {b : Branch S}
    (hbranch : t.branch? id = some b) : b.requirement source = b.requirement other :=
  h id (.branch b) (node_of_branch? hbranch)

/-! ## What is matched is open -/

/-- The trail was made on behalf of the source and passed open nodes only. -/
def Granted (t : Tree S) (source : S) (trail : Trail S (Handler S)) : Prop :=
  trail.source = source ∧ ∀ step ∈ trail.steps, t.Admits source step.node

variable {source : S} {node : NodeId} {s : Scanner} {trail : Trail S (Handler S)}

/-- A match only adds a node that is open. -/
theorem Granted.extend (h : t.Granted source trail) {m : Matched S}
    (hm : m ∈ successes (t.attempts node s trail)) : t.Granted source m.trail := by
  obtain ⟨b, id, hmem, hreq, hattempt⟩ := mem_successes_iff.mp hm
  obtain ⟨range, _, _, hsteps, _, _, hsource⟩ := Branch.steps_of_attempt hattempt
  have hbranch := branch?_of_mem_children (mem_children_of_mem_candidates hmem)
  refine ⟨hsource.trans h.1, fun step hstep => ?_⟩
  rw [hsteps, List.mem_append, List.mem_singleton] at hstep
  rcases hstep with hstep | rfl
  · exact h.2 step hstep
  · rw [h.1] at hreq
    exact admits_of_branch? hbranch hreq

/-- Only candidates that are open can fail. -/
theorem admits_of_mem_failures (h : t.Granted source trail) {failure : NodeId × Error}
    (hmem : failure ∈ failures (t.attempts node s trail)) : t.Admits source failure.1 := by
  obtain ⟨b, hcandidate, hreq, _⟩ := mem_failures_iff.mp hmem
  rw [h.1] at hreq
  exact admits_of_branch? (branch?_of_mem_children (mem_children_of_mem_candidates hcandidate)) hreq

/-- **Every way of reading keeps to open nodes**, both where it matched and where it failed. -/
theorem Outcome.granted {p : Parse S} (h : t.Outcome node s trail p)
    (hgranted : t.Granted source trail) :
    t.Granted source p.trail ∧ ∀ failure ∈ p.errors, t.Admits source failure.1 := by
  induction h with
  | stalled _ => exact ⟨hgranted, fun failure hmem => admits_of_mem_failures hgranted hmem⟩
  | finished hm _ => exact ⟨hgranted.extend hm, by simp⟩
  | followed hm _ _ ih => exact ih (hgranted.extend hm)

/-! ## What stands above a node -/

theorem IsChild.parent_unique {a b id : NodeId} (ha : t.IsChild a id) (hb : t.IsChild b id) : a = b := by
  obtain ⟨c, hc⟩ := ha
  obtain ⟨e, he⟩ := hb
  obtain ⟨hcbranch, hcparent⟩ := mem_children.mp hc
  obtain ⟨hebranch, heparent⟩ := mem_children.mp he
  rw [hcbranch] at hebranch
  obtain rfl : c = e := Option.some.inj hebranch
  exact hcparent.symm.trans heparent

/-- The root is nobody's child. -/
theorem not_isChild_root {a : NodeId} : ¬ t.IsChild a 0 := by
  rintro ⟨b, hb⟩
  cases branch?_of_mem_children hb

/-- On a path each node but the first has its parent on the path. -/
theorem exists_parent_of_mem_path {first : NodeId} {nodes : List NodeId}
    (hpath : List.IsChain t.IsChild (first :: nodes)) {id : NodeId} (hid : id ∈ nodes) :
    ∃ parent ∈ first :: nodes, t.IsChild parent id := by
  induction nodes generalizing first with
  | nil => cases hid
  | cons next nodes ih =>
    obtain ⟨hchild, hrest⟩ := List.isChain_cons_cons.mp hpath
    rcases List.mem_cons.mp hid with rfl | hid
    · exact ⟨first, List.mem_cons_self, hchild⟩
    · obtain ⟨parent, hparent, hparentChild⟩ := ih hrest hid
      exact ⟨parent, List.mem_cons_of_mem _ hparent, hparentChild⟩

/-- **Whatever stands above a node of a path is on the path.** -/
theorem mem_path_of_above {nodes : List NodeId} (hpath : List.IsChain t.IsChild (0 :: nodes))
    {id above : NodeId} (hid : id ∈ 0 :: nodes) (habove : t.Above above id) : above ∈ 0 :: nodes := by
  -- Climbing from `id`: a child on the path is not the root, so its parent is on the path too.
  induction habove using Relation.ReflTransGen.head_induction_on with
  | refl => exact hid
  | @head above child hchild _ ih =>
    rcases List.mem_cons.mp ih with rfl | hmem
    · exact absurd hchild not_isChild_root
    · obtain ⟨parent, hparent, hparentChild⟩ := exists_parent_of_mem_path hpath hmem
      rw [hchild.parent_unique hparentChild]
      exact hparent

end Tree

/-- A handler that is run belongs to the last node of the path, and everything above it is on the path. -/
theorem Dispatcher.handlerOf_eq_ok {d : Dispatcher S} {p : Parse S} {handler : Handler S} {text : String}
    {start : Nat} (htraces : d.tree.Traces text start p.trail) (h : d.handlerOf p = .ok handler) :
    ∃ last ∈ p.trail.steps.getLast?, d.tree.handlerAt? last.node = some handler ∧
      ∀ above, d.tree.Above above last.node → above ∈ 0 :: p.trail.steps.map Step.node := by
  unfold Dispatcher.handlerOf at h
  split at h
  · cases h
  · split at h
    · cases h
    · split at h
      · next found hfound =>
        obtain rfl : found = handler := Except.ok.inj h
        rw [htraces.handler, Option.bind_eq_some_iff] at hfound
        obtain ⟨last, hlast, hhandler⟩ := hfound
        have hmem : last.node ∈ 0 :: p.trail.steps.map Step.node :=
          List.mem_cons_of_mem _ (List.mem_map_of_mem (List.mem_of_getLast? hlast))
        exact ⟨last, hlast, hhandler, fun above => Tree.mem_path_of_above htraces.path hmem⟩
      · cases h

/-! ## Two sources -/

/-- The same trail on behalf of another source. -/
def Trail.onBehalfOf {H : Type} (trail : Trail S H) (source : S) : Trail S H := { trail with source }

/-- The same result on behalf of another source. -/
def Parse.onBehalfOf (p : Parse S) (source : S) : Parse S :=
  { p with trail := p.trail.onBehalfOf source }

/-- Reading on behalf of another source, as a change that the search does not notice. -/
def Recast.onBehalfOf (source : S) : Recast S := ⟨id, (·.onBehalfOf source), id⟩

theorem Recast.parse_onBehalfOf (source : S) (p : Parse S) :
    (Recast.onBehalfOf source).parse p = p.onBehalfOf source := by
  simp [Recast.parse, Recast.onBehalfOf, Parse.onBehalfOf]

/-- Matching a label does not look at the source. -/
theorem Label.read_onBehalfOf (label : Label S) (id : NodeId) (s : Scanner)
    (trail : Trail S (Handler S)) (other : S) :
    label.read id s (trail.onBehalfOf other) = (label.read id s trail).map (·.onBehalfOf other) := by
  cases label with
  | literal name =>
    simp only [Label.read]
    split <;> rfl
  | argument name type provider =>
    simp only [Label.read]
    cases type.capture s <;> rfl

/-- Neither does an attempt. -/
theorem Branch.attempt_onBehalfOf (b : Branch S) (id : NodeId) (s : Scanner)
    (trail : Trail S (Handler S)) (other : S) :
    b.attempt id s (trail.onBehalfOf other)
      = (Recast.onBehalfOf other).attempted (b.attempt id s trail) := by
  unfold Branch.attempt
  rw [Label.read_onBehalfOf]
  cases b.label.read id s trail with
  | error e u => rfl
  | ok trail' u =>
    simp only [Scanned.map]
    split <;> rfl

namespace Tree

variable {t : Tree S} {node : NodeId} {s : Scanner} {trail : Trail S (Handler S)} {other : S}

/-- The attempts at a node depend on the source only through the answers of the nodes. -/
theorem attempts_onBehalfOf (h : t.Agree trail.source other) :
    t.attempts node s (trail.onBehalfOf other)
      = (t.attempts node s trail).map fun c => (c.1, (Recast.onBehalfOf other).attempted c.2) := by
  have hfilter : ((t.candidates node s).filter fun c => c.1.requirement other)
      = (t.candidates node s).filter fun c => c.1.requirement trail.source := by
    apply List.filter_congr
    rintro ⟨b, id⟩ hmem
    exact (h.requirement_eq (branch?_of_mem_children (mem_children_of_mem_candidates hmem))).symm
  show (((t.candidates node s).filter fun c => c.1.requirement other).map _) = _
  rw [hfilter, attempts, List.map_map]
  apply List.map_congr_left
  rintro ⟨b, id⟩ _
  exact congrArg (Prod.mk id) (b.attempt_onBehalfOf id s trail other)

theorem source_of_mem_successes {m : Matched S} (hm : m ∈ successes (t.attempts node s trail)) :
    m.trail.source = trail.source := by
  obtain ⟨b, id, _, _, hattempt⟩ := mem_successes_iff.mp hm
  obtain ⟨_, _, _, _, _, _, hsource⟩ := Branch.steps_of_attempt hattempt
  exact hsource

/-- **Two sources that every node answers alike are treated alike**, level by level. -/
theorem respects_onBehalfOf (t : Tree S) (other : S) :
    (Recast.onBehalfOf other).Respects t fun trail => t.Agree trail.source other where
  rest _ := rfl
  skip _ := rfl
  attempts _ _ _ hagree := attempts_onBehalfOf hagree
  good_of_mem node s trail m hagree hm := by
    rw [source_of_mem_successes hm]
    exact hagree

end Tree

namespace Dispatcher

/-- **The search sees nothing of the source but the answers of the nodes.** -/
theorem parseFrom_onBehalfOf (d : Dispatcher S) (s : Scanner) {source other : S}
    (h : d.tree.Agree source other) :
    d.parseFrom s other = (d.parseFrom s source).onBehalfOf other := by
  rw [← Recast.parse_onBehalfOf]
  exact (d.tree.respects_onBehalfOf other).parseFrom_eq h rfl

/-- **Requirements guard every depth, and nothing else about the source matters.** Each node on the path and
    each node with a recorded error is open to the source. If a handler runs, it is that of the last node on
    the path, and this node and every node above it are open; if none may run, the source stays as it was.
    And two sources that all nodes answer alike get the same result, but for the source in it. -/
theorem requirements_guard_parseFrom (d : Dispatcher S) (s : Scanner) (source : S) :
    let p := d.parseFrom s source
    (∀ step ∈ p.trail.steps, d.tree.Admits source step.node) ∧
    (∀ failure ∈ p.errors, d.tree.Admits source failure.1) ∧
    (∀ handler, d.handlerOf p = .ok handler →
      d.execute p = handler (p.trail.build p.input) ∧
      ∃ last ∈ p.trail.steps.getLast?, d.tree.handlerAt? last.node = some handler ∧
        ∀ above, d.tree.Above above last.node → d.tree.Admits source above) ∧
    (∀ e, d.handlerOf p = .error e → d.execute p = (.error e, source)) ∧
    (∀ other, d.tree.Agree source other → d.parseFrom s other = p.onBehalfOf other) := by
  intro p
  have hstart : d.tree.Granted source (Trail.start source 0 s.cursor) := ⟨rfl, by simp [Trail.start]⟩
  have houtcome : d.tree.Outcome 0 s (Trail.start source 0 s.cursor) p := d.outcome_parseFrom s source
  obtain ⟨⟨hsource, hsteps⟩, herrors⟩ := houtcome.granted hstart
  refine ⟨hsteps, herrors, ?_, ?_, fun other hagree => d.parseFrom_onBehalfOf s hagree⟩
  · intro handler hhandler
    refine ⟨by simp only [execute, hhandler], ?_⟩
    have htraces := houtcome.traces (d.tree.stands_start s source)
    obtain ⟨last, hlast, hlastHandler, habove⟩ := handlerOf_eq_ok htraces hhandler
    refine ⟨last, hlast, hlastHandler, fun above h => ?_⟩
    rcases List.mem_cons.mp (habove above h) with rfl | hmem
    · exact d.tree.admits_root source
    · obtain ⟨step, hstep, rfl⟩ := List.mem_map.mp hmem
      exact hsteps step hstep
  · intro e he
    simp only [execute, he]
    rw [hsource]

/-- A command for sources of level 2 and above answers levels 3 and 5 alike, so both read it in the same
    way and both may run it. -/
theorem requirements_guard_levels :
    let d := ({} : Dispatcher Nat).registerAll
      [((Declaration.literal "op").requires (2 ≤ ·)).runs fun c => (.ok (), c.source)]
    let s := Scanner.ofString "op"
    d.tree.Agree 3 5 ∧ d.parseFrom s 5 = (d.parseFrom s 3).onBehalfOf 5 ∧
      d.tree.Admits 3 1 ∧ (d.parseFrom s 3).trail.steps.map Step.node = [1] := by
  intro d s
  have hagree : d.tree.Agree 3 5 := by
    intro id node hnode
    match id with
    | 0 =>
      obtain rfl : Node.root = node := Except.ok.inj hnode
      rfl
    | 1 =>
      obtain rfl : Node.branch _ = node := Except.ok.inj hnode
      rfl
    | k + 2 => cases hnode
  have hguard := d.requirements_guard_parseFrom s 3
  have hnodes : (d.parseFrom s 3).trail.steps.map Step.node = [1] := by decide
  obtain ⟨step, hstep, hnode⟩ : ∃ step ∈ (d.parseFrom s 3).trail.steps, step.node = 1 := by
    rw [← List.mem_map, hnodes]
    exact List.mem_cons_self
  exact ⟨hagree, hguard.2.2.2.2 5 hagree, hnode ▸ hguard.1 step hstep, hnodes⟩

end Dispatcher

end CommandGrammar
