import CommandGrammar.Proofs.Shape

/-!
# `Proofs.Chain` — grammars without a choice

In a chain every node has one child at most, so that there is one way of reading a line and both strategies take it.

* `Declaration.chain` — a chain of declarations, each one the only child of the one before;
* `Tree.Hangs` — a chain hangs below a node, and nothing else does; `Dispatcher.hangs_registerAll_chain`;
* `Tree.outcomes_of_only` — where the only child matches, reading goes on behind that match;
* `Dispatcher.parseFrom_of_outcomes_eq` — the one way of reading is what was read.
-/

namespace CommandGrammar

variable {S : Type}

/-- A node of a chain: what it matches, and what to run when a line ends at it. -/
structure Link (S : Type) where
  /-- What the node matches. -/
  label : Label S
  /-- What to run when a line ends at the node. -/
  handler : Option (Handler S) := none

/-- Nodes one below the other. -/
def Declaration.chain : List (Link S) → List (Declaration S)
  | [] => []
  | link :: links => [{ label := link.label, handler := link.handler, children := chain links }]

/-- The node of a link, below a given one. -/
def Link.branch (link : Link S) (parent : NodeId) : Branch S :=
  ⟨parent, link.label, fun _ => true, link.handler⟩

namespace Tree

/-- The nodes of a chain that is put in where `parent` nodes stand already. -/
def chain (parent : NodeId) : List (Link S) → List (Branch S)
  | [] => []
  | link :: links => link.branch parent :: chain (parent + 1) links

/-- Below the node hangs the chain, and nothing else. -/
def Hangs (t : Tree S) (node : NodeId) : List (Link S) → Prop
  | [] => t.children node = []
  | link :: links => ∃ id, t.children node = [(link.branch node, id)] ∧ t.Hangs id links

/-! ## Putting in a chain -/

theorem le_parent_of_mem_chain {k : Nat} {links : List (Link S)} {b : Branch S} (h : b ∈ chain k links) :
    k ≤ b.parent := by
  induction links generalizing k with
  | nil => cases h
  | cons link links ih =>
    rcases List.mem_cons.mp h with rfl | hmem
    · exact Nat.le_refl k
    · exact Nat.le_of_succ_le (ih hmem)

/-- Nodes that stand below other nodes are no children. -/
theorem filter_zipIdx_eq_nil {bs : List (Branch S)} {node : NodeId} (h : ∀ b ∈ bs, b.parent ≠ node) (k : Nat) :
    (bs.zipIdx k).filter (·.1.parent == node) = [] := by
  rw [List.filter_eq_nil_iff]
  intro c hc
  simpa using h c.1 (List.fst_mem_of_mem_zipIdx hc)

/-- The last of the nodes so far has the first node of the chain as its only child. -/
theorem children_append_chain {bs : List (Branch S)} (h : Ordered ⟨bs⟩) (links : List (Link S)) :
    children ⟨bs ++ chain bs.length links⟩ bs.length
      = (links.head?.map fun link => (link.branch bs.length, bs.length + 1)).toList := by
  have hbefore : (bs.zipIdx 1).filter (·.1.parent == bs.length) = [] :=
    filter_zipIdx_eq_nil (fun b hb => Nat.ne_of_lt (h.parent_lt_of_mem hb)) 1
  rw [children, List.zipIdx_append, List.filter_append, hbefore, List.nil_append]
  cases links with
  | nil => rfl
  | cons link links =>
    have hbelow : ∀ b ∈ chain (bs.length + 1) links, b.parent ≠ bs.length :=
      fun b hb => Nat.ne_of_gt (le_parent_of_mem_chain hb)
    rw [chain, List.zipIdx_cons, List.filter_cons_of_pos (by simp [Link.branch]),
      filter_zipIdx_eq_nil hbelow, Nat.add_comm 1]
    rfl

/-- A link below the last node keeps the order. -/
theorem ordered_append_link {bs : List (Branch S)} (h : Ordered ⟨bs⟩) (link : Link S) :
    Ordered ⟨bs ++ [link.branch bs.length]⟩ :=
  h.concat (show bs.length < bs.length + 1 from Nat.lt_succ_self _)

theorem hangs_append_chain {bs : List (Branch S)} (h : Ordered ⟨bs⟩) (links : List (Link S)) :
    (⟨bs ++ chain bs.length links⟩ : Tree S).Hangs bs.length links := by
  induction links generalizing bs with
  | nil => exact children_append_chain h []
  | cons link links ih =>
    have hrest := ih (ordered_append_link h link)
    rw [List.length_append, List.length_singleton, List.append_assoc] at hrest
    exact ⟨bs.length + 1, children_append_chain h (link :: links), hrest⟩

/-- A chain that is put in below the last node is appended. -/
theorem insertAll_chain {bs : List (Branch S)} (h : Ordered ⟨bs⟩) (links : List (Link S)) :
    (⟨bs⟩ : Tree S).insertAll bs.length (Declaration.chain links) = ⟨bs ++ chain bs.length links⟩ := by
  induction links generalizing bs with
  | nil => simp [Declaration.chain, insertAll, chain]
  | cons link links ih =>
    have hchildren : children ⟨bs⟩ bs.length = [] := by
      have hnil := children_append_chain h []
      rwa [chain, List.append_nil] at hnil
    have hsettle : settle ⟨bs⟩ bs.length link.label (fun _ => true) link.handler
        = (⟨bs ++ [link.branch bs.length]⟩, bs.length + 1) := by
      simp only [settle, child?, hchildren]
      rfl
    have hrest := ih (ordered_append_link h link)
    rw [List.length_append, List.length_singleton, List.append_assoc] at hrest
    rw [Declaration.chain, insertAll, insertAll, insert]
    simp only [hsettle]
    exact hrest

/-! ## Reading by a chain -/

variable {t : Tree S}

/-- Where the only child matches, reading goes on behind that match. -/
theorem outcomes_of_only {node id : NodeId} {b : Branch S} (hchildren : t.children node = [(b, id)]) {s : Scanner}
    {trail : Trail S (Handler S)} (hlabel : b.label.isLiteral → b.label.name.toList = s.token)
    (hreq : b.requirement trail.source) {m : Matched S} (hattempt : b.attempt id s trail = .ok m) :
    t.outcomes node s trail = t.outcomesOf m := by
  have hcandidates : t.candidates node s = [(b, id)] := by
    unfold candidates arguments
    rw [hchildren]
    cases hliteral : b.label.isLiteral with
    | true => simp [hliteral, hlabel hliteral]
    | false =>
      have hargument : b.label.isArgument = true := by
        cases hb : b.label with
        | literal name => rw [hb] at hliteral; cases hliteral
        | argument name type provider => rfl
      simp [hliteral, hargument]
  have hsuccesses : successes (t.attempts node s trail) = [m] := by
    simp [attempts, hcandidates, hreq, hattempt, successes, Except.toOption]
  rw [outcomes_of_matched (by rw [hsuccesses]; exact List.cons_ne_nil _ _), hsuccesses, List.flatMap_singleton]

end Tree

namespace Dispatcher

theorem hangs_registerAll_chain (settings : Dispatch.Settings) (links : List (Link S)) :
    (({ settings } : Dispatcher S).registerAll (Declaration.chain links)).tree.Hangs 0 links := by
  have hnone : Tree.Ordered (⟨[]⟩ : Tree S) := Tree.Reachable.empty.ordered
  have hinsert := Tree.insertAll_chain hnone links
  have hhangs := Tree.hangs_append_chain hnone links
  rw [tree_registerAll]
  exact hinsert ▸ hhangs

/-- Where there is one way of reading, both strategies take it. -/
theorem parseFrom_of_outcomes_eq {d : Dispatcher S} {s : Scanner} {source : S} {p : Parse S}
    (h : d.outcomes s source = [p]) : d.parseFrom s source = p := by
  have hselect := d.select_outcomes s source
  rw [h] at hselect
  cases hstrategy : d.settings.exhaustive with
  | true =>
    rw [hstrategy] at hselect
    exact (Option.some.inj hselect).symm
  | false =>
    rw [hstrategy] at hselect
    exact (Option.some.inj hselect).symm

end Dispatcher

end CommandGrammar
