import CommandGrammar.Proofs.Access
import CommandGrammar.Proofs.Frame

/-!
# `Proofs.Shape` — a grammar is a tree, whichever way it is looked at

Dispatching, completing, listing usage and looking up names each look at the nodes in a way of their own: all
children of a node, the child of a name, the word that stands next, the arguments, the node at the end of a path.
For a tree that was built up from the empty one by adding declarations, below whatever nodes, each of these views finds
what it should.

* `Tree.Reachable` — the trees that can be built up;
* `Tree.Ordered`, `Tree.Reachable.ordered` — a node stands below one that was registered before it, so that every
  descent ends (`Tree.Ordered.length_lt_size`);
* `Tree.Reachable.exists_records` — some list of entries describes the tree, so that siblings differ in their names
  (`Tree.Reachable.eq_of_name_eq`, `Tree.Reachable.pairwise_siblings`);
* `Tree.literal?` — the word that stands next, as a view of its own; `Tree.Reachable.child?_eq_some_iff` and
  `Tree.Reachable.literal?_eq_some_iff` say what is found by name;
* `Tree.Leads`, `Tree.Reachable.find?_eq_some_iff` — the path of names to a node, and that it is found.
-/

namespace CommandGrammar

variable {S : Type}

theorem Label.eq_literal_iff {label : Label S} {name : String} :
    label = .literal name ↔ label.isLiteral ∧ label.name = name := by
  cases label with
  | literal name' => simp [Label.isLiteral, Label.name]
  | argument name' type provider => simp [Label.isLiteral]

theorem Label.isArgument_eq_not_isLiteral (label : Label S) : label.isArgument = !label.isLiteral := by
  cases label <;> rfl

/-- What is appended comes at the next position, and the others stay where they are. -/
theorem getElem?_concat {α : Type} (xs : List α) (x : α) (k : Nat) :
    (xs ++ [x])[k]? = if k = xs.length then some x else xs[k]? := by
  rcases Nat.lt_trichotomy k xs.length with hlt | rfl | hgt
  · rw [if_neg (Nat.ne_of_lt hlt), List.getElem?_append_left hlt]
  · rw [if_pos rfl, List.getElem?_concat_length]
  · rw [if_neg (Nat.ne_of_gt hgt), List.getElem?_eq_none (Nat.le_of_lt hgt), List.getElem?_eq_none (by simp; omega)]

namespace Tree

/-- **The trees that adding declarations leads to**, from the tree with nothing but the root. -/
inductive Reachable : Tree S → Prop where
  | empty : Reachable .empty
  | add {t t' : Tree S} {parent id : NodeId} {d : Declaration S} :
      Reachable t → t.add parent d = .ok (t', id) → Reachable t'

variable {t t' : Tree S}

/-! ## Nodes by their ids -/

theorem isSome_branch?_iff {id : NodeId} : (t.branch? id).isSome ↔ id ≠ 0 ∧ id < t.size := by
  cases id with
  | zero => simp [branch?]
  | succ k => simp [branch?, size]

theorem lt_size_of_branch? {id : NodeId} {b : Branch S} (h : t.branch? id = some b) : id < t.size :=
  (isSome_branch?_iff.mp (by simp [h])).2

/-- Changing a branch changes the node that it is. -/
theorem branch?_modify (t : Tree S) (k : Nat) (f : Branch S → Branch S) (id : NodeId) :
    (⟨t.branches.modify k f⟩ : Tree S).branch? id
      = if id = k + 1 then (t.branch? id).map f else t.branch? id := by
  cases id with
  | zero => rfl
  | succ j =>
    show (t.branches.modify k f)[j]? = if j + 1 = k + 1 then t.branches[j]?.map f else t.branches[j]?
    rw [List.getElem?_modify]
    by_cases hj : k = j
    · simp [hj]
    · simp [hj, Ne.symm hj]

/-- A branch that is appended is the next node. -/
theorem branch?_concat (t : Tree S) (b : Branch S) (id : NodeId) :
    (⟨t.branches ++ [b]⟩ : Tree S).branch? id = if id = t.size then some b else t.branch? id := by
  cases id with
  | zero => rfl
  | succ j =>
    show (t.branches ++ [b])[j]? = if j + 1 = t.branches.length + 1 then some b else t.branches[j]?
    rw [getElem?_concat]
    exact if_congr Nat.succ_inj.symm rfl rfl

theorem isChild_iff {parent id : NodeId} : t.IsChild parent id ↔ ∃ b, t.branch? id = some b ∧ b.parent = parent := by
  simp only [IsChild, mem_children]

theorem lt_size_of_isChild {parent id : NodeId} (h : t.IsChild parent id) : id < t.size := by
  obtain ⟨b, hbranch, _⟩ := isChild_iff.mp h
  exact lt_size_of_branch? hbranch

theorem node_eq_root_iff {id : NodeId} : t.node id = .ok .root ↔ id = 0 := by
  constructor
  · intro h
    unfold node at h
    split at h
    · assumption
    · cases hbranch : t.branch? id with
      | none => simp [hbranch] at h
      | some b => simp [hbranch] at h
  · rintro rfl
    rfl

theorem exists_node_of_lt_size {id : NodeId} (h : id < t.size) : ∃ found, t.node id = .ok found := by
  by_cases hroot : id = 0
  · exact ⟨.root, node_eq_root_iff.mpr hroot⟩
  · obtain ⟨b, hbranch⟩ := Option.isSome_iff_exists.mp (isSome_branch?_iff.mpr ⟨hroot, h⟩)
    exact ⟨.branch b, node_of_branch? hbranch⟩

/-! ## Parents come first -/

/-- Every node stands below one that was registered before it. -/
def Ordered (t : Tree S) : Prop := ∀ id b, t.branch? id = some b → b.parent < id

theorem Ordered.lt_of_isChild (h : t.Ordered) {parent id : NodeId} (hchild : t.IsChild parent id) :
    parent < id := by
  obtain ⟨b, hbranch, rfl⟩ := isChild_iff.mp hchild
  exact h id b hbranch

theorem child?_lt_size {parent id : NodeId} {name : String} (h : t.child? parent name = some id) : id < t.size := by
  obtain ⟨⟨b, _⟩, hfind, rfl⟩ := Option.map_eq_some_iff.mp h
  exact lt_size_of_branch? (branch?_of_mem_children (List.mem_of_find?_eq_some hfind))

theorem Ordered.parent_lt_of_mem (h : t.Ordered) {b : Branch S} (hb : b ∈ t.branches) :
    b.parent < t.branches.length := by
  obtain ⟨k, hk, rfl⟩ := List.mem_iff_getElem.mp hb
  have hlt : t.branches[k].parent < k + 1 := h (k + 1) _ (List.getElem?_eq_getElem hk)
  exact Nat.lt_of_lt_of_le hlt hk

/-- A new handler leaves the parent of a node alone. -/
theorem Ordered.modify (h : t.Ordered) (k : Nat) (handler : Option (Handler S)) :
    (⟨t.branches.modify k fun b => { b with handler := handler.or b.handler }⟩ : Tree S).Ordered := by
  intro id b hb
  rw [branch?_modify] at hb
  split at hb
  · obtain ⟨old, hold, rfl⟩ := Option.map_eq_some_iff.mp hb
    exact h id old hold
  · exact h id b hb

/-- A new node comes last, and its parent is one of the others. -/
theorem Ordered.concat (h : t.Ordered) {b : Branch S} (hparent : b.parent < t.size) :
    (⟨t.branches ++ [b]⟩ : Tree S).Ordered := by
  intro id b' hb'
  rw [branch?_concat] at hb'
  split at hb'
  · next hid =>
    obtain rfl := Option.some.inj hb'
    exact Nat.lt_of_lt_of_eq hparent hid.symm
  · exact h id b' hb'

/-- **Step.** Putting in one node below one that is there keeps the order and loses no node. -/
theorem Ordered.settle (h : t.Ordered) {parent : NodeId} (hparent : parent < t.size) (label : Label S)
    (requirement : S → Bool) (handler : Option (Handler S)) :
    (t.settle parent label requirement handler).1.Ordered ∧
      t.size ≤ (t.settle parent label requirement handler).1.size ∧
      (t.settle parent label requirement handler).2 < (t.settle parent label requirement handler).1.size := by
  unfold Tree.settle
  cases hchild : t.child? parent label.name with
  | some id =>
    have hsize : (⟨t.branches.modify (id - 1) fun b => { b with handler := handler.or b.handler }⟩ : Tree S).size
        = t.size := by simp [size]
    exact ⟨h.modify _ _, Nat.le_of_eq hsize.symm, Nat.lt_of_lt_of_eq (child?_lt_size hchild) hsize.symm⟩
  | none => exact ⟨h.concat hparent, by simp [size], by simp [size]⟩

mutual

/-- **Run.** Putting in a declaration below a node that is there keeps the order and loses no node. -/
theorem Ordered.insert {t : Tree S} (h : t.Ordered) {parent : NodeId} (hparent : parent < t.size) :
    (d : Declaration S) → (t.insert parent d).Ordered ∧ t.size ≤ (t.insert parent d).size
  | ⟨label, requirement, handler, children⟩ => by
    obtain ⟨hordered, hle, hlt⟩ := h.settle hparent label requirement handler
    obtain ⟨hordered', hle'⟩ := Ordered.insertAll hordered hlt children
    rw [Tree.insert]
    exact ⟨hordered', Nat.le_trans hle hle'⟩

theorem Ordered.insertAll {t : Tree S} (h : t.Ordered) {parent : NodeId} (hparent : parent < t.size) :
    (ds : List (Declaration S)) → (t.insertAll parent ds).Ordered ∧ t.size ≤ (t.insertAll parent ds).size
  | [] => by
    rw [Tree.insertAll]
    exact ⟨h, Nat.le_refl _⟩
  | d :: ds => by
    obtain ⟨hordered, hle⟩ := Ordered.insert h hparent d
    obtain ⟨hordered', hle'⟩ := Ordered.insertAll hordered (Nat.lt_of_lt_of_le hparent hle) ds
    rw [Tree.insertAll]
    exact ⟨hordered', Nat.le_trans hle hle'⟩

end

/-- What adding comes to, where it comes to anything. -/
theorem add_eq_ok {parent id : NodeId} {d : Declaration S} (h : t.add parent d = .ok (t', id)) :
    parent < t.size ∧ t' = t.insert parent d := by
  unfold Tree.add at h
  split at h
  · next hparent =>
    cases h
    exact ⟨hparent, rfl⟩
  · cases h

theorem Reachable.insert (h : t.Reachable) {parent : NodeId} (hparent : parent < t.size) (d : Declaration S) :
    (t.insert parent d).Reachable := .add h (if_pos hparent)

theorem Reachable.ordered (h : t.Reachable) : t.Ordered := by
  induction h with
  | empty =>
    intro id b hb
    cases id <;> cases hb
  | add _ hadd ih =>
    obtain ⟨hparent, rfl⟩ := add_eq_ok hadd
    exact (ih.insert hparent _).1

/-- On the way down the ids grow, so that `first + k` is a bound for the `k`-th of them. -/
theorem Ordered.add_length_lt_size (h : t.Ordered) {first : NodeId} {nodes : List NodeId} (hfirst : first < t.size)
    (hchain : List.IsChain t.IsChild (first :: nodes)) : first + nodes.length < t.size := by
  induction nodes generalizing first with
  | nil => exact hfirst
  | cons next nodes ih =>
    obtain ⟨hchild, hrest⟩ := List.isChain_cons_cons.mp hchain
    have hnext : first < next := h.lt_of_isChild hchild
    calc first + (nodes.length + 1) = (first + 1) + nodes.length := by ac_rfl
      _ ≤ next + nodes.length := Nat.add_le_add_right hnext _
      _ < t.size := ih (lt_size_of_isChild hchild) hrest

/-- **Every descent ends**: going down from child to child passes fewer nodes than there are. -/
theorem Ordered.length_lt_size (h : t.Ordered) {first : NodeId} {nodes : List NodeId}
    (hchain : List.IsChain t.IsChild (first :: nodes)) : nodes.length < t.size := by
  cases nodes with
  | nil => simp [size]
  | cons next nodes =>
    -- A node with a child is a node of the tree.
    obtain ⟨hchild, _⟩ := List.isChain_cons_cons.mp hchain
    have hfirst : first < t.size := Nat.lt_trans (h.lt_of_isChild hchild) (lt_size_of_isChild hchild)
    exact Nat.lt_of_le_of_lt (Nat.le_add_left _ first) (h.add_length_lt_size hfirst hchain)

/-! ## Siblings differ in their names -/

/-- Every node has the number of a path, the root that of the empty one. -/
theorem Records.exists_idOf {es : List (Entry S)} (h : t.Records es) {id : NodeId} (hid : id < t.size) :
    ∃ p ∈ [] :: Entry.paths es, Entry.idOf es p = id := by
  by_cases hroot : id = 0
  · exact ⟨[], List.mem_cons_self, (Entry.idOf_nil es).trans hroot.symm⟩
  · obtain ⟨b, hbranch⟩ := Option.isSome_iff_exists.mp (isSome_branch?_iff.mpr ⟨hroot, hid⟩)
    obtain ⟨p, hp, hpid⟩ := h.exists_path hbranch
    exact ⟨p, List.mem_cons_of_mem _ hp, hpid⟩

/-- Whatever was added, some list of entries describes the tree. -/
theorem Reachable.exists_records (h : t.Reachable) : ∃ es, t.Records es := by
  induction h with
  | empty => exact ⟨[], records_empty⟩
  | @add t t' parent id d _ hadd ih =>
    obtain ⟨es, hrecords⟩ := ih
    obtain ⟨hparent, rfl⟩ := add_eq_ok hadd
    obtain ⟨above, habove, rfl⟩ := hrecords.exists_idOf hparent
    exact ⟨_, hrecords.insert habove d⟩

/-- **Below a node a name stands for one child.** -/
theorem Reachable.eq_of_name_eq (h : t.Reachable) {node : NodeId} {c c' : Branch S × NodeId}
    (hc : c ∈ t.children node) (hc' : c' ∈ t.children node) (hname : c.1.label.name = c'.1.label.name) :
    c = c' := by
  obtain ⟨es, hrecords⟩ := h.exists_records
  obtain ⟨b, id⟩ := c
  obtain ⟨b', id'⟩ := c'
  have hchild : t.IsChild node id := ⟨b, hc⟩
  have hnode : node < t.size := Nat.lt_trans (h.ordered.lt_of_isChild hchild) (lt_size_of_isChild hchild)
  obtain ⟨q, _, rfl⟩ := hrecords.exists_idOf hnode
  obtain ⟨_, hid, hbranch⟩ := hrecords.mem_children_iff.mp hc
  obtain ⟨_, hid', hbranch'⟩ := hrecords.mem_children_iff.mp hc'
  -- Both are what stands at the one path that their name leads to.
  rw [show b'.label.name = b.label.name from hname.symm] at hid' hbranch'
  rw [hid, hid', Option.some.inj (hbranch.symm.trans hbranch')]

/-- A look-up among the children of a node by name and kind finds the one child of that name and kind. -/
theorem Reachable.find?_children_eq_some_iff (h : t.Reachable) (kind : Label S → Bool) {node : NodeId}
    {name : String} {c : Branch S × NodeId} :
    (t.children node).find? (fun c => kind c.1.label && c.1.label.name == name) = some c ↔
      c ∈ t.children node ∧ kind c.1.label ∧ c.1.label.name = name := by
  constructor
  · intro hfind
    have hfound := List.find?_some hfind
    rw [Bool.and_eq_true, beq_iff_eq] at hfound
    exact ⟨List.mem_of_find?_eq_some hfind, hfound⟩
  · rintro ⟨hc, hkind, hname⟩
    obtain ⟨found, hfind⟩ : ∃ found, (t.children node).find?
        (fun c => kind c.1.label && c.1.label.name == name) = some found := by
      rw [← Option.isSome_iff_exists, List.find?_isSome]
      exact ⟨c, hc, by simp [hkind, hname]⟩
    have hfound := List.find?_some hfind
    rw [Bool.and_eq_true, beq_iff_eq] at hfound
    rw [hfind, h.eq_of_name_eq hc (List.mem_of_find?_eq_some hfind) (hname.trans hfound.2.symm)]

/-! ## The views -/

/-- The child of a node that is a given word. -/
def literal? (t : Tree S) (id : NodeId) (name : String) : Option (Branch S × NodeId) :=
  (t.children id).find? fun c => c.1.label.isLiteral && c.1.label.name == name

/-- The candidates are the word that stands next, or else the arguments. -/
theorem candidates_eq_literal? (t : Tree S) (id : NodeId) (s : Scanner) :
    t.candidates id s = (t.literal? id (String.ofList s.token)).elim (t.arguments id) fun c => [c] := by
  have htoken : (fun c : Branch S × NodeId => c.1.label.isLiteral && c.1.label.name.toList == s.token)
      = fun c => c.1.label.isLiteral && c.1.label.name == String.ofList s.token := by
    funext c
    rw [Bool.eq_iff_iff, Bool.and_eq_true, Bool.and_eq_true, beq_iff_eq, beq_iff_eq, ← String.toList_inj,
      String.toList_ofList]
  unfold candidates literal?
  rw [htoken]
  cases (t.children id).find? fun c => c.1.label.isLiteral && c.1.label.name == String.ofList s.token <;> rfl

theorem Reachable.child?_eq_some_iff (h : t.Reachable) {id child : NodeId} {name : String} :
    t.child? id name = some child ↔ ∃ b, (b, child) ∈ t.children id ∧ b.label.name = name := by
  have hiff : ∀ b, (t.children id).find? (fun c => c.1.label.name == name) = some (b, child) ↔
      (b, child) ∈ t.children id ∧ b.label.name = name := by
    intro b
    simpa using h.find?_children_eq_some_iff fun _ => true
  rw [child?, Option.map_eq_some_iff]
  constructor
  · rintro ⟨⟨b, _⟩, hfind, rfl⟩
    exact ⟨b, (hiff b).mp hfind⟩
  · rintro ⟨b, hb⟩
    exact ⟨(b, child), (hiff b).mpr hb, rfl⟩

theorem Reachable.literal?_eq_some_iff (h : t.Reachable) {id : NodeId} {name : String} {c : Branch S × NodeId} :
    t.literal? id name = some c ↔ c ∈ t.children id ∧ c.1.label = .literal name := by
  rw [literal?, h.find?_children_eq_some_iff Label.isLiteral, Label.eq_literal_iff]

/-! ## Paths of names -/

/-- The names lead from the root to the node, child by child. -/
inductive Leads (t : Tree S) : List String → NodeId → Prop where
  | root : Leads t [] 0
  | child {p : List String} {parent id : NodeId} {b : Branch S} :
      Leads t p parent → (b, id) ∈ t.children parent → Leads t (p ++ [b.label.name]) id

/-- **A path of names is found exactly where it leads.** -/
theorem Reachable.find?_eq_some_iff (h : t.Reachable) {p : List String} {id : NodeId} :
    t.find? p = some id ↔ t.Leads p id := by
  constructor
  · induction p using List.reverseRecOn generalizing id with
    | nil =>
      intro hfind
      obtain rfl : 0 = id := Option.some.inj hfind
      exact .root
    | append_singleton q name ih =>
      intro hfind
      rw [find?_concat, Option.bind_eq_some_iff] at hfind
      obtain ⟨parent, hparent, hchild⟩ := hfind
      obtain ⟨b, hb, rfl⟩ := h.child?_eq_some_iff.mp hchild
      exact .child (ih hparent) hb
  · intro hleads
    induction hleads with
    | root => rfl
    | child _ hb ih =>
      rw [find?_concat, ih, Option.bind_some]
      exact h.child?_eq_some_iff.mpr ⟨_, hb, rfl⟩

/-- Every node has a path of names: that of its parent, which was registered before it, and its own name. -/
theorem Ordered.exists_leads (h : t.Ordered) (id : NodeId) (hid : id < t.size) : ∃ p, t.Leads p id := by
  by_cases hroot : id = 0
  · exact ⟨[], hroot ▸ .root⟩
  · obtain ⟨b, hbranch⟩ := Option.isSome_iff_exists.mp (isSome_branch?_iff.mpr ⟨hroot, hid⟩)
    have hparent : b.parent < id := h id b hbranch
    obtain ⟨p, hp⟩ := h.exists_leads b.parent (Nat.lt_trans hparent hid)
    exact ⟨_, hp.child (mem_children.mpr ⟨hbranch, rfl⟩)⟩
termination_by id

/-- It has only one. -/
theorem Leads.unique {p q : List String} {id : NodeId} (hp : t.Leads p id) (hq : t.Leads q id) : p = q := by
  induction hp generalizing q with
  | root =>
    cases hq with
    | root => rfl
    | child _ hb => exact absurd ⟨_, hb⟩ not_isChild_root
  | @child p parent id b _ hb ih =>
    cases hq with
    | root => exact absurd ⟨_, hb⟩ not_isChild_root
    | @child q parent' _ b' hq hb' =>
      obtain rfl : parent = parent' := IsChild.parent_unique ⟨b, hb⟩ ⟨b', hb'⟩
      obtain rfl : b = b' :=
        Option.some.inj ((branch?_of_mem_children hb).symm.trans (branch?_of_mem_children hb'))
      rw [ih hq]

/-- Children come in the order of registration and differ in their names. -/
theorem Reachable.pairwise_siblings (h : t.Reachable) (id : NodeId) :
    (t.children id).Pairwise fun a b => a.2 < b.2 ∧ a.1.label.name ≠ b.1.label.name := by
  refine (t.pairwise_children id).imp_of_mem ?_
  intro a b ha hb hlt
  refine ⟨hlt, fun hname => ?_⟩
  rw [h.eq_of_name_eq ha hb hname] at hlt
  exact Nat.lt_irrefl _ hlt

end Tree

/-- Registering commands adds them below the root. -/
theorem Dispatcher.reachable_registerAll {d : Dispatcher S} (h : d.tree.Reachable)
    (declarations : List (Declaration S)) : (d.registerAll declarations).tree.Reachable := by
  induction declarations generalizing d with
  | nil => exact h
  | cons declaration declarations ih => exact ih (h.insert (Nat.succ_pos _) declaration)

end CommandGrammar
