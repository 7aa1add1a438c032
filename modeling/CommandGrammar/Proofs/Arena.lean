import CommandGrammar.Proofs.Shape
import CommandGrammar.Tree.Arena

/-!
# `Proofs.Arena` — the indexes of a grammar never drift

In memory a node stores its children in four ways, and putting in a declaration has to keep all of them up to date,
node by node, whether a name is new or taken. They are exact because a step keeps them so: the arena *mirrors* the tree
into which the same declarations were put.

* `Tree.children_modify`, `Tree.children_concat` — what a step does to the children of each node;
* `Cell.Indexes` — the four ways agree with one list of children; `Cell.Indexes.link` enters one more child;
* `Arena.Mirrors` — every cell is the node of the tree, with exact indexes. `Arena.Mirrors.settle` is the step,
  `Arena.Mirrors.add` the run over a declaration with everything below it, and `Arena.Mirrors.add_or_unknown` says that
  both sides refuse the same parents;
* `Arena.Mirrors.find_eq`, `Arena.Mirrors.candidates_eq` — so looking up by the indexes finds what the tree says;
* `Arena.Reachable`, `Cell.Exact`, `Arena.Coherent` — the arenas that can be built up, and what holds of all of them.
-/

namespace CommandGrammar

variable {S : Type}

/-! ## The children of a tree that grows -/

namespace Tree

/-- Changing a branch, but not its parent, changes it where it stands among the children. -/
theorem children_modify (t : Tree S) (k : Nat) {f : Branch S → Branch S} (hparent : ∀ b, (f b).parent = b.parent)
    (node : NodeId) :
    (⟨t.branches.modify k f⟩ : Tree S).children node
      = (t.children node).map fun c => if c.2 = k + 1 then (f c.1, c.2) else c := by
  have hzip : (t.branches.modify k f).zipIdx 1
      = (t.branches.zipIdx 1).map fun c => if c.2 = k + 1 then (f c.1, c.2) else c := by
    apply List.ext_getElem?
    intro j
    rw [List.getElem?_zipIdx, List.getElem?_modify, List.getElem?_map, List.getElem?_zipIdx]
    cases t.branches[j]? with
    | none => rfl
    | some b =>
      by_cases hj : k = j
      · simp [hj, Nat.add_comm 1]
      · have hne : ¬ 1 + j = k + 1 := by omega
        simp [hj, hne]
  unfold children
  rw [hzip, List.filter_map]
  congr 1
  apply List.filter_congr
  intro c _
  dsimp only [Function.comp]
  split
  · rw [hparent]
  · rfl

/-- A branch that is appended comes last among the children of its parent. -/
theorem children_concat (t : Tree S) (b : Branch S) (node : NodeId) :
    (⟨t.branches ++ [b]⟩ : Tree S).children node
      = t.children node ++ if b.parent = node then [(b, t.size)] else [] := by
  unfold children
  rw [List.zipIdx_append, List.filter_append, List.zipIdx_singleton, Nat.add_comm 1]
  by_cases hparent : b.parent = node
  · simp [hparent, size]
  · simp [hparent]

/-- The next node has no children yet, since every node stands below one that was registered before it. -/
theorem Ordered.children_size {t : Tree S} (h : t.Ordered) : t.children t.size = [] := by
  rw [List.eq_nil_iff_forall_not_mem]
  rintro ⟨b, id⟩ hb
  have hchild : t.IsChild t.size id := ⟨b, hb⟩
  exact Nat.lt_asymm (h.lt_of_isChild hchild) (lt_size_of_isChild hchild)

end Tree

/-! ## The indexes of a cell -/

namespace Index

variable {index : Index}

theorem find?_insert (name : String) (id : NodeId) (other : String) :
    (index.insert name id).find? other = if name = other then some id else index.find? other :=
  lookup_replace name id other

theorem find?_of_isEmpty (h : index.isEmpty) (name : String) : index.find? name = none := by
  rw [find?, List.isEmpty_iff.mp h]
  rfl

theorem isEmpty_eq_false_iff : index.isEmpty = false ↔ ∃ name id, index.find? name = some id := by
  constructor
  · intro h
    obtain ⟨⟨name, id⟩, entries, hentries⟩ := List.exists_cons_of_ne_nil (List.isEmpty_eq_false_iff.mp h)
    exact ⟨name, id, by rw [find?, hentries, List.lookup_cons_self]⟩
  · rintro ⟨name, id, hfind⟩
    by_contra hempty
    rw [find?_of_isEmpty (Bool.of_not_eq_false hempty)] at hfind
    cases hfind

/-- **The index holds the children of a kind**, each under its name; of those that share a name, the first. -/
def Holds (index : Index) (kind : Label S → Bool) (children : List (Branch S × NodeId)) : Prop :=
  ∀ name, index.find? name = (children.find? fun c => kind c.1.label && c.1.label.name == name).map Prod.snd

namespace Holds

variable {kind : Label S → Bool} {children : List (Branch S × NodeId)}

theorem nil : ({} : Index).Holds kind [] := fun _ => rfl

theorem map (h : index.Holds kind children) {g : Branch S × NodeId → Branch S × NodeId} (hid : ∀ c, (g c).2 = c.2)
    (hlabel : ∀ c, (g c).1.label = c.1.label) : index.Holds kind (children.map g) := by
  intro name
  rw [h, List.find?_map, Option.map_map, show Prod.snd ∘ g = Prod.snd from funext hid]
  simp only [Function.comp_def, hlabel]

/-- A child of the kind is entered under a name that is new among the children. -/
theorem insert (h : index.Holds kind children) {b : Branch S} (id : NodeId) (hkind : kind b.label)
    (hnew : ∀ c ∈ children, c.1.label.name ≠ b.label.name) :
    (index.insert b.label.name id).Holds kind (children ++ [(b, id)]) := by
  intro name
  rw [find?_insert, h, List.find?_append]
  by_cases hname : b.label.name = name
  · have hnone : children.find? (fun c => kind c.1.label && c.1.label.name == name) = none := by
      rw [List.find?_eq_none]
      intro c hc hfound
      exact hnew c hc ((beq_iff_eq.mp (Bool.and_eq_true_iff.mp hfound).2).trans hname.symm)
    rw [hnone]
    simp [hname, hkind]
  · simp [hname]

/-- A child of another kind is not entered. -/
theorem skip (h : index.Holds kind children) {b : Branch S} (id : NodeId) (hkind : ¬ kind b.label) :
    index.Holds kind (children ++ [(b, id)]) := by
  intro name
  rw [h, List.find?_append]
  simp [hkind]

end Holds

end Index

namespace Cell

/-- **The cell stores the children in all four ways.** -/
structure Indexes (cell : Cell S) (children : List (Branch S × NodeId)) : Prop where
  /-- All of them, in their order. -/
  children_eq : cell.children = children.map Prod.snd
  /-- All of them, by their names. -/
  byName : cell.byName.Holds (fun _ => true) children
  /-- The words, by their names. -/
  literals : cell.literals.Holds Label.isLiteral children
  /-- The arguments, in their order. -/
  arguments_eq : cell.arguments = (children.filter (·.1.label.isArgument)).map Prod.snd

namespace Indexes

variable {cell : Cell S} {children : List (Branch S × NodeId)}

theorem nil {label : Option (Label S)} {requirement : S → Bool} {handler : Option (Handler S)} :
    ({ label, requirement, handler } : Cell S).Indexes [] := ⟨rfl, .nil, .nil, rfl⟩

/-- What is run at the children does not matter, nor who may use them. -/
theorem map (h : cell.Indexes children) {g : Branch S × NodeId → Branch S × NodeId} (hid : ∀ c, (g c).2 = c.2)
    (hlabel : ∀ c, (g c).1.label = c.1.label) : cell.Indexes (children.map g) := by
  have hsnd : Prod.snd ∘ g = Prod.snd := funext hid
  refine ⟨?_, h.byName.map hid hlabel, h.literals.map hid hlabel, ?_⟩
  · rw [h.children_eq, List.map_map, hsnd]
  · rw [h.arguments_eq, List.filter_map, List.map_map, hsnd]
    simp only [Function.comp_def, hlabel]

/-- **Entering a child of a new name keeps the indexes exact.** -/
theorem link (h : cell.Indexes children) {b : Branch S} (id : NodeId)
    (hnew : ∀ c ∈ children, c.1.label.name ≠ b.label.name) :
    (cell.link id b.label).Indexes (children ++ [(b, id)]) := by
  refine ⟨?_, h.byName.insert id rfl hnew, ?_, ?_⟩
  · show cell.children ++ [id] = _
    rw [h.children_eq, List.map_append]
    rfl
  · show (if b.label.isLiteral then _ else _ : Index).Holds _ _
    split
    · next hliteral => exact h.literals.insert id hliteral hnew
    · next hliteral => exact h.literals.skip id hliteral
  · show (if b.label.isLiteral then cell.arguments else cell.arguments ++ [id]) = _
    rw [List.filter_append, List.map_append, ← h.arguments_eq, List.filter_singleton,
      Label.isArgument_eq_not_isLiteral]
    cases b.label.isLiteral <;> simp

end Indexes

/-! ## Cells and nodes -/

/-- The cell is the node, or the root if there is none, with exact indexes of its children. -/
structure Mirrors (cell : Cell S) (b? : Option (Branch S)) (children : List (Branch S × NodeId)) : Prop where
  /-- It matches the same. -/
  label_eq : cell.label = b?.map (·.label)
  /-- It is restricted to the same sources. -/
  requirement_eq : cell.requirement = b?.elim (fun _ => true) (·.requirement)
  /-- It has the same handler. -/
  handler_eq : cell.handler = b?.bind (·.handler)
  /-- Its indexes are those of the children. -/
  indexes : cell.Indexes children

/-- **The indexes of the cell are exact**, for children that match as given. -/
structure Exact (cell : Cell S) (label? : NodeId → Option (Label S)) : Prop where
  /-- The children come in the order of registration, and no two of them have the same name. -/
  siblings : cell.children.Pairwise fun i j => i < j ∧ (label? i).map Label.name ≠ (label? j).map Label.name
  /-- A name stands for the child that has it, and for nothing else. -/
  child : ∀ name id, cell.child? name = some id ↔ id ∈ cell.children ∧ (label? id).map Label.name = some name
  /-- A word stands for the child that it is, and for nothing else. -/
  literal : ∀ name id, cell.literals.find? name = some id ↔ id ∈ cell.children ∧ label? id = some (.literal name)
  /-- Words are reported where there are any. -/
  hasLiterals : cell.hasLiterals ↔ ∃ id ∈ cell.children, ∃ name, label? id = some (.literal name)
  /-- The arguments are the children that are arguments, in the same order. -/
  arguments : cell.arguments = cell.children.filter fun id => (label? id).any Label.isArgument

end Cell

/-! ## Arenas and trees -/

namespace Arena

/-- **The arena keeps the tree.** -/
structure Mirrors (a : Arena S) (t : Tree S) : Prop where
  /-- It has as many nodes. -/
  size_eq : a.size = t.size
  /-- Each of them is the one of the tree. -/
  cell : ∀ id (cell : Cell S), a.cells[id]? = some cell → cell.Mirrors (t.branch? id) (t.children id)

variable {a a' : Arena S} {t t' : Tree S} {parent id : NodeId}

theorem cell_eq_ok_iff {cell : Cell S} : a.cell id = .ok cell ↔ a.cells[id]? = some cell := by
  unfold Arena.cell
  cases a.cells[id]? <;> simp

theorem exists_cell (h : id < a.size) : ∃ cell, a.cells[id]? = some cell := ⟨_, List.getElem?_eq_getElem h⟩

theorem lt_size_of_cell {cell : Cell S} (h : a.cells[id]? = some cell) : id < a.size :=
  (List.getElem?_eq_some_iff.mp h).1

theorem update_of_lt (h : id < a.size) (f : Cell S → Cell S) : a.update id f = .ok ⟨a.cells.modify id f⟩ := if_pos h

namespace Mirrors

theorem empty : (Arena.empty : Arena S).Mirrors .empty where
  size_eq := rfl
  cell id cell h := by
    cases id with
    | zero =>
      obtain rfl := Option.some.inj h
      exact ⟨rfl, rfl, rfl, .nil⟩
    | succ k => cases h

/-- A new handler goes to the node that is named, as it does in the tree. -/
theorem handle (h : a.Mirrors t) {k : Nat} (hk : k + 1 < t.size) (handler : Option (Handler S)) :
    ∃ a', a.handle (k + 1) handler = .ok a' ∧
      a'.Mirrors ⟨t.branches.modify k fun b => { b with handler := handler.or b.handler }⟩ := by
  cases handler with
  | none =>
    have hsame : (fun b : Branch S => { b with handler := Option.or none b.handler }) = id := by
      funext b
      rw [Option.none_or]
      rfl
    refine ⟨a, rfl, ?_⟩
    rw [hsame, List.modify_id]
    exact h
  | some handler =>
    have hlt : k + 1 < a.size := Nat.lt_of_lt_of_eq hk h.size_eq.symm
    refine ⟨_, update_of_lt hlt _, ?_, fun id cell hcell => ?_⟩
    · simpa [Arena.size, Tree.size] using h.size_eq
    · rw [List.getElem?_modify] at hcell
      obtain ⟨old, hold, rfl⟩ := Option.map_eq_some_iff.mp hcell
      have hmirrors := h.cell id old hold
      rw [Tree.branch?_modify,
        Tree.children_modify (f := fun b => { b with handler := (some handler).or b.handler }) t k fun _ => rfl]
      have hindexes := hmirrors.indexes.map (g := fun c =>
        if c.2 = k + 1 then ({ c.1 with handler := (some handler).or c.1.handler }, c.2) else c)
        (fun c => by split <;> rfl) (fun c => by split <;> rfl)
      by_cases hid : id = k + 1
      · obtain ⟨b, hb⟩ : ∃ b, t.branch? id = some b :=
          Option.isSome_iff_exists.mp (Tree.isSome_branch?_iff.mpr ⟨hid ▸ Nat.succ_ne_zero k, hid ▸ hk⟩)
        rw [hb] at hmirrors ⊢
        rw [if_pos hid, if_pos hid.symm]
        exact ⟨hmirrors.label_eq, hmirrors.requirement_eq, rfl, ⟨hindexes.1, hindexes.2, hindexes.3, hindexes.4⟩⟩
      · rw [if_neg hid, if_neg (Ne.symm hid)]
        exact ⟨hmirrors.label_eq, hmirrors.requirement_eq, hmirrors.handler_eq, hindexes⟩

/-- A new node comes last, and it is entered into its parent. -/
theorem concat (h : a.Mirrors t) (hordered : t.Ordered) (b : Branch S) (hparent : b.parent < t.size)
    (hnew : ∀ c ∈ t.children b.parent, c.1.label.name ≠ b.label.name) :
    ∃ a', Arena.update ⟨a.cells ++ [{ label := some b.label, requirement := b.requirement, handler := b.handler }]⟩
        b.parent (·.link a.size b.label) = .ok a' ∧ a'.Mirrors ⟨t.branches ++ [b]⟩ := by
  have hlt : b.parent < a.size := Nat.lt_of_lt_of_eq hparent h.size_eq.symm
  refine ⟨_, update_of_lt (Nat.lt_trans hlt (by simp [Arena.size])) _, ?_, fun id cell hcell => ?_⟩
  · have hsize := h.size_eq
    simp only [Arena.size, Tree.size, List.length_modify, List.length_append, List.length_singleton] at hsize ⊢
    omega
  · rw [List.getElem?_modify] at hcell
    obtain ⟨old, hold, rfl⟩ := Option.map_eq_some_iff.mp hcell
    rw [Tree.branch?_concat, Tree.children_concat]
    rw [getElem?_concat, show a.cells.length = t.size from h.size_eq] at hold
    by_cases hid : id = t.size
    · rw [if_pos hid] at hold
      obtain rfl := Option.some.inj hold
      have hne : b.parent ≠ id := Nat.ne_of_lt (hid ▸ hparent)
      rw [if_pos hid, if_neg hne, if_neg hne, hid, hordered.children_size]
      exact ⟨rfl, rfl, rfl, .nil⟩
    · rw [if_neg hid] at hold
      have hmirrors := h.cell id old hold
      rw [if_neg hid]
      by_cases hself : b.parent = id
      · subst hself
        rw [if_pos rfl, if_pos rfl, h.size_eq]
        exact ⟨hmirrors.label_eq, hmirrors.requirement_eq, hmirrors.handler_eq, hmirrors.indexes.link t.size hnew⟩
      · rw [if_neg hself, if_neg hself, List.append_nil]
        exact hmirrors

/-- **Step.** Putting in a single node below one that is there keeps the arena and the tree alike. -/
theorem settle (h : a.Mirrors t) (hordered : t.Ordered) (hparent : parent < t.size) (label : Label S)
    (requirement : S → Bool) (handler : Option (Handler S)) :
    let settled := t.settle parent label requirement handler
    ∃ a', a.settle parent label requirement handler = .ok (a', settled.2) ∧ a'.Mirrors settled.1 := by
  obtain ⟨above, habove⟩ := exists_cell (Nat.lt_of_lt_of_eq hparent h.size_eq.symm)
  have hchild : above.child? label.name = t.child? parent label.name :=
    (h.cell parent above habove).indexes.byName label.name
  unfold Arena.settle Tree.settle
  rw [cell_eq_ok_iff.mpr habove]
  dsimp only [bind, Except.bind]
  rw [hchild]
  cases hfound : t.child? parent label.name with
  | some id =>
    obtain ⟨⟨b, _⟩, hfind, rfl⟩ := Option.map_eq_some_iff.mp hfound
    have hbranch := Tree.branch?_of_mem_children (List.mem_of_find?_eq_some hfind)
    obtain ⟨hroot, hlt⟩ := Tree.isSome_branch?_iff.mp (Option.isSome_iff_exists.mpr ⟨b, hbranch⟩)
    obtain ⟨k, hk⟩ := Nat.exists_eq_succ_of_ne_zero hroot
    obtain ⟨a', hhandle, hmirrors⟩ := h.handle (hk ▸ hlt) handler
    refine ⟨a', ?_, ?_⟩
    · dsimp only
      rw [hk, hhandle]
      rfl
    · dsimp only
      rw [hk]
      exact hmirrors
  | none =>
    have hnew : ∀ c ∈ t.children parent, c.1.label.name ≠ label.name := by
      simpa using List.find?_eq_none.mp (Option.map_eq_none_iff.mp hfound)
    obtain ⟨a', hconcat, hmirrors⟩ := h.concat hordered ⟨parent, label, requirement, handler⟩ hparent hnew
    refine ⟨a', ?_, hmirrors⟩
    dsimp only at hconcat ⊢
    rw [hconcat, h.size_eq]
    rfl

mutual

/-- **Run.** So does putting in a declaration with everything below it. -/
theorem add {a : Arena S} {t : Tree S} (h : a.Mirrors t) (hordered : t.Ordered) {parent : NodeId}
    (hparent : parent < t.size) :
    (d : Declaration S) → ∃ a',
      a.add parent d = .ok (a', (t.settle parent d.label d.requirement d.handler).2) ∧ a'.Mirrors (t.insert parent d)
  | ⟨label, requirement, handler, children⟩ => by
    obtain ⟨settled, hsettle, hmirrors⟩ := h.settle hordered hparent label requirement handler
    obtain ⟨hordered', _, hid⟩ := hordered.settle hparent label requirement handler
    obtain ⟨a', hchildren, hmirrors'⟩ := Mirrors.addAll hmirrors hordered' hid children
    refine ⟨a', ?_, ?_⟩
    · rw [Arena.add, hsettle]
      dsimp only [bind, Except.bind]
      rw [hchildren]
      rfl
    · rw [Tree.insert]
      exact hmirrors'

theorem addAll {a : Arena S} {t : Tree S} (h : a.Mirrors t) (hordered : t.Ordered) {parent : NodeId}
    (hparent : parent < t.size) :
    (ds : List (Declaration S)) → ∃ a', a.addAll parent ds = .ok a' ∧ a'.Mirrors (t.insertAll parent ds)
  | [] => by
    rw [Arena.addAll, Tree.insertAll]
    exact ⟨a, rfl, h⟩
  | d :: ds => by
    obtain ⟨grown, hd, hmirrors⟩ := Mirrors.add h hordered hparent d
    obtain ⟨hordered', hle⟩ := hordered.insert hparent d
    obtain ⟨a', hds, hmirrors'⟩ := Mirrors.addAll hmirrors hordered' (Nat.lt_of_lt_of_le hparent hle) ds
    refine ⟨a', ?_, ?_⟩
    · rw [Arena.addAll, hd]
      dsimp only [bind, Except.bind]
      exact hds
    · rw [Tree.insertAll]
      exact hmirrors'

end

/-- **The arena and the tree take in the same declarations**, under the same ids, and stay alike; and they refuse the
    same ones, those that are to go below a node that is not there. -/
theorem add_or_unknown (h : a.Mirrors t) (hordered : t.Ordered) (parent : NodeId) (d : Declaration S) :
    (∃ a' t' id, a.add parent d = .ok (a', id) ∧ t.add parent d = .ok (t', id) ∧ a'.Mirrors t') ∨
      a.add parent d = .error .unknownNode ∧ t.add parent d = .error .unknownNode := by
  by_cases hparent : parent < t.size
  · obtain ⟨a', hadd, hmirrors⟩ := h.add hordered hparent d
    exact .inl ⟨a', _, _, hadd, if_pos hparent, hmirrors⟩
  · have hcell : a.cell parent = .error .unknownNode := by
      have hle : a.cells.length ≤ parent := Nat.le_trans (Nat.le_of_eq h.size_eq) (Nat.le_of_not_lt hparent)
      rw [Arena.cell, List.getElem?_eq_none hle]
      rfl
    refine .inr ⟨?_, if_neg hparent⟩
    obtain ⟨label, requirement, handler, children⟩ := d
    rw [Arena.add, Arena.settle, hcell]
    rfl

/-! ### Looking up -/

theorem findFrom_eq (h : a.Mirrors t) (path : List String) (hid : id < t.size) :
    a.findFrom id path = .ok (path.foldlM t.child? id) := by
  induction path generalizing id with
  | nil => rfl
  | cons name path ih =>
    obtain ⟨cell, hcell⟩ := exists_cell (Nat.lt_of_lt_of_eq hid h.size_eq.symm)
    have hchild : cell.child? name = t.child? id name := (h.cell id cell hcell).indexes.byName name
    rw [Arena.findFrom, cell_eq_ok_iff.mpr hcell, List.foldlM_cons]
    dsimp only [bind, Except.bind]
    rw [hchild]
    cases hfound : t.child? id name with
    | none => rfl
    | some child => exact ih (Tree.child?_lt_size hfound)

/-- A path of names is looked up without a fault, and what is found is what the tree finds. -/
theorem find_eq (h : a.Mirrors t) (path : List String) : a.find path = .ok (t.find? path) :=
  h.findFrom_eq path (Nat.succ_pos _)

/-- **The candidates that the indexes give are those of the tree.** -/
theorem candidates_eq (h : a.Mirrors t) (hid : id < t.size) (s : Scanner) :
    a.candidates id s = .ok ((t.candidates id s).map Prod.snd) := by
  obtain ⟨cell, hcell⟩ := exists_cell (Nat.lt_of_lt_of_eq hid h.size_eq.symm)
  have hindexes := (h.cell id cell hcell).indexes
  have hliteral := hindexes.literals (String.ofList s.token)
  have harguments : cell.arguments = (t.arguments id).map Prod.snd := hindexes.arguments_eq
  unfold Arena.candidates
  rw [cell_eq_ok_iff.mpr hcell, t.candidates_eq_literal?, Tree.literal?]
  dsimp only [bind, Except.bind]
  split
  · next hempty =>
    -- Where no words are stored, none is found.
    rw [Index.find?_of_isEmpty hempty] at hliteral
    rw [Option.map_eq_none_iff.mp hliteral.symm, harguments]
    rfl
  · rw [hliteral, harguments]
    cases (t.children id).find? fun c => c.1.label.isLiteral && c.1.label.name == String.ofList s.token <;> rfl

end Mirrors

/-! ## What holds of all arenas -/

/-- **The arenas that adding declarations leads to**, from the one with nothing but the root. -/
inductive Reachable : Arena S → Prop where
  | empty : Reachable .empty
  | add {a a' : Arena S} {parent id : NodeId} {d : Declaration S} :
      Reachable a → a.add parent d = .ok (a', id) → Reachable a'

/-- What the node with an id matches; the root matches nothing, nor does an id without a node. -/
def label? (a : Arena S) (id : NodeId) : Option (Label S) := a.cells[id]?.bind Cell.label

/-- `id` is among the children that the node `parent` stores. -/
def Lists (a : Arena S) (parent id : NodeId) : Prop := ∃ cell, a.cell parent = .ok cell ∧ id ∈ cell.children

/-- The names lead from the root to the node, child by child. -/
inductive Leads (a : Arena S) : List String → NodeId → Prop where
  | root : Leads a [] 0
  | child {p : List String} {parent id : NodeId} {label : Label S} :
      Leads a p parent → a.Lists parent id → a.label? id = some label → Leads a (p ++ [label.name]) id

/-- **The indexes of all nodes agree**: they are those of one tree, whose nodes are numbered from the root on. -/
structure Coherent (a : Arena S) : Prop where
  /-- There is a root, it is node 0, and no other node is a root. -/
  root : 0 < a.size ∧ ∀ id cell, a.cell id = .ok cell → (cell.label = none ↔ id = 0)
  /-- The root is nobody's child. -/
  root_free : ∀ parent, ¬ a.Lists parent 0
  /-- Any other node is among the children of one node, which was registered before it. -/
  parent : ∀ id, id ≠ 0 → id < a.size → ∃ parent < id, ∀ other, a.Lists other id ↔ other = parent
  /-- Whatever is among the children of a node is a node. -/
  inside : ∀ parent id, a.Lists parent id → id < a.size
  /-- Every descent ends before all nodes are passed. -/
  descent : ∀ first nodes, List.IsChain a.Lists (first :: nodes) → nodes.length < a.size
  /-- The indexes of every node are exact. -/
  exact : ∀ id cell, a.cell id = .ok cell → cell.Exact a.label?
  /-- What is tried is the word that stands next, or else the arguments. -/
  candidates : ∀ id cell s, a.cell id = .ok cell →
    (∃ word ∈ cell.children, a.label? word = some (.literal (String.ofList s.token)) ∧
      a.candidates id s = .ok [word]) ∨
    (∀ child ∈ cell.children, a.label? child ≠ some (.literal (String.ofList s.token))) ∧
      a.candidates id s = .ok cell.arguments
  /-- Every node is at the end of one path of names. -/
  path : ∀ id, id < a.size → ∃! p, a.Leads p id
  /-- A path of names is looked up without a fault, and found exactly where it leads. -/
  find : ∀ p, ∃ found, a.find p = .ok found ∧ ∀ id, found = some id ↔ a.Leads p id

theorem Reachable.exists_tree (h : a.Reachable) : ∃ t : Tree S, t.Reachable ∧ a.Mirrors t := by
  induction h with
  | empty => exact ⟨.empty, .empty, .empty⟩
  | @add a a' parent id d _ hadd ih =>
    obtain ⟨t, ht, hmirrors⟩ := ih
    rcases hmirrors.add_or_unknown ht.ordered parent d with ⟨b, t', id', hadd', htree, hmirrors'⟩ | ⟨hunknown, _⟩
    · rw [hadd'] at hadd
      cases hadd
      exact ⟨t', ht.add htree, hmirrors'⟩
    · rw [hunknown] at hadd
      cases hadd

namespace Mirrors

theorem label?_eq (h : a.Mirrors t) (id : NodeId) : a.label? id = (t.branch? id).map (·.label) := by
  unfold Arena.label?
  cases hcell : a.cells[id]? with
  | some cell => exact (h.cell id cell hcell).label_eq
  | none =>
    have hle : t.size ≤ id := Nat.le_trans (Nat.le_of_eq h.size_eq.symm) (List.getElem?_eq_none_iff.mp hcell)
    cases hbranch : t.branch? id with
    | none => rfl
    | some b => exact absurd (Tree.lt_size_of_branch? hbranch) (Nat.not_lt_of_le hle)

theorem label?_of_mem (h : a.Mirrors t) {b : Branch S} (hb : (b, id) ∈ t.children parent) :
    a.label? id = some b.label := by
  rw [h.label?_eq, Tree.branch?_of_mem_children hb]
  rfl

theorem mem_children_iff (h : a.Mirrors t) {cell : Cell S} (hcell : a.cell parent = .ok cell) :
    id ∈ cell.children ↔ ∃ b, (b, id) ∈ t.children parent ∧ a.label? id = some b.label := by
  rw [(h.cell parent cell (cell_eq_ok_iff.mp hcell)).indexes.children_eq, List.mem_map]
  constructor
  · rintro ⟨⟨b, _⟩, hb, rfl⟩
    exact ⟨b, hb, h.label?_of_mem hb⟩
  · rintro ⟨b, hb, _⟩
    exact ⟨(b, id), hb, rfl⟩

theorem lists_iff (h : a.Mirrors t) (hordered : t.Ordered) : a.Lists parent id ↔ t.IsChild parent id := by
  constructor
  · rintro ⟨cell, hcell, hmem⟩
    obtain ⟨b, hb, _⟩ := (h.mem_children_iff hcell).mp hmem
    exact ⟨b, hb⟩
  · rintro ⟨b, hb⟩
    have hchild : t.IsChild parent id := ⟨b, hb⟩
    have hparent := Nat.lt_trans (hordered.lt_of_isChild hchild) (Tree.lt_size_of_isChild hchild)
    obtain ⟨cell, hcell⟩ := exists_cell (Nat.lt_of_lt_of_eq hparent h.size_eq.symm)
    exact ⟨cell, cell_eq_ok_iff.mpr hcell, (h.mem_children_iff (cell_eq_ok_iff.mpr hcell)).mpr
      ⟨b, hb, h.label?_of_mem hb⟩⟩

theorem leads_iff (h : a.Mirrors t) (hordered : t.Ordered) {p : List String} : a.Leads p id ↔ t.Leads p id := by
  constructor
  · intro hleads
    induction hleads with
    | root => exact .root
    | @child p parent id label _ hlists hlabel ih =>
      obtain ⟨b, hb⟩ := (h.lists_iff hordered).mp hlists
      obtain rfl : b.label = label := Option.some.inj ((h.label?_of_mem hb).symm.trans hlabel)
      exact .child ih hb
  · intro hleads
    induction hleads with
    | root => exact .root
    | child _ hb ih => exact .child ih ((h.lists_iff hordered).mpr ⟨_, hb⟩) (h.label?_of_mem hb)

/-- **The indexes of every cell are exact.** -/
theorem exact (h : a.Mirrors t) (ht : t.Reachable) {cell : Cell S} (hcell : a.cell id = .ok cell) :
    cell.Exact a.label? := by
  have hindexes := (h.cell id cell (cell_eq_ok_iff.mp hcell)).indexes
  have hliteral : ∀ name child, cell.literals.find? name = some child ↔
      child ∈ cell.children ∧ a.label? child = some (.literal name) := by
    intro name child
    rw [hindexes.literals, Option.map_eq_some_iff, h.mem_children_iff hcell]
    constructor
    · rintro ⟨c, hfind, rfl⟩
      obtain ⟨hc, hlabel⟩ := ht.literal?_eq_some_iff.mp hfind
      exact ⟨⟨c.1, hc, h.label?_of_mem hc⟩, hlabel ▸ h.label?_of_mem hc⟩
    · rintro ⟨⟨b, hb, hlabel⟩, hword⟩
      exact ⟨(b, child), ht.literal?_eq_some_iff.mpr ⟨hb, Option.some.inj (hlabel.symm.trans hword)⟩, rfl⟩
  refine ⟨?_, fun name child => ?_, hliteral, ?_, ?_⟩
  · rw [hindexes.children_eq, List.pairwise_map]
    refine (ht.pairwise_siblings id).imp_of_mem fun {c c'} hc hc' hsiblings => ?_
    rw [h.label?_of_mem hc, h.label?_of_mem hc']
    exact ⟨hsiblings.1, fun hname => hsiblings.2 (Option.some.inj hname)⟩
  · have hchild : cell.child? name = t.child? id name := hindexes.byName name
    rw [hchild, ht.child?_eq_some_iff, h.mem_children_iff hcell]
    constructor
    · rintro ⟨b, hb, rfl⟩
      exact ⟨⟨b, hb, h.label?_of_mem hb⟩, by rw [h.label?_of_mem hb]; rfl⟩
    · rintro ⟨⟨b, hb, hlabel⟩, hname⟩
      rw [hlabel] at hname
      exact ⟨b, hb, Option.some.inj hname⟩
  · rw [Cell.hasLiterals, Bool.not_eq_true', Index.isEmpty_eq_false_iff]
    constructor
    · rintro ⟨name, child, hchild⟩
      obtain ⟨hmem, hlabel⟩ := (hliteral name child).mp hchild
      exact ⟨child, hmem, name, hlabel⟩
    · rintro ⟨child, hmem, name, hlabel⟩
      exact ⟨name, child, (hliteral name child).mpr ⟨hmem, hlabel⟩⟩
  · rw [hindexes.arguments_eq, hindexes.children_eq, List.filter_map]
    congr 1
    apply List.filter_congr
    intro c hc
    show c.1.label.isArgument = (a.label? c.2).any Label.isArgument
    rw [h.label?_of_mem hc]
    rfl

/-- What is tried is one word that is the token, or all arguments if there is none. -/
theorem candidates_cases (h : a.Mirrors t) (ht : t.Reachable) {cell : Cell S} (hcell : a.cell id = .ok cell)
    (s : Scanner) :
    (∃ word ∈ cell.children, a.label? word = some (.literal (String.ofList s.token)) ∧
      a.candidates id s = .ok [word]) ∨
    (∀ child ∈ cell.children, a.label? child ≠ some (.literal (String.ofList s.token))) ∧
      a.candidates id s = .ok cell.arguments := by
  have hid : id < t.size := Nat.lt_of_lt_of_eq (lt_size_of_cell (cell_eq_ok_iff.mp hcell)) h.size_eq
  have harguments : cell.arguments = (t.arguments id).map Prod.snd :=
    (h.cell id cell (cell_eq_ok_iff.mp hcell)).indexes.arguments_eq
  rw [h.candidates_eq hid, t.candidates_eq_literal?]
  cases hfound : t.literal? id (String.ofList s.token) with
  | some c =>
    obtain ⟨hc, hlabel⟩ := ht.literal?_eq_some_iff.mp hfound
    exact .inl ⟨c.2, (h.mem_children_iff hcell).mpr ⟨c.1, hc, h.label?_of_mem hc⟩, hlabel ▸ h.label?_of_mem hc, rfl⟩
  | none =>
    refine .inr ⟨fun child hmem hword => ?_, by rw [harguments]; rfl⟩
    obtain ⟨b, hb, hlabel⟩ := (h.mem_children_iff hcell).mp hmem
    have hsome := ht.literal?_eq_some_iff.mpr ⟨hb, Option.some.inj (hlabel.symm.trans hword)⟩
    rw [hfound] at hsome
    cases hsome

theorem label_eq_none_iff (h : a.Mirrors t) {cell : Cell S} (hcell : a.cell id = .ok cell) :
    cell.label = none ↔ id = 0 := by
  have hstored := cell_eq_ok_iff.mp hcell
  have hlt : id < t.size := Nat.lt_of_lt_of_eq (lt_size_of_cell hstored) h.size_eq
  rw [(h.cell id cell hstored).label_eq, Option.map_eq_none_iff, ← Option.not_isSome_iff_eq_none,
    Tree.isSome_branch?_iff]
  constructor
  · intro hnot
    by_contra hroot
    exact hnot ⟨hroot, hlt⟩
  · rintro rfl ⟨hroot, _⟩
    exact hroot rfl

end Mirrors

/-- **The indexes never drift.** Whatever declarations were put in, below whatever nodes and whether their names were new
    or taken, the indexes of all nodes agree; and a declaration can be put in below every node that is there. -/
theorem coherent_of_reachable (h : a.Reachable) :
    a.Coherent ∧ ∀ parent d, parent < a.size → ∃ a' id, a.add parent d = .ok (a', id) := by
  obtain ⟨t, ht, hmirrors⟩ := h.exists_tree
  have hordered := ht.ordered
  have hsize : ∀ {id : NodeId}, id < a.size ↔ id < t.size := by
    intro id
    rw [hmirrors.size_eq]
  have hlists : a.Lists = t.IsChild := by
    funext parent id
    exact propext (hmirrors.lists_iff hordered)
  have hcoherent : a.Coherent :=
    { root := ⟨hsize.mpr (Nat.succ_pos _), fun id cell hcell => hmirrors.label_eq_none_iff hcell⟩
      root_free := fun parent => by rw [hlists]; exact Tree.not_isChild_root
      parent := fun id hroot hid => by
        obtain ⟨b, hbranch⟩ := Option.isSome_iff_exists.mp (Tree.isSome_branch?_iff.mpr ⟨hroot, hsize.mp hid⟩)
        have hchild : t.IsChild b.parent id := Tree.isChild_iff.mpr ⟨b, hbranch, rfl⟩
        rw [hlists]
        exact ⟨b.parent, hordered id b hbranch, fun _ => ⟨fun hother => hother.parent_unique hchild, (· ▸ hchild)⟩⟩
      inside := fun parent id hmem => hsize.mpr (Tree.lt_size_of_isChild (hlists ▸ hmem))
      descent := fun first nodes hchain => hsize.mpr (hordered.length_lt_size (hlists ▸ hchain))
      exact := fun id cell hcell => hmirrors.exact ht hcell
      candidates := fun id cell s hcell => hmirrors.candidates_cases ht hcell s
      path := fun id hid => by
        obtain ⟨p, hp⟩ := hordered.exists_leads id (hsize.mp hid)
        exact ⟨p, (hmirrors.leads_iff hordered).mpr hp, fun q hq => ((hmirrors.leads_iff hordered).mp hq).unique hp⟩
      find := fun p => ⟨t.find? p, hmirrors.find_eq p, fun id =>
        ht.find?_eq_some_iff.trans (hmirrors.leads_iff hordered).symm⟩ }
  refine ⟨hcoherent, fun parent d hparent => ?_⟩
  obtain ⟨a', hadd, _⟩ := hmirrors.add hordered (hsize.mp hparent) d
  exact ⟨a', _, hadd⟩

/-- An argument declared under the name of a word merges into the word, and its child stands beside the word's own;
    something is added below that one later. -/
theorem coherent_of_reachable_merged :
    let go := (Declaration.literal "go").followedBy (.argument "to" .word)
    let again := (Declaration.argument "go" .word).followedBy (.literal "home")
    ∃ a b c : Arena Unit, Arena.empty.add 0 go = .ok (a, 1) ∧ a.add 0 again = .ok (b, 1) ∧
      b.add 2 (.literal "by") = .ok (c, 4) ∧ c.Reachable ∧ c.size = 5 ∧ c.find ["go", "to", "by"] = .ok (some 4) ∧
      c.Leads ["go", "to", "by"] 4 ∧ (∃! p, c.Leads p 3) ∧ (∃ parent < 3, ∀ other, c.Lists other 3 ↔ other = parent) ∧
      ∃ cell, c.cell 1 = .ok cell ∧ cell.children = [2, 3] ∧ cell.arguments = [2] ∧ cell.child? "home" = some 3 ∧
        ∀ name id, cell.literals.find? name = some id → id ∈ cell.children ∧ c.label? id = some (.literal name) := by
  intro go again
  let t : Tree Unit := (Tree.empty.insert 0 go).insert 0 again
  have hgo : (Tree.empty.insert 0 go).Reachable := Tree.Reachable.empty.insert (by decide) go
  have hagain : t.Reachable := hgo.insert (by decide) again
  obtain ⟨a, ha, hmirrors⟩ := Mirrors.empty.add Tree.Reachable.empty.ordered (show 0 < Tree.empty.size by decide) go
  obtain ⟨b, hb, hmirrors⟩ := hmirrors.add hgo.ordered (show 0 < (Tree.empty.insert 0 go).size by decide) again
  obtain ⟨c, hc, hmirrors⟩ := hmirrors.add hagain.ordered (show 2 < t.size by decide) (.literal "by")
  have hreachable : c.Reachable := ((Reachable.empty.add ha).add hb).add hc
  obtain ⟨hcoherent, _⟩ := coherent_of_reachable hreachable
  have hsize : c.size = 5 := hmirrors.size_eq
  have hfind : c.find ["go", "to", "by"] = .ok (some 4) := (hmirrors.find_eq _).trans (by decide)
  obtain ⟨found, hfound, hleads⟩ := hcoherent.find ["go", "to", "by"]
  obtain ⟨cell, hcell⟩ := exists_cell (show 1 < c.size by rw [hsize]; decide)
  have hindexes := (hmirrors.cell 1 cell hcell).indexes
  have hexact := hcoherent.exact 1 cell (cell_eq_ok_iff.mpr hcell)
  refine ⟨a, b, c, ha, hb, hc, hreachable, hsize, hfind, ?_, hcoherent.path 3 (by rw [hsize]; decide),
    hcoherent.parent 3 (by decide) (by rw [hsize]; decide), cell, cell_eq_ok_iff.mpr hcell,
    hindexes.children_eq.trans (by decide), hindexes.arguments_eq.trans (by decide),
    (hindexes.byName "home").trans (by decide), fun name id => (hexact.literal name id).mp⟩
  rw [hfind] at hfound
  exact (hleads 4).mp (Except.ok.inj hfound).symm

end Arena

end CommandGrammar
