import CommandGrammar.Proofs.Candidates
import Mathlib.Data.List.Basic
import Mathlib.Data.List.Induction
import Mathlib.Data.Option.Basic

/-!
# `Proofs.Registration` — the tree that a list of declarations makes

Registration merges declarations by name, node by node. The result can be told from a flat list: write every
declaration down as entries, each node before its children, and one declaration after the other. Then

* the paths of the tree are the paths that occur in the list, numbered in the order of first occurrence;
* a node is what the *first* entry of its path says, except that
* its handler is the one that the *last* entry with a handler brings.

`Tree.Records` says that a tree is what a list of entries describes, without referring to how trees are
searched or changed. One node put in is one entry appended (`Tree.Records.settle`), a whole declaration is
all its entries appended (`Tree.Records.insert`), and descending by names finds exactly the numbered paths
(`Tree.Records.find?`).
-/

namespace CommandGrammar

variable {S : Type}

/-! ## Entries -/

/-- A node that is declared somewhere: the names above it, and what it is. -/
structure Entry (S : Type) where
  /-- The names on the way to the node's parent. -/
  above : List String
  /-- What the node matches. -/
  label : Label S
  /-- Which sources may use the node. -/
  requirement : S → Bool
  /-- What to run when a line ends at the node. -/
  handler : Option (Handler S)

/-- The names on the way to the node. -/
def Entry.path (e : Entry S) : List String := e.above ++ [e.label.name]

namespace Declaration

mutual

/-- A declaration as entries below a path, the node before its children. -/
def entries (above : List String) : Declaration S → List (Entry S)
  | ⟨label, requirement, handler, children⟩ =>
    ⟨above, label, requirement, handler⟩ :: entriesAll (above ++ [label.name]) children

/-- Several declarations as entries below a path, one after the other. -/
def entriesAll (above : List String) : List (Declaration S) → List (Entry S)
  | [] => []
  | d :: ds => d.entries above ++ entriesAll above ds

end

theorem entriesAll_append (above : List String) (ds ds' : List (Declaration S)) :
    entriesAll above (ds ++ ds') = entriesAll above ds ++ entriesAll above ds' := by
  induction ds with
  | nil => simp [entriesAll]
  | cons d ds ih => simp [entriesAll, ih]

end Declaration

namespace Entry

/-- The paths that occur, in the order of first occurrence. -/
def paths (es : List (Entry S)) : List (List String) := (es.map path).eraseDups

/-- The first entry of a path. -/
def first? (es : List (Entry S)) (p : List String) : Option (Entry S) := es.find? (·.path == p)

/-- The handler of the last entry of a path that brings one. -/
def handler? (es : List (Entry S)) (p : List String) : Option (Handler S) :=
  ((es.filter (·.path == p)).filterMap handler).getLast?

/-- The number of a path: the root is 0, the others are counted from 1. -/
def idOf (es : List (Entry S)) (p : List String) : NodeId := ([] :: paths es).idxOf p

/-- The node that the entries describe at a path. -/
def branch? (es : List (Entry S)) (p : List String) : Option (Branch S) :=
  (first? es p).map fun e => ⟨idOf es e.above, e.label, e.requirement, handler? es p⟩

variable {es es' : List (Entry S)} {e : Entry S} {p : List String}

/-! ### Paths -/

theorem mem_paths : p ∈ paths es ↔ ∃ e ∈ es, e.path = p := by
  simp [paths, List.mem_eraseDups]

theorem path_ne_nil (e : Entry S) : e.path ≠ [] := by simp [path]

theorem nil_notMem_paths : [] ∉ paths es := by
  rw [mem_paths]
  rintro ⟨e, _, hpath⟩
  exact e.path_ne_nil hpath

theorem paths_append (es es' : List (Entry S)) :
    paths (es ++ es') = paths es ++ ((es'.map path).removeAll (es.map path)).eraseDups := by
  rw [paths, List.map_append, List.eraseDups_append, paths]

theorem paths_concat_of_notMem (h : e.path ∉ paths es) : paths (es ++ [e]) = paths es ++ [e.path] := by
  have hmem : e.path ∉ es.map path := fun hmem => h (List.mem_eraseDups.mpr hmem)
  rw [paths_append, List.map_singleton, List.removeAll, List.filter_singleton]
  rw [show List.elem e.path (es.map path) = false from by simpa using hmem]
  rfl

theorem ne_nil_of_mem_paths (hp : p ∈ paths es) : p ≠ [] :=
  fun hnil => nil_notMem_paths (hnil ▸ hp)

/-- Entries whose paths occur already add no paths. -/
theorem paths_append_of_subset (h : ∀ e ∈ es', e.path ∈ paths es) : paths (es ++ es') = paths es := by
  have hnil : (es'.map path).removeAll (es.map path) = [] := by
    rw [List.removeAll, List.filter_eq_nil_iff]
    intro p hp
    obtain ⟨e, he, rfl⟩ := List.mem_map.mp hp
    have hmem : e.path ∈ es.map path := List.mem_eraseDups.mp (h e he)
    rw [List.elem_eq_true_of_mem hmem]
    decide
  rw [paths_append, hnil]
  exact List.append_nil _

theorem paths_concat_of_mem (h : e.path ∈ paths es) : paths (es ++ [e]) = paths es :=
  paths_append_of_subset (by simpa using h)

theorem nodup_paths (es : List (Entry S)) : (paths es).Nodup := by
  induction es using List.reverseRecOn with
  | nil => exact List.nodup_nil
  | append_singleton es e ih =>
    by_cases h : e.path ∈ paths es
    · rw [paths_concat_of_mem h]
      exact ih
    · rw [paths_concat_of_notMem h, List.nodup_append]
      refine ⟨ih, by simp, ?_⟩
      intro p hp q hq hpq
      rw [List.mem_singleton] at hq
      exact h (hq ▸ hpq ▸ hp)

/-- Later entries only add paths at the end. -/
theorem paths_prefix_append (es es' : List (Entry S)) : paths es <+: paths (es ++ es') := by
  rw [paths_append]
  exact List.prefix_append _ _

theorem mem_nil_cons_paths_append (h : p ∈ [] :: paths es) : p ∈ [] :: paths (es ++ es') :=
  (List.cons_subset_cons _ (paths_prefix_append es es').subset) h

/-- Later entries leave the number of a path as it is. -/
theorem idOf_append (h : p ∈ [] :: paths es) : idOf (es ++ es') p = idOf es p := by
  obtain ⟨added, hadded⟩ := paths_prefix_append es es'
  rw [idOf, ← hadded, ← List.cons_append, List.idxOf_append_of_mem h, idOf]

theorem idOf_nil (es : List (Entry S)) : idOf es [] = 0 := by simp [idOf]

/-- Different paths have different numbers. -/
theorem idOf_inj {q : List String} (hp : p ∈ [] :: paths es) : idOf es p = idOf es q ↔ p = q :=
  List.idxOf_inj hp

theorem idOf_of_ne_nil (h : p ≠ []) : idOf es p = (paths es).idxOf p + 1 := by
  rw [idOf, List.idxOf_cons_ne _ (Ne.symm h)]

/-! ### What stands at a path -/

theorem exists_first?_of_mem (h : p ∈ paths es) : ∃ e, first? es p = some e ∧ e ∈ es ∧ e.path = p := by
  obtain ⟨e, he, hpath⟩ := mem_paths.mp h
  obtain ⟨found, hfound⟩ : ∃ found, first? es p = some found :=
    Option.isSome_iff_exists.mp (List.find?_isSome.mpr ⟨e, he, by simp [hpath]⟩)
  have hfoundPath : found.path = p := by simpa using List.find?_some hfound
  exact ⟨found, hfound, List.mem_of_find?_eq_some hfound, hfoundPath⟩

theorem branch?_eq_some {b : Branch S} (h : branch? es p = some b) :
    ∃ e, first? es p = some e ∧ e ∈ es ∧ p = e.above ++ [b.label.name] ∧ b.parent = idOf es e.above ∧
      b.label = e.label ∧ b.requirement = e.requirement ∧ b.handler = handler? es p := by
  obtain ⟨e, he, rfl⟩ := Option.map_eq_some_iff.mp h
  have hpath : e.path = p := by simpa using List.find?_some he
  exact ⟨e, he, List.mem_of_find?_eq_some he, hpath.symm, rfl, rfl, rfl, rfl⟩

theorem exists_branch?_of_mem (h : p ∈ paths es) : ∃ b, branch? es p = some b := by
  obtain ⟨e, he, _⟩ := exists_first?_of_mem h
  exact ⟨_, by rw [branch?, he, Option.map_some]⟩

theorem first?_eq_none (h : p ∉ paths es) : first? es p = none := by
  rw [first?, List.find?_eq_none]
  intro e he hpath
  exact h (mem_paths.mpr ⟨e, he, by simpa using hpath⟩)

theorem first?_append (es es' : List (Entry S)) (p : List String) :
    first? (es ++ es') p = (first? es p).or (first? es' p) :=
  List.find?_append

theorem first?_append_of_mem (h : p ∈ paths es) : first? (es ++ es') p = first? es p := by
  obtain ⟨found, hfound, _⟩ := exists_first?_of_mem h
  rw [first?_append, hfound, Option.some_or]

/-- The later handlers win. -/
theorem handler?_append (es es' : List (Entry S)) (p : List String) :
    handler? (es ++ es') p = (handler? es' p).or (handler? es p) := by
  rw [handler?, List.filter_append, List.filterMap_append, List.getLast?_append]
  rfl

theorem handler?_singleton_self (e : Entry S) : handler? [e] e.path = e.handler := by
  cases h : e.handler <;> simp [handler?, h]

theorem handler?_singleton_of_ne (h : e.path ≠ p) : handler? [e] p = none := by
  simp [handler?, h]

theorem handler?_eq_none_iff : handler? es p = none ↔ ∀ e ∈ es, e.path = p → e.handler = none := by
  simp [handler?]

/-- The entries put every node below the root or below a path that occurs. -/
def Closed (es : List (Entry S)) : Prop := ∀ e ∈ es, e.above ∈ [] :: paths es

theorem Closed.concat (h : Closed es) (he : e.above ∈ [] :: paths es) : Closed (es ++ [e]) := by
  intro e' he'
  rw [List.mem_append, List.mem_singleton] at he'
  rcases he' with he' | rfl
  · exact mem_nil_cons_paths_append (h e' he')
  · exact mem_nil_cons_paths_append he

/-- More entries change nothing at a path but, possibly, the handler. -/
theorem branch?_append_of_mem (hclosed : Closed es) (h : p ∈ paths es) :
    branch? (es ++ es') p
      = (branch? es p).map fun b => { b with handler := (handler? es' p).or b.handler } := by
  obtain ⟨found, hfound, hmem, _⟩ := exists_first?_of_mem h
  rw [branch?, branch?, first?_append_of_mem h, hfound, handler?_append]
  simp only [Option.map_some]
  rw [idOf_append (hclosed found hmem)]

/-- The first entry of a path says what stands there. -/
theorem branch?_concat_of_notMem (he : e.above ∈ [] :: paths es) (h : e.path ∉ paths es) :
    branch? (es ++ [e]) e.path = some ⟨idOf es e.above, e.label, e.requirement, e.handler⟩ := by
  have hself : first? [e] e.path = some e := by simp [first?]
  have hhandler : handler? es e.path = none :=
    handler?_eq_none_iff.mpr fun e' he' hpath => absurd (mem_paths.mpr ⟨e', he', hpath⟩) h
  rw [branch?, first?_append, first?_eq_none h, Option.none_or, hself, handler?_append, handler?_singleton_self,
    hhandler, Option.or_none, Option.map_some, idOf_append he]

end Entry

/-! ## Trees that a list of entries describes -/

namespace Tree

/-- **The tree is what the entries describe**: its nodes are those at the paths that occur, in the order
    of first occurrence. -/
structure Records (t : Tree S) (es : List (Entry S)) : Prop where
  /-- Nothing stands below a path that does not occur. -/
  closed : Entry.Closed es
  /-- The nodes. -/
  branches_eq : t.branches.map some = (Entry.paths es).map (Entry.branch? es)

variable {t t' : Tree S} {es es' : List (Entry S)} {e : Entry S} {p : List String}

theorem records_empty : Records (S := S) empty [] := ⟨by simp [Entry.Closed], rfl⟩

/-- Entries describe one tree only. -/
theorem Records.unique (h : t.Records es) (h' : t'.Records es) : t = t' := by
  have hmap : t.branches.map some = t'.branches.map some := h.branches_eq.trans h'.branches_eq.symm
  have hbranches : t.branches = t'.branches := List.map_injective_iff.mpr (Option.some_injective _) hmap
  cases t
  cases t'
  exact congrArg Tree.mk hbranches

theorem Records.length_eq (h : t.Records es) : t.branches.length = (Entry.paths es).length := by
  have hlength := congrArg List.length h.branches_eq
  rwa [List.length_map, List.length_map] at hlength

/-- The node at a position is what the entries describe at the path of that position. -/
theorem Records.getElem?_branches (h : t.Records es) {k : Nat} (hp : (Entry.paths es)[k]? = some p) :
    t.branches[k]? = Entry.branch? es p := by
  have hget : t.branches[k]?.map some = some (Entry.branch? es p) := by
    rw [← List.getElem?_map, h.branches_eq, List.getElem?_map, hp, Option.map_some]
  obtain ⟨b, hb, hbranch⟩ := Option.map_eq_some_iff.mp hget
  exact hb.trans hbranch

/-- The node with the number of a path is what the entries describe there. -/
theorem Records.branch?_idOf (h : t.Records es) (hp : p ∈ Entry.paths es) :
    t.branch? (Entry.idOf es p) = Entry.branch? es p := by
  rw [Entry.idOf_of_ne_nil (Entry.ne_nil_of_mem_paths hp)]
  exact h.getElem?_branches (List.getElem?_idxOf hp)

/-- Every node has the number of a path. -/
theorem Records.exists_path (h : t.Records es) {id : NodeId} {b : Branch S} (hb : t.branch? id = some b) :
    ∃ p ∈ Entry.paths es, Entry.idOf es p = id := by
  cases id with
  | zero => cases hb
  | succ k =>
    obtain ⟨hlt, _⟩ := List.getElem?_eq_some_iff.mp (show t.branches[k]? = some b from hb)
    rw [h.length_eq] at hlt
    have hp : (Entry.paths es)[k] ∈ Entry.paths es := List.getElem_mem hlt
    refine ⟨_, hp, ?_⟩
    rw [Entry.idOf_of_ne_nil (Entry.ne_nil_of_mem_paths hp), (Entry.nodup_paths es).idxOf_getElem]

/-- The children of the node at a path are the nodes one name further. -/
theorem Records.mem_children_iff (h : t.Records es) {q : List String} {id : NodeId}
    {b : Branch S} :
    (b, id) ∈ t.children (Entry.idOf es q) ↔ q ++ [b.label.name] ∈ Entry.paths es ∧
      id = Entry.idOf es (q ++ [b.label.name]) ∧ Entry.branch? es (q ++ [b.label.name]) = some b := by
  rw [mem_children]
  constructor
  · rintro ⟨hbranch, hparent⟩
    obtain ⟨p, hp, rfl⟩ := h.exists_path hbranch
    rw [h.branch?_idOf hp] at hbranch
    obtain ⟨e, _, he, hpath, heparent, _⟩ := Entry.branch?_eq_some hbranch
    have habove : e.above = q := (Entry.idOf_inj (h.closed e he)).mp (heparent.symm.trans hparent)
    rw [habove] at hpath
    rw [← hpath]
    exact ⟨hp, rfl, hbranch⟩
  · rintro ⟨hp, rfl, hbranch⟩
    obtain ⟨e, _, _, hpath, heparent, _⟩ := Entry.branch?_eq_some hbranch
    have habove : q = e.above := List.append_inj_left' hpath rfl
    rw [habove]
    exact ⟨habove ▸ (h.branch?_idOf hp).trans hbranch, heparent⟩

/-- Going down by a name leads to the path with that name added. -/
theorem Records.child?_idOf (h : t.Records es) (q : List String) (name : String) :
    t.child? (Entry.idOf es q) name =
      if q ++ [name] ∈ Entry.paths es then some (Entry.idOf es (q ++ [name])) else none := by
  unfold child?
  cases hfind : (t.children (Entry.idOf es q)).find? (·.1.label.name == name) with
  | none =>
    rw [if_neg, Option.map_none]
    intro hp
    obtain ⟨b, hb⟩ := Entry.exists_branch?_of_mem hp
    obtain ⟨e, _, _, hpath, _⟩ := Entry.branch?_eq_some hb
    obtain rfl : name = b.label.name := List.singleton_inj.mp (List.append_inj_right' hpath rfl)
    have hchild := h.mem_children_iff.mpr ⟨hp, rfl, hb⟩
    exact absurd (List.find?_eq_none.mp hfind _ hchild) (by simp)
  | some found =>
    obtain ⟨b, id⟩ := found
    have hname : b.label.name = name := by simpa using List.find?_some hfind
    obtain ⟨hp, hid, _⟩ := h.mem_children_iff.mp (List.mem_of_find?_eq_some hfind)
    rw [hname] at hp hid
    rw [if_pos hp, Option.map_some, hid]

/-! ## Putting in nodes -/

/-- A node that is put in where its path occurs already can only bring a handler. -/
theorem Records.settle_of_mem (h : t.Records es) (he : e.above ∈ [] :: Entry.paths es)
    (hp : e.path ∈ Entry.paths es) :
    Records ⟨t.branches.modify ((Entry.paths es).idxOf e.path)
      fun b => { b with handler := e.handler.or b.handler }⟩ (es ++ [e]) := by
  -- Position by position: the paths stay, and only the position of `e.path` is touched.
  refine ⟨h.closed.concat he, List.ext_getElem? fun k => ?_⟩
  rw [Entry.paths_concat_of_mem hp, List.getElem?_map, List.getElem?_map, List.getElem?_modify]
  cases hpath : (Entry.paths es)[k]? with
  | none =>
    have hnone : t.branches[k]? = none := by
      rw [List.getElem?_eq_none_iff, h.length_eq]
      exact List.getElem?_eq_none_iff.mp hpath
    rw [hnone]
    rfl
  | some p =>
    have hmem : p ∈ Entry.paths es := List.mem_of_getElem? hpath
    obtain ⟨b, hb⟩ := Entry.exists_branch?_of_mem hmem
    rw [h.getElem?_branches hpath, hb, Option.map_some, Entry.branch?_append_of_mem h.closed hmem, hb]
    by_cases hself : e.path = p
    · -- the node itself: the new handler goes first
      have hk : (Entry.paths es).idxOf e.path = k := by
        obtain ⟨hlt, hget⟩ := List.getElem?_eq_some_iff.mp hpath
        rw [hself, ← hget, (Entry.nodup_paths es).idxOf_getElem]
      subst hself
      rw [Entry.handler?_singleton_self]
      simp [hk]
    · -- another node: the entry brings it nothing
      have hk : (Entry.paths es).idxOf e.path ≠ k := by
        rintro rfl
        rw [List.getElem?_idxOf hp] at hpath
        exact hself (Option.some.inj hpath)
      rw [Entry.handler?_singleton_of_ne hself]
      simp [hk]

/-- A node that is put in under a new path gets the next number. -/
theorem Records.settle_of_notMem (h : t.Records es) (he : e.above ∈ [] :: Entry.paths es)
    (hp : e.path ∉ Entry.paths es) :
    Records ⟨t.branches ++ [⟨Entry.idOf es e.above, e.label, e.requirement, e.handler⟩]⟩
      (es ++ [e]) := by
  refine ⟨h.closed.concat he, ?_⟩
  have hold : (Entry.paths es).map (Entry.branch? (es ++ [e])) = (Entry.paths es).map (Entry.branch? es) := by
    apply List.map_congr_left
    intro p hmem
    have hne : e.path ≠ p := fun hpath => hp (hpath ▸ hmem)
    rw [Entry.branch?_append_of_mem h.closed hmem, Entry.handler?_singleton_of_ne hne]
    simp
  rw [Entry.paths_concat_of_notMem hp, List.map_append, List.map_append, hold, h.branches_eq,
    List.map_singleton, List.map_singleton, Entry.branch?_concat_of_notMem he hp]

/-- **Step.** Putting in one node appends its entry. -/
theorem Records.settle (h : t.Records es) (he : e.above ∈ [] :: Entry.paths es) :
    (t.settle (Entry.idOf es e.above) e.label e.requirement e.handler).1.Records (es ++ [e]) ∧
      (t.settle (Entry.idOf es e.above) e.label e.requirement e.handler).2
        = Entry.idOf (es ++ [e]) e.path := by
  have hchild := h.child?_idOf e.above e.label.name
  unfold Tree.settle
  rw [hchild]
  by_cases hp : e.path ∈ Entry.paths es
  · -- the parent has a child of that name
    have hid : Entry.idOf es e.path = (Entry.paths es).idxOf e.path + 1 :=
      Entry.idOf_of_ne_nil e.path_ne_nil
    rw [if_pos (show e.above ++ [e.label.name] ∈ Entry.paths es from hp)]
    refine ⟨?_, (Entry.idOf_append (List.mem_cons_of_mem _ hp)).symm⟩
    show Records ⟨t.branches.modify (Entry.idOf es e.path - 1) _⟩ (es ++ [e])
    rw [hid, Nat.add_sub_cancel]
    exact h.settle_of_mem he hp
  · -- the node is appended, and the number of nodes is its id
    rw [if_neg (show e.above ++ [e.label.name] ∉ Entry.paths es from hp)]
    refine ⟨h.settle_of_notMem he hp, ?_⟩
    rw [Entry.idOf_of_ne_nil e.path_ne_nil, Entry.paths_concat_of_notMem hp,
      List.idxOf_append_of_notMem hp, List.idxOf_cons_self]
    show t.branches.length + 1 = _
    rw [h.length_eq, Nat.add_zero]

mutual

/-- **Run.** Putting in a declaration appends all its entries. -/
theorem Records.insert {t : Tree S} {es : List (Entry S)} {above : List String} (h : t.Records es)
    (habove : above ∈ [] :: Entry.paths es) :
    (d : Declaration S) → (t.insert (Entry.idOf es above) d).Records (es ++ d.entries above)
  | ⟨label, requirement, handler, children⟩ => by
    obtain ⟨hrecords, hid⟩ := h.settle (e := ⟨above, label, requirement, handler⟩) habove
    have hpath : above ++ [label.name] ∈ Entry.paths (es ++ [⟨above, label, requirement, handler⟩]) :=
      Entry.mem_paths.mpr ⟨_, List.mem_append_right _ List.mem_cons_self, rfl⟩
    have hchildren := Records.insertAll hrecords (List.mem_cons_of_mem _ hpath) children
    rw [List.append_assoc] at hchildren
    rw [Tree.insert, Declaration.entries, hid]
    exact hchildren

/-- Putting in declarations appends the entries of all of them. -/
theorem Records.insertAll {t : Tree S} {es : List (Entry S)} {above : List String} (h : t.Records es)
    (habove : above ∈ [] :: Entry.paths es) :
    (ds : List (Declaration S)) →
      (t.insertAll (Entry.idOf es above) ds).Records (es ++ Declaration.entriesAll above ds)
  | [] => by
    simpa [Tree.insertAll, Declaration.entriesAll] using h
  | d :: ds => by
    have hd := Records.insert h habove d
    have hds := Records.insertAll hd (Entry.mem_nil_cons_paths_append habove) ds
    -- The parent keeps its number while its children are put in.
    rw [Entry.idOf_append habove] at hds
    simpa [Tree.insertAll, Declaration.entriesAll] using hds

end

/-! ## Descending by names -/

theorem find?_concat (t : Tree S) (q : List String) (name : String) :
    t.find? (q ++ [name]) = (t.find? q).bind fun id => t.child? id name := by
  rw [find?, List.foldlM_append, find?]
  simp

/-- **A path is found exactly when it occurs**, and then under its number. -/
theorem Records.find?_eq (h : t.Records es) (p : List String) :
    t.find? p = if p ∈ [] :: Entry.paths es then some (Entry.idOf es p) else none := by
  induction p using List.reverseRecOn with
  | nil =>
    rw [if_pos List.mem_cons_self, Entry.idOf_nil]
    rfl
  | append_singleton q name ih =>
    have hcons : q ++ [name] ∈ [] :: Entry.paths es ↔ q ++ [name] ∈ Entry.paths es := by simp
    rw [find?_concat, ih]
    by_cases hq : q ∈ [] :: Entry.paths es
    · rw [if_pos hq, Option.bind_some, h.child?_idOf q name]
      exact if_congr hcons.symm rfl rfl
    · -- A path that occurs has its parent's path occur as well.
      have hp : q ++ [name] ∉ Entry.paths es := by
        intro hp
        obtain ⟨e, _, hmem, hpath⟩ := Entry.exists_first?_of_mem hp
        have habove : e.above = q := List.append_inj_left' hpath rfl
        exact hq (habove ▸ h.closed e hmem)
      rw [if_neg hq, Option.bind_none, if_neg (fun hmem => hp (hcons.mp hmem))]

theorem Records.isSome_find?_iff (h : t.Records es) (hp : p ≠ []) :
    (t.find? p).isSome ↔ ∃ e ∈ es, e.path = p := by
  have hcons : p ∈ [] :: Entry.paths es ↔ p ∈ Entry.paths es := by simp [hp]
  rw [h.find?_eq, if_congr hcons rfl rfl, ← Entry.mem_paths]
  by_cases hmem : p ∈ Entry.paths es
  · simp [hmem]
  · simp [hmem]

/-- What is found at a path is what the entries describe there. -/
theorem Records.branch?_of_find? (h : t.Records es) (hp : p ≠ []) {id : NodeId}
    (hfind : t.find? p = some id) :
    p ∈ Entry.paths es ∧ id = Entry.idOf es p ∧ t.branch? id = Entry.branch? es p := by
  rw [h.find?_eq] at hfind
  split at hfind
  · next hcons =>
    have hmem : p ∈ Entry.paths es := (List.mem_cons.mp hcons).resolve_left hp
    obtain rfl : Entry.idOf es p = id := Option.some.inj hfind
    exact ⟨hmem, rfl, h.branch?_idOf hmem⟩
  · cases hfind

/-- More entries move no path and change no node but for its handler. -/
theorem Records.find?_append (h : t.Records es) (h' : t'.Records (es ++ es')) {id : NodeId}
    (hfind : t.find? p = some id) :
    t'.find? p = some id ∧
      (t'.branch? id).map ({ · with handler := none })
        = (t.branch? id).map ({ · with handler := none }) := by
  rw [h.find?_eq] at hfind
  split at hfind
  · next hcons =>
    obtain rfl : Entry.idOf es p = id := Option.some.inj hfind
    refine ⟨?_, ?_⟩
    · rw [h'.find?_eq, if_pos (Entry.mem_nil_cons_paths_append hcons), Entry.idOf_append hcons]
    · rcases List.mem_cons.mp hcons with rfl | hmem
      · rw [Entry.idOf_nil]
        rfl
      · have hmem' : p ∈ Entry.paths (es ++ es') := (Entry.paths_prefix_append es es').subset hmem
        have hbranch' := h'.branch?_idOf hmem'
        rw [Entry.idOf_append hcons] at hbranch'
        rw [hbranch', h.branch?_idOf hmem, Entry.branch?_append_of_mem h.closed hmem, Option.map_map]
        rfl
  · cases hfind

/-- Entries that bring neither a path nor a handler that is not in place already change nothing. -/
theorem Records.absorb (h : t.Records es) (hclosed : Entry.Closed (es ++ es'))
    (hpaths : ∀ e ∈ es', e.path ∈ Entry.paths es)
    (hhandlers : ∀ p handler, Entry.handler? es' p = some handler → Entry.handler? es p = some handler) :
    t.Records (es ++ es') := by
  refine ⟨hclosed, ?_⟩
  rw [Entry.paths_append_of_subset hpaths, h.branches_eq]
  apply List.map_congr_left
  intro p hp
  rw [Entry.branch?_append_of_mem h.closed hp]
  obtain ⟨b, hb⟩ := Entry.exists_branch?_of_mem hp
  obtain ⟨_, _, _, _, _, _, _, hhandler⟩ := Entry.branch?_eq_some hb
  rw [hb, Option.map_some]
  cases hnew : Entry.handler? es' p with
  | none => rfl
  | some handler =>
    rw [hhandlers p handler hnew] at hhandler
    rw [Option.some_or, ← hhandler]

end Tree

/-! ## Registering declarations -/


namespace Dispatcher

theorem tree_registerAll (d : Dispatcher S) (declarations : List (Declaration S)) :
    (d.registerAll declarations).tree = d.tree.insertAll 0 declarations := by
  induction declarations generalizing d with
  | nil => simp [registerAll, Tree.insertAll]
  | cons declaration declarations ih =>
    rw [Tree.insertAll]
    exact ih (d.register declaration).1

/-- Registering more declarations appends their entries. -/
theorem records_registerAll_of_records {d : Dispatcher S} {es : List (Entry S)} (h : d.tree.Records es)
    (more : List (Declaration S)) :
    (d.registerAll more).tree.Records (es ++ Declaration.entriesAll [] more) := by
  have hmore := Tree.Records.insertAll h List.mem_cons_self more
  rw [Entry.idOf_nil] at hmore
  rw [tree_registerAll]
  exact hmore

/-- Declarations that are registered into an empty grammar make the tree that their entries describe. -/
theorem records_registerAll (settings : Dispatch.Settings) (declarations : List (Declaration S)) :
    (({ settings } : Dispatcher S).registerAll declarations).tree.Records
      (Declaration.entriesAll [] declarations) := by
  have hempty : ({ settings } : Dispatcher S).tree.Records [] := Tree.records_empty
  exact records_registerAll_of_records hempty declarations

/-- Registering a declaration whose entries change nothing leaves the grammar as it is. -/
theorem register_eq_self {d : Dispatcher S} {es : List (Entry S)} (h : d.tree.Records es)
    {again : Declaration S} (hpaths : ∀ e ∈ again.entries [], e.path ∈ Entry.paths es)
    (hhandlers : ∀ p handler, Entry.handler? (again.entries []) p = some handler →
      Entry.handler? es p = some handler) : (d.register again).1 = d := by
  have hinsert := Tree.Records.insert h List.mem_cons_self again
  rw [Entry.idOf_nil] at hinsert
  have htree : d.tree.insert 0 again = d.tree :=
    hinsert.unique (h.absorb hinsert.closed hpaths hhandlers)
  show ({ d with tree := d.tree.insert 0 again } : Dispatcher S) = d
  rw [htree]

/-- **Registration is determined by the flat list of entries.** A path is found exactly when it occurs; its
    number counts the distinct paths in the order of first occurrence; the node there is what the first
    entry of the path says, with the handler that the last entry brings. So a number keeps its meaning
    whatever is registered later, and registering a declaration once more changes nothing unless one of its
    handlers was replaced since. -/
theorem registration_by_entries (settings : Dispatch.Settings) (declarations : List (Declaration S)) :
    let d := ({ settings } : Dispatcher S).registerAll declarations
    let es := Declaration.entriesAll [] declarations
    d.tree.find? [] = some 0 ∧
    (∀ p ≠ [], (d.tree.find? p).isSome ↔ ∃ e ∈ es, e.path = p) ∧
    (∀ p ≠ [], ∀ id, d.tree.find? p = some id → id = 1 + (Entry.paths es).idxOf p ∧
      ∃ first b, Entry.first? es p = some first ∧ d.tree.branch? id = some b ∧
        b.label = first.label ∧ b.requirement = first.requirement ∧
        b.handler = Entry.handler? es p) ∧
    (∀ more p id, d.tree.find? p = some id →
      (d.registerAll more).tree.find? p = some id ∧
      ((d.registerAll more).tree.branch? id).map ({ · with handler := none })
        = (d.tree.branch? id).map ({ · with handler := none })) ∧
    (∀ earlier again later, declarations = earlier ++ again :: later →
      (∀ e ∈ again.entries [], ∀ e' ∈ Declaration.entriesAll [] later,
        e'.path = e.path → e.handler.isSome → e'.handler = none) →
      (d.register again).1 = d) := by
  intro d es
  have h : d.tree.Records es := records_registerAll settings declarations
  refine ⟨rfl, fun p hp => h.isSome_find?_iff hp, ?_, ?_, ?_⟩
  · intro p hp id hfind
    obtain ⟨hmem, hid, hbranch⟩ := h.branch?_of_find? hp hfind
    obtain ⟨b, hb⟩ := Entry.exists_branch?_of_mem hmem
    obtain ⟨first, hfirst, _, _, _, hlabel, hrequirement, hhandler⟩ := Entry.branch?_eq_some hb
    refine ⟨?_, first, b, hfirst, hbranch.trans hb, hlabel, hrequirement, hhandler⟩
    rw [hid, Entry.idOf_of_ne_nil hp, Nat.add_comm]
  · intro more p id hfind
    exact h.find?_append (records_registerAll_of_records h more) hfind
  · intro earlier again later hdeclarations hkept
    have hes : es = Declaration.entriesAll [] earlier ++
        (again.entries [] ++ Declaration.entriesAll [] later) := by
      show Declaration.entriesAll [] declarations = _
      rw [hdeclarations, Declaration.entriesAll_append, Declaration.entriesAll]
    apply register_eq_self h
    · intro e he
      refine Entry.mem_paths.mpr ⟨e, ?_, rfl⟩
      rw [hes]
      exact List.mem_append_right _ (List.mem_append_left _ he)
    · intro p handler hagain
      -- Some entry of the declaration brings a handler at `p`, so no later entry does.
      have hlater : Entry.handler? (Declaration.entriesAll [] later) p = none := by
        rw [Entry.handler?_eq_none_iff]
        intro e' he' hpath'
        by_contra hsome
        have hnone : Entry.handler? (again.entries []) p = none := by
          rw [Entry.handler?_eq_none_iff]
          intro e he hpath
          by_contra hhandler
          exact hsome (hkept e he e' he' (hpath'.trans hpath.symm) (Option.isSome_iff_ne_none.mpr hhandler))
        rw [hnone] at hagain
        cases hagain
      rw [hes, Entry.handler?_append, Entry.handler?_append, hlater, hagain]
      rfl

/-- A command that runs, then the same word with an argument below it: the node keeps its number and its
    handler, and registering the command once more changes nothing. -/
theorem registration_by_entries_merged :
    let flag := (Declaration.literal "flag").runs fun c => (.ok (), c.source)
    let named := (Declaration.literal "flag").followedBy (.argument "name" .word)
    let d := ({} : Dispatcher Unit).registerAll [flag, named]
    d.tree.find? ["flag"] = some 1 ∧ d.tree.find? ["flag", "name"] = some 2 ∧
      (d.register flag).1 = d := by
  intro flag named d
  refine ⟨by decide, by decide, ?_⟩
  refine (registration_by_entries {} [flag, named]).2.2.2.2 [] flag [named] rfl ?_
  intro e he e' he' _ _
  have hentries : ∀ e' ∈ Declaration.entriesAll [] [named], e'.handler = none := by
    simp [named, Declaration.entriesAll, Declaration.entries, Declaration.followedBy,
      Declaration.literal, Declaration.argument]
  exact hentries e' he'

end Dispatcher

end CommandGrammar
