import CommandGrammar.Dispatch
import CommandGrammar.Proofs.Execution
import CommandGrammar.Proofs.Shape
import Mathlib.Data.List.Lex

/-!
# `Proofs.Listing` — usage lines are the ways to executable nodes

Usage lines are made by a walk that carries along the line so far, and that turns back at nodes which are not open.
Reading a line knows nothing of it. Here both are tied to the tree alone:

* `Tree.IsWay` — a way from a node down to an executable one, and `Tree.line` — the line of a way;
* `Tree.linesBelow_eq_map`, `Tree.foldl_extend` — the line that the walk carries along is that of the way it took;
* `Tree.Ordered.mem_ways_iff`, `Tree.pairwise_ways` — the walk takes every way, each before those that go on from it
  and then child by child; as lists of numbers the ways are in lexicographic order;
* `Tree.Ordered.existsUnique_isWay` — one way leads to each executable node;
* `Dispatcher.isWay_of_handlerOf` — a line that is run was read on such a way, through open nodes.
-/

namespace CommandGrammar

variable {S : Type}

namespace Tree

variable {t : Tree S}

/-! ## Lines -/

/-- The usage line of the nodes on a way: their usage texts with a space between two of them. Texts in front of the
    first that is not empty are left out. -/
def line (t : Tree S) (way : List NodeId) : String :=
  " ".intercalate ((way.map t.usageOf).dropWhile (· = ""))

theorem foldl_extend_of_ne {path : String} (h : path ≠ "") (texts : List String) :
    texts.foldl extend path = " ".intercalate (path :: texts) := by
  induction texts generalizing path with
  | nil => rfl
  | cons text texts ih =>
    have hne : path ++ " " ++ text ≠ "" := by simp
    rw [List.foldl_cons, extend, if_neg h, ih hne]
    rfl

/-- Making a line longer text by text joins the texts from the first that is not empty on. -/
theorem foldl_extend (texts : List String) :
    texts.foldl extend "" = " ".intercalate (texts.dropWhile (· = "")) := by
  induction texts with
  | nil => rfl
  | cons text texts ih =>
    rw [List.foldl_cons, extend, if_pos rfl]
    by_cases htext : text = ""
    · rw [List.dropWhile_cons_of_pos (by simpa using htext), htext, ih]
    · rw [List.dropWhile_cons_of_neg (by simpa using htext), foldl_extend_of_ne htext]

/-! ## Ways -/

/-- A way down from a node to an executable one, as the nodes behind the first. -/
def IsWay (t : Tree S) (node : NodeId) (way : List NodeId) : Prop :=
  List.IsChain t.IsChild (node :: way) ∧ ∃ last ∈ (node :: way).getLast?, (t.handlerAt? last).isSome

theorem isWay_nil {node : NodeId} : t.IsWay node [] ↔ (t.handlerAt? node).isSome := by simp [IsWay]

theorem isWay_cons {node next : NodeId} {way : List NodeId} :
    t.IsWay node (next :: way) ↔ t.IsChild node next ∧ t.IsWay next way := by
  rw [IsWay, IsWay, List.isChain_cons_cons, List.getLast?_cons_cons, and_assoc]

/-- The node with an id is stored, and a condition holds of it. -/
def Passes (t : Tree S) (allowed : Branch S → Bool) (id : NodeId) : Prop := ∃ b, t.branch? id = some b ∧ allowed b

/-- The ways through a child: one that ends there, if it can be run, and those that go on below it. -/
def waysThrough (c : Branch S × NodeId) (below : List (List NodeId)) : List (List NodeId) :=
  (if c.1.handler.isSome then [[c.2]] else []) ++ below.map (c.2 :: ·)

/-- The ways of `linesBelow`, node by node. -/
def waysBelow (t : Tree S) (allowed : Branch S → Bool) : (fuel : Nat) → NodeId → List (List NodeId)
  | 0, _ => []
  | fuel + 1, node =>
    ((t.children node).filter fun c => allowed c.1).flatMap fun c => waysThrough c (t.waysBelow allowed fuel c.2)

theorem mem_waysThrough_iff {c : Branch S × NodeId} {below : List (List NodeId)} {way : List NodeId} :
    way ∈ waysThrough c below ↔
      ∃ rest, way = c.2 :: rest ∧ (rest = [] ∧ c.1.handler.isSome ∨ rest ∈ below) := by
  unfold waysThrough
  rw [List.mem_append, List.mem_map]
  constructor
  · rintro (hway | ⟨rest, hrest, rfl⟩)
    · split at hway
      · next hhandler => exact ⟨[], List.mem_singleton.mp hway, .inl ⟨rfl, hhandler⟩⟩
      · cases hway
    · exact ⟨rest, rfl, .inr hrest⟩
  · rintro ⟨rest, rfl, ⟨rfl, hhandler⟩ | hrest⟩
    · exact .inl (by simp [hhandler])
    · exact .inr ⟨rest, hrest, rfl⟩

variable {allowed : Branch S → Bool} {fuel : Nat} {node : NodeId} {way : List NodeId}

theorem usageOf_of_mem_children {c : Branch S × NodeId} (h : c ∈ t.children node) :
    t.usageOf c.2 = c.1.label.usage := by
  rw [usageOf, branch?_of_mem_children h]
  rfl

/-- The lines are those of the ways. -/
theorem linesBelow_eq_map (t : Tree S) (allowed : Branch S → Bool) (fuel : Nat) (node : NodeId) (path : String) :
    t.linesBelow allowed fuel node path
      = (t.waysBelow allowed fuel node).map fun way => (way.map t.usageOf).foldl extend path := by
  induction fuel generalizing node path with
  | zero => rfl
  | succ fuel ih =>
    rw [linesBelow, waysBelow, List.map_flatMap]
    apply List.flatMap_congr
    intro c hc
    have husage : t.usageOf c.2 = c.1.label.usage := usageOf_of_mem_children (List.mem_of_mem_filter hc)
    dsimp only
    rw [ih, waysThrough]
    split <;> simp [husage, Function.comp_def]

theorem handlerAt?_of_mem_children {b : Branch S} {id : NodeId} (h : (b, id) ∈ t.children node) :
    t.handlerAt? id = b.handler := by
  rw [handlerAt?, branch?_of_mem_children h]
  rfl

/-- One level of the walk: a way ends at an allowed child that can be run, or goes on below it. -/
theorem mem_waysBelow_succ {next : NodeId} {rest : List NodeId} :
    next :: rest ∈ t.waysBelow allowed (fuel + 1) node ↔ ∃ b, (b, next) ∈ t.children node ∧ allowed b ∧
      (rest = [] ∧ b.handler.isSome ∨ rest ∈ t.waysBelow allowed fuel next) := by
  simp only [waysBelow, List.mem_flatMap, List.mem_filter, mem_waysThrough_iff]
  constructor
  · rintro ⟨⟨b, id⟩, ⟨hc, hallowed⟩, rest', heq, hway⟩
    obtain ⟨rfl, rfl⟩ := List.cons.inj heq
    exact ⟨b, hc, hallowed, hway⟩
  · rintro ⟨b, hc, hallowed, hway⟩
    exact ⟨(b, next), ⟨hc, hallowed⟩, rest, rfl, hway⟩

/-- **The walk finds every way** that is short enough and passes allowed nodes only. -/
theorem mem_waysBelow_iff : way ∈ t.waysBelow allowed fuel node ↔
    way ≠ [] ∧ way.length ≤ fuel ∧ t.IsWay node way ∧ ∀ id ∈ way, t.Passes allowed id := by
  induction fuel generalizing node way with
  | zero => simp +contextual [waysBelow]
  | succ fuel ih =>
    cases way with
    | nil => simp [waysBelow, mem_waysThrough_iff]
    | cons next rest =>
      rw [mem_waysBelow_succ, isWay_cons, List.length_cons, Nat.add_le_add_iff_right]
      constructor
      · rintro ⟨b, hc, hallowed, hway⟩
        have hpasses : t.Passes allowed next := ⟨b, branch?_of_mem_children hc, hallowed⟩
        rcases hway with ⟨rfl, hhandler⟩ | hbelow
        · rw [← handlerAt?_of_mem_children hc, ← isWay_nil] at hhandler
          exact ⟨List.cons_ne_nil _ _, Nat.zero_le _, ⟨⟨b, hc⟩, hhandler⟩, by simpa using hpasses⟩
        · obtain ⟨_, hlength, hrest, hall⟩ := ih.mp hbelow
          exact ⟨List.cons_ne_nil _ _, hlength, ⟨⟨b, hc⟩, hrest⟩, List.forall_mem_cons.mpr ⟨hpasses, hall⟩⟩
      · rintro ⟨_, hlength, ⟨⟨b, hc⟩, hrest⟩, hall⟩
        obtain ⟨⟨b', hbranch, hallowed⟩, hall⟩ := List.forall_mem_cons.mp hall
        obtain rfl : b = b' := Option.some.inj ((branch?_of_mem_children hc).symm.trans hbranch)
        refine ⟨b, hc, hallowed, ?_⟩
        by_cases hnil : rest = []
        · subst hnil
          rw [isWay_nil, handlerAt?_of_mem_children hc] at hrest
          exact .inl ⟨rfl, hrest⟩
        · exact .inr (ih.mpr ⟨hnil, hlength, hrest, hall⟩)

/-- **The walk finds the ways in order**: each before those that go on from it, and those through one child before
    those through the next. -/
theorem pairwise_waysBelow (t : Tree S) (allowed : Branch S → Bool) (fuel : Nat) (node : NodeId) :
    (t.waysBelow allowed fuel node).Pairwise (· < ·) := by
  induction fuel generalizing node with
  | zero => exact .nil
  | succ fuel ih =>
    rw [waysBelow, List.pairwise_flatMap]
    constructor
    · intro c _
      have hbelow : ((t.waysBelow allowed fuel c.2).map (c.2 :: ·)).Pairwise (· < ·) := by
        rw [List.pairwise_map]
        exact (ih c.2).imp fun hlt => List.cons_lt_cons_iff.mpr (.inr ⟨rfl, hlt⟩)
      unfold waysThrough
      split
      · refine List.pairwise_cons.mpr ⟨?_, hbelow⟩
        intro way hway
        obtain ⟨below, hmem, rfl⟩ := List.mem_map.mp hway
        obtain ⟨next, rest, rfl⟩ := List.exists_cons_of_ne_nil (mem_waysBelow_iff.mp hmem).1
        exact List.cons_lt_cons_iff.mpr (.inr ⟨rfl, List.nil_lt_cons _ _⟩)
      · exact hbelow
    · -- Ways through different children already differ in their first node.
      refine ((t.pairwise_children node).filter _).imp ?_
      intro c c' hlt way hway way' hway'
      obtain ⟨rest, rfl, _⟩ := mem_waysThrough_iff.mp hway
      obtain ⟨rest', rfl, _⟩ := mem_waysThrough_iff.mp hway'
      exact List.cons_lt_cons_iff.mpr (.inl hlt)

/-- The walk that keeps to some nodes finds a part of the ways, in the same order. -/
theorem waysBelow_sublist (t : Tree S) (allowed : Branch S → Bool) (fuel : Nat) (node : NodeId) :
    (t.waysBelow allowed fuel node).Sublist (t.waysBelow (fun _ => true) fuel node) := by
  have hsorted := t.pairwise_waysBelow allowed fuel node
  refine List.sublist_of_subperm_of_pairwise ?_ hsorted (t.pairwise_waysBelow (fun _ => true) fuel node)
  refine List.subperm_of_subset hsorted.nodup ?_
  intro way hway
  obtain ⟨hne, hlength, hisWay, hall⟩ := mem_waysBelow_iff.mp hway
  refine mem_waysBelow_iff.mpr ⟨hne, hlength, hisWay, fun id hid => ?_⟩
  obtain ⟨b, hbranch, _⟩ := hall id hid
  exact ⟨b, hbranch, rfl⟩

/-! ## One way to each node -/

/-- No way leads from a node back to it. -/
theorem Ordered.ne_of_isChain (h : t.Ordered) {last : NodeId}
    (hway : List.IsChain t.IsChild (node :: (way ++ [last]))) : node ≠ last := by
  have hgrow : (node :: (way ++ [last])).Pairwise (· < ·) :=
    List.isChain_iff_pairwise.mp (hway.imp fun _ _ => h.lt_of_isChild)
  exact Nat.ne_of_lt ((List.pairwise_cons.mp hgrow).1 last (by simp))

/-- A way is determined by its ends. -/
theorem Ordered.eq_of_isChain (h : t.Ordered) {way way' : List NodeId} (hway : List.IsChain t.IsChild (node :: way))
    (hway' : List.IsChain t.IsChild (node :: way')) (hlast : (node :: way).getLast? = (node :: way').getLast?) :
    way = way' := by
  induction way using List.reverseRecOn generalizing way' with
  | nil =>
    cases way' using List.reverseRecOn with
    | nil => rfl
    | append_singleton w' last' =>
      rw [← List.cons_append, List.getLast?_concat] at hlast
      exact absurd (Option.some.inj hlast) (h.ne_of_isChain hway')
  | append_singleton w last ih =>
    cases way' using List.reverseRecOn with
    | nil =>
      rw [← List.cons_append, List.getLast?_concat] at hlast
      exact absurd (Option.some.inj hlast).symm (h.ne_of_isChain hway)
    | append_singleton w' last' =>
      rw [← List.cons_append, List.isChain_append] at hway hway'
      rw [← List.cons_append, ← List.cons_append, List.getLast?_concat, List.getLast?_concat] at hlast
      obtain rfl : last = last' := Option.some.inj hlast
      -- Both ways come to the last node from its parent.
      obtain ⟨hw, _, hparent⟩ := hway
      obtain ⟨hw', _, hparent'⟩ := hway'
      rw [List.getLast?_eq_some_getLast (List.cons_ne_nil node w)] at hparent ih
      rw [List.getLast?_eq_some_getLast (List.cons_ne_nil node w')] at hparent'
      have hend := (hparent _ rfl last rfl).parent_unique (hparent' _ rfl last rfl)
      rw [ih hw hw' (by rw [hend, List.getLast?_eq_some_getLast (List.cons_ne_nil node w')])]

/-! ## All ways from a node -/

/-- The ways down from a node, the one that ends at it included. -/
def ways (t : Tree S) (allowed : Branch S → Bool) (node : NodeId) : List (List NodeId) :=
  (if (t.handlerAt? node).isSome then [[]] else []) ++ t.waysBelow allowed t.size node

theorem Ordered.mem_ways_iff (h : t.Ordered) :
    way ∈ t.ways allowed node ↔ t.IsWay node way ∧ ∀ id ∈ way, t.Passes allowed id := by
  rw [ways, List.mem_append, mem_waysBelow_iff]
  constructor
  · rintro (hway | ⟨_, _, hway⟩)
    · split at hway
      · next hhandler =>
        obtain rfl := List.mem_singleton.mp hway
        exact ⟨isWay_nil.mpr hhandler, by simp⟩
      · cases hway
    · exact hway
  · rintro ⟨hway, hall⟩
    by_cases hnil : way = []
    · subst hnil
      exact .inl (by simp [isWay_nil.mp hway])
    · exact .inr ⟨hnil, Nat.le_of_lt (h.length_lt_size hway.1), hway, hall⟩

theorem pairwise_ways (t : Tree S) (allowed : Branch S → Bool) (node : NodeId) :
    (t.ways allowed node).Pairwise (· < ·) := by
  rw [ways, List.pairwise_append]
  refine ⟨by split <;> simp, t.pairwise_waysBelow allowed t.size node, ?_⟩
  intro start hstart way hway
  obtain ⟨next, rest, rfl⟩ := List.exists_cons_of_ne_nil (mem_waysBelow_iff.mp hway).1
  split at hstart
  · rw [List.mem_singleton.mp hstart]
    exact List.nil_lt_cons _ _
  · cases hstart

theorem ways_sublist (t : Tree S) (allowed : Branch S → Bool) (node : NodeId) :
    (t.ways allowed node).Sublist (t.ways (fun _ => true) node) :=
  (List.Sublist.refl _).append (t.waysBelow_sublist allowed t.size node)

/-- Every executable node at or below a node is the end of one way from it. -/
theorem Ordered.existsUnique_isWay (h : t.Ordered) {below : NodeId} (habove : t.Above node below)
    (hhandler : (t.handlerAt? below).isSome) :
    ∃! way, t.IsWay node way ∧ (node :: way).getLast? = some below := by
  obtain ⟨way, hchain, hlast⟩ := List.exists_isChain_cons_of_relationReflTransGen habove
  have hend : (node :: way).getLast? = some below := by
    rw [List.getLast?_eq_some_getLast (List.cons_ne_nil node way), hlast]
  refine ⟨way, ⟨⟨hchain, below, hend, hhandler⟩, hend⟩, ?_⟩
  rintro other ⟨hother, hotherEnd⟩
  exact h.eq_of_isChain hother.1 hchain (hotherEnd.trans hend.symm)

/-- A stored node is open to a source exactly when its requirement says so. -/
theorem admits_iff_passes {source : S} {id : NodeId} {b : Branch S} (hbranch : t.branch? id = some b) :
    t.Admits source id ↔ t.Passes (fun b => b.requirement source) id := by
  constructor
  · intro hadmits
    exact ⟨b, hbranch, hadmits.requirement hbranch⟩
  · rintro ⟨b', hbranch', hallows⟩
    exact admits_of_branch? hbranch' hallows

/-- Every node on a way is stored. -/
theorem IsWay.exists_branch? (h : t.IsWay node way) {id : NodeId} (hid : id ∈ way) : ∃ b, t.branch? id = some b := by
  induction way generalizing node with
  | nil => cases hid
  | cons next rest ih =>
    obtain ⟨hchild, hrest⟩ := isWay_cons.mp h
    rcases List.mem_cons.mp hid with rfl | hid
    · obtain ⟨b, hbranch, _⟩ := isChild_iff.mp hchild
      exact ⟨b, hbranch⟩
    · exact ih hrest hid

theorem handler_of_node {id : NodeId} {found : Node S} (h : t.node id = .ok found) :
    found.handler = t.handlerAt? id := by
  cases id with
  | zero =>
    obtain rfl : Node.root = found := Except.ok.inj h
    rfl
  | succ k =>
    cases hbranch : t.branch? (k + 1) with
    | none => simp [Tree.node, hbranch] at h
    | some b =>
      rw [node_of_branch? hbranch] at h
      obtain rfl : Node.branch b = found := Except.ok.inj h
      rw [handlerAt?, hbranch]
      rfl

end Tree

namespace Dispatcher

/-- **The usage lines of a node are those of the ways down from it.** -/
theorem usage_eq_ways (d : Dispatcher S) {id : NodeId} {node : Node S} (h : d.tree.node id = .ok node) (source : S)
    (restricted : Bool) : d.usage id source restricted = .ok
      (if restricted && !node.allows source then []
        else (d.tree.ways (fun b => !restricted || b.requirement source) id).map d.tree.line) := by
  have hbelow : d.tree.linesBelow (fun b => !restricted || b.requirement source) d.tree.size id ""
      = (d.tree.waysBelow (fun b => !restricted || b.requirement source) d.tree.size id).map d.tree.line := by
    rw [Tree.linesBelow_eq_map]
    exact List.map_congr_left fun way _ => Tree.foldl_extend _
  rw [usage, h]
  show (if _ then _ else _) = _
  split
  · rfl
  · rw [hbelow, Tree.ways, Tree.handler_of_node h]
    split <;> rfl

/-- **The lines for a source are those of the ways through open nodes.** -/
theorem exists_usage_restricted {d : Dispatcher S} (h : d.tree.Ordered) {id : NodeId} {node : Node S}
    (hnode : d.tree.node id = .ok node) (source : S) :
    ∃ shown : List (List NodeId), d.usage id source true = .ok (shown.map d.tree.line) ∧
      shown.Sublist (d.tree.ways (fun _ => true) id) ∧
      ∀ way, way ∈ shown ↔ d.tree.IsWay id way ∧ ∀ n ∈ id :: way, d.tree.Admits source n := by
  have husage := d.usage_eq_ways hnode source true
  have hself : d.tree.Admits source id ↔ node.allows source := by
    constructor
    · rintro ⟨found, hfound, hallows⟩
      obtain rfl := Except.ok.inj (hnode.symm.trans hfound)
      exact hallows
    · exact fun hallows => ⟨node, hnode, hallows⟩
  by_cases hallows : node.allows source
  · rw [if_neg (by simp [hallows])] at husage
    refine ⟨d.tree.ways (fun b => b.requirement source) id, husage, d.tree.ways_sublist _ id, fun way => ?_⟩
    rw [h.mem_ways_iff, List.forall_mem_cons, hself]
    refine and_congr_right fun hway => ?_
    simp only [hallows, true_and]
    refine forall₂_congr fun n hn => ?_
    obtain ⟨b, hbranch⟩ := hway.exists_branch? hn
    exact (Tree.admits_iff_passes hbranch).symm
  · rw [if_pos (by simpa using hallows)] at husage
    refine ⟨[], husage, List.nil_sublist _, fun way => ?_⟩
    simp [hself, hallows]

/-- **The way that a run line was read on is a way for its source.** -/
theorem isWay_of_handlerOf (d : Dispatcher S) (s : Scanner) (source : S) {handler : Handler S}
    (h : d.handlerOf (d.parseFrom s source) = .ok handler) :
    d.tree.IsWay 0 ((d.parseFrom s source).trail.steps.map Step.node) ∧
      ∀ n ∈ 0 :: (d.parseFrom s source).trail.steps.map Step.node, d.tree.Admits source n := by
  have houtcome := d.outcome_parseFrom s source
  have htraces := houtcome.traces (d.tree.stands_start s source)
  have hgranted : d.tree.Granted source (d.parseFrom s source).trail :=
    (houtcome.granted ⟨rfl, by simp [Trail.start]⟩).1
  obtain ⟨last, hlast, hhandler, _⟩ := handlerOf_eq_ok htraces h
  refine ⟨⟨htraces.path, last.node, ?_, by simp [hhandler]⟩, ?_⟩
  · rw [List.getLast?_cons, List.getLast?_map, hlast]
    rfl
  · refine List.forall_mem_cons.mpr ⟨d.tree.admits_root source, ?_⟩
    intro n hn
    obtain ⟨step, hstep, rfl⟩ := List.mem_map.mp hn
    exact hgranted.2 step hstep

/-- **Usage lists the ways to executable nodes, and help agrees with reading.** In a grammar that was built up by
    adding declarations, the lines of a node are those of the ways down to executable nodes, itself included, in the
    order of a walk; there is one way to each such node. The lines for a source are a part of them: those of the ways
    on which every node, the first one included, is open to the source. And whenever a line that was read is run, the
    way on which it was read has its line among those of the root for the source. -/
theorem usage_lists_executable_ways (d : Dispatcher S) (h : d.tree.Reachable) (source : S) :
    (∀ id, id < d.tree.size → ∃ ways shown : List (List NodeId),
      d.usage id source false = .ok (ways.map d.tree.line) ∧
      d.usage id source true = .ok (shown.map d.tree.line) ∧
      ways.Pairwise (· < ·) ∧ (∀ way, way ∈ ways ↔ d.tree.IsWay id way) ∧
      (∀ below, d.tree.Above id below → (d.tree.handlerAt? below).isSome →
        ∃! way, way ∈ ways ∧ (id :: way).getLast? = some below) ∧
      shown.Sublist ways ∧ ∀ way, way ∈ shown ↔ way ∈ ways ∧ ∀ n ∈ id :: way, d.tree.Admits source n) ∧
    ∀ s handler, d.handlerOf (d.parseFrom s source) = .ok handler → ∃ lines,
      d.usage 0 source true = .ok lines ∧
        d.tree.line ((d.parseFrom s source).trail.steps.map Step.node) ∈ lines := by
  have hordered := h.ordered
  constructor
  · intro id hid
    obtain ⟨node, hnode⟩ := Tree.exists_node_of_lt_size hid
    obtain ⟨shown, hshown, hsublist, hmem⟩ := exists_usage_restricted hordered hnode source
    have hways : ∀ way, way ∈ d.tree.ways (fun _ => true) id ↔ d.tree.IsWay id way := by
      intro way
      rw [hordered.mem_ways_iff]
      refine ⟨And.left, fun hway => ⟨hway, fun n hn => ?_⟩⟩
      obtain ⟨b, hbranch⟩ := hway.exists_branch? hn
      exact ⟨b, hbranch, rfl⟩
    refine ⟨d.tree.ways (fun _ => true) id, shown, d.usage_eq_ways hnode source false, hshown,
      d.tree.pairwise_ways _ id, hways, ?_, hsublist, ?_⟩
    · intro below habove hhandler
      simpa only [hways] using hordered.existsUnique_isWay habove hhandler
    · intro way
      rw [hmem, hways]
  · intro s handler hhandler
    have hroot : d.tree.node 0 = .ok .root := rfl
    obtain ⟨shown, hshown, _, hmem⟩ := exists_usage_restricted hordered hroot source
    exact ⟨_, hshown, List.mem_map_of_mem ((hmem _).mpr (d.isWay_of_handlerOf s source hhandler))⟩

/-- A word without letters in front of a command, and a command that is not open: the line `" stop"` is read through
    both words, and its usage line holds the second only. -/
theorem usage_lists_executable_ways_hidden :
    let ran : Handler Nat := fun c => (.ok (), c.source)
    let d := ({} : Dispatcher Nat).registerAll
      [(Declaration.literal "").followedBy ((Declaration.literal "stop").runs ran),
        ((Declaration.literal "admin").requires (3 ≤ ·)).runs ran]
    d.tree.Reachable ∧ d.usage 0 1 false = .ok ["stop", "admin"] ∧ d.usage 0 1 true = .ok ["stop"] ∧
      d.tree.line ((d.parseFrom (Scanner.ofString " stop") 1).trail.steps.map Step.node) ∈ ["stop"] ∧
      ∃ ways : List (List NodeId), ways.map d.tree.line = ["stop", "admin"] ∧ ways.Pairwise (· < ·) ∧
        ∀ way, way ∈ ways ↔ d.tree.IsWay 0 way := by
  intro ran d
  have hreachable : d.tree.Reachable := reachable_registerAll .empty _
  have hall : d.usage 0 1 false = .ok ["stop", "admin"] := by decide +kernel
  have hopen : d.usage 0 1 true = .ok ["stop"] := by decide +kernel
  obtain ⟨hnodes, hlines⟩ := usage_lists_executable_ways d hreachable 1
  obtain ⟨ways, _, hways, _, hordered, hmem, _⟩ := hnodes 0 (by decide)
  have htraces := (d.outcome_parseFrom (Scanner.ofString " stop") 1).traces (d.tree.stands_start _ 1)
  have hexecutes : d.Executes (d.parse " stop" 1) 2 ran :=
    ⟨by decide +kernel, ⟨⟨2, ⟨1, 5, by decide⟩⟩, by decide +kernel, rfl⟩, rfl⟩
  obtain ⟨lines, hshown, hline⟩ := hlines _ ran (handlerOf_of_executes htraces.handler hexecutes)
  have hlinesEq : lines = ["stop"] := Except.ok.inj (hshown.symm.trans hopen)
  rw [hlinesEq] at hline
  exact ⟨hreachable, hall, hopen, hline, ways, Except.ok.inj (hways.symm.trans hall), hordered, hmem⟩

end Dispatcher

end CommandGrammar
