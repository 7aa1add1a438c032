import CommandGrammar.Argument

/-!
# `Context` — what was matched so far

While a line is parsed, a trail records the nodes that matched, the arguments they captured and the
handler of the last one. Handlers and providers of suggestions are given the trail together with
the text it belongs to, as a context.

## Contents

* `Step`, `Trail` — the record, and the operations that extend it;
* `Slot`, `Trail.locate` — the node whose children are to be offered at a cursor;
* `Context`, `Trail.build`, `Context.argument` — the record as user code sees it.

A trail is generic in the type of its handlers, because handlers themselves take contexts.
-/

namespace CommandGrammar

/-- A node of a grammar, by the order of registration. The root is node 0. -/
abbrev NodeId := Nat

/-- How a node is shown. -/
def NodeId.render (id : NodeId) : String := "#" ++ toString id

/-- A node that matched a range of the line. -/
structure Step where
  /-- The node. -/
  node : NodeId
  /-- What it matched. -/
  range : Range
deriving DecidableEq, Repr

/-- The record of what was matched, for sources `S` and handlers `H`. -/
structure Trail (S H : Type) where
  /-- On whose behalf the line is read. -/
  source : S
  /-- The node at which the trail starts. -/
  root : NodeId
  /-- The range of everything that matched. -/
  range : Range
  /-- The nodes that matched, first one first. -/
  steps : List Step := []
  /-- The arguments that were captured, one per name. -/
  captures : List (String × Capture) := []
  /-- The handler of the last node, if it has one. -/
  handler : Option H := none
  /-- A trail that continues this one. -/
  child : Option (Trail S H) := none

namespace Trail

variable {S H : Type}

/-! ## Extending a trail -/

/-- An empty trail from a node and a place in the line. -/
def start (source : S) (root : NodeId) (cursor : Nat) : Trail S H :=
  { source, root, range := Range.point cursor }

/-- Records an argument; an earlier one of the same name is forgotten. -/
def capture (t : Trail S H) (name : String) (c : Capture) : Trail S H :=
  { t with captures := (name, c) :: t.captures.filter (·.1 ≠ name) }

/-- Records a node that matched. -/
def step (t : Trail S H) (node : NodeId) (range : Range) : Trail S H :=
  { t with steps := t.steps ++ [⟨node, range⟩], range := t.range.hull range }

/-- Records the handler of the last node, or that it has none. -/
def withHandler (t : Trail S H) (handler : Option H) : Trail S H := { t with handler }

/-- Continues the trail with another one. -/
def withChild (t child : Trail S H) : Trail S H := { t with child := some child }

/-- The last node that matched, or the root. -/
def last (t : Trail S H) : NodeId := (t.steps.getLast?.map Step.node).getD t.root

/-! ## Finding the node to complete -/

/-- A place for a child of `parent`, from `start` on. -/
structure Slot where
  /-- The node whose children may stand here. -/
  parent : NodeId
  /-- Where the child starts. -/
  start : Nat
deriving DecidableEq, Repr

/-- The slot of the first step that holds the cursor; without one, that of the last node. -/
def slotAmong (cursor start : Nat) : NodeId → List Step → Slot
  | previous, [] => ⟨previous, start⟩
  | previous, s :: rest =>
    if s.range.contains cursor then ⟨previous, s.range.start⟩
    else slotAmong cursor start s.node rest

/-- The slot past the end of all steps. -/
def slotBehind (root : NodeId) (start : Nat) (steps : List Step) : Slot :=
  match steps.getLast? with
  | some last => ⟨last.node, last.range.stop + 1⟩
  | none => ⟨root, start⟩

/-- The slot that a cursor stands in. A cursor before the trail is a fault. -/
def locate (cursor : Nat) : Trail S H → Except Fault Slot
  | ⟨_, root, range, steps, _, _, child⟩ =>
    if cursor < range.start then .error (.beforeStart cursor range.start)
    else if range.stop < cursor then
      match child with
      | some child => child.locate cursor
      | none => .ok (slotBehind root range.start steps)
    else .ok (slotAmong cursor range.start root steps)

/-! ## Forgetting handlers -/

/-- The trail with its handlers changed. -/
def mapHandler {H' : Type} (f : H → H') : Trail S H → Trail S H'
  | ⟨source, root, range, steps, captures, handler, none⟩ =>
    ⟨source, root, range, steps, captures, handler.map f, none⟩
  | ⟨source, root, range, steps, captures, handler, some child⟩ =>
    ⟨source, root, range, steps, captures, handler.map f, some (child.mapHandler f)⟩

section

variable {H' : Type} (f : H → H') (t : Trail S H)

@[simp] theorem source_mapHandler : (t.mapHandler f).source = t.source := by
  obtain ⟨_, _, _, _, _, _, _ | _⟩ := t <;> rfl

@[simp] theorem range_mapHandler : (t.mapHandler f).range = t.range := by
  obtain ⟨_, _, _, _, _, _, _ | _⟩ := t <;> rfl

@[simp] theorem steps_mapHandler : (t.mapHandler f).steps = t.steps := by
  obtain ⟨_, _, _, _, _, _, _ | _⟩ := t <;> rfl

@[simp] theorem captures_mapHandler : (t.mapHandler f).captures = t.captures := by
  obtain ⟨_, _, _, _, _, _, _ | _⟩ := t <;> rfl

end

end Trail

/-! ## Contexts -/

/-- What user code gets to see: the record and the text it belongs to. Of handlers only their
    presence can be seen. -/
structure Context (S : Type) where
  /-- The text. -/
  input : String
  /-- The record. -/
  trail : Trail S Unit

/-- The trail as a context over a text. -/
def Trail.build {S H : Type} (t : Trail S H) (input : String) : Context S :=
  ⟨input, t.mapHandler fun _ => ()⟩

namespace Context

variable {S : Type}

/-- On whose behalf the line is read. -/
def source (c : Context S) : S := c.trail.source

/-- The argument that was captured under a name. -/
def captured? (c : Context S) (name : String) : Option Capture := c.trail.captures.lookup name

/-- The value of an argument, which must have been captured and be of the expected type. -/
def argument (c : Context S) (type : ValueType) (name : String) : Except Error type.Carrier :=
  match c.captured? name with
  | none => .error ⟨.unknownArgument name, none⟩
  | some capture =>
    match capture.value.as? type with
    | none => .error ⟨.typeMismatch name type.name, none⟩
    | some value => .ok value

end Context

end CommandGrammar
