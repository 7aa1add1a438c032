import CommandGrammar.Tree.Basic

/-!
# `Tree.Arena` — grammars as they are kept in memory

A grammar is kept as a list of cells, one for each node in the order of registration, the root first. A cell holds what
its node is, and it holds the node's children four times over: all of them in the order of registration, each under its
name, the words each under its name, and the arguments in the order of registration. Looking something up never searches
among siblings; in return, every node that is put in has to be entered wherever it belongs.

## Contents

* `Index`, `Index.find?`, `Index.insert` — nodes by name;
* `Cell`, `Cell.child?`, `Cell.hasLiterals` — a node and its children;
* `Cell.link` — entering a child;
* `Arena`, `Arena.cell`, `Arena.update` — all cells; an id without a cell is a fault;
* `Arena.settle`, `Arena.add` — putting in a declaration; one whose name is taken is merged into the node that has it;
* `Arena.find`, `Arena.candidates` — looking up a path of names, and the children worth trying where a scanner stands.

`Tree` says the same with a single list and no indexes, and reading, running and completing lines are defined on it.
-/

namespace CommandGrammar

variable {S : Type}

/-! ## Indexes -/

/-- Nodes by name, one for each name. -/
structure Index where
  /-- The names and their nodes. -/
  entries : List (String × NodeId) := []

namespace Index

/-- The node of a name. -/
def find? (index : Index) (name : String) : Option NodeId := index.entries.lookup name

/-- Enters a node under a name, in place of the one that was there. -/
def insert (index : Index) (name : String) (id : NodeId) : Index :=
  ⟨(name, id) :: index.entries.filter (·.1 ≠ name)⟩

/-- Whether there are no nodes. -/
def isEmpty (index : Index) : Bool := index.entries.isEmpty

end Index

/-! ## Cells -/

/-- A node as it is kept, with its children. -/
structure Cell (S : Type) where
  /-- What the node matches; the root matches nothing. -/
  label : Option (Label S)
  /-- Which sources may use the node. -/
  requirement : S → Bool
  /-- What to run when a line ends at the node. -/
  handler : Option (Handler S)
  /-- The children, in the order of registration. -/
  children : List NodeId := []
  /-- The children by their names. -/
  byName : Index := {}
  /-- The children that match words, by their names. -/
  literals : Index := {}
  /-- The children that match arguments, in the order of registration. -/
  arguments : List NodeId := []

namespace Cell

/-- The root, without children. -/
def root : Cell S := { label := none, requirement := fun _ => true, handler := none }

/-- The child of a name. -/
def child? (cell : Cell S) (name : String) : Option NodeId := cell.byName.find? name

/-- Whether some child matches a word. -/
def hasLiterals (cell : Cell S) : Bool := !cell.literals.isEmpty

/-- Enters a child: by its name, and as a word or as an argument. -/
def link (cell : Cell S) (id : NodeId) (label : Label S) : Cell S :=
  { cell with
    children := cell.children ++ [id]
    byName := cell.byName.insert label.name id
    literals := if label.isLiteral then cell.literals.insert label.name id else cell.literals
    arguments := if label.isLiteral then cell.arguments else cell.arguments ++ [id] }

end Cell

/-! ## Arenas -/

/-- All nodes of a grammar. -/
structure Arena (S : Type) where
  /-- The nodes, in the order of registration. -/
  cells : List (Cell S)

namespace Arena

/-- The arena that holds nothing but the root. -/
def empty : Arena S := ⟨[Cell.root]⟩

/-- The number of nodes, the root included. -/
def size (a : Arena S) : Nat := a.cells.length

/-- The node with an id. -/
def cell (a : Arena S) (id : NodeId) : Except Fault (Cell S) := a.cells[id]?.elim (.error .unknownNode) .ok

/-- Changes the node with an id. -/
def update (a : Arena S) (id : NodeId) (f : Cell S → Cell S) : Except Fault (Arena S) :=
  if id < a.size then .ok ⟨a.cells.modify id f⟩ else .error .unknownNode

/-! ## Registration -/

/-- Replaces the handler of a node, if there is a new one. -/
def handle (a : Arena S) (id : NodeId) : Option (Handler S) → Except Fault (Arena S)
  | none => .ok a
  | some handler => a.update id ({ · with handler := some handler })

/-- Puts in a single node. Below a parent that has a child of that name already, the child stays as
    it is, except that a new handler replaces the old one. -/
def settle (a : Arena S) (parent : NodeId) (label : Label S) (requirement : S → Bool)
    (handler : Option (Handler S)) : Except Fault (Arena S × NodeId) := do
  let above ← a.cell parent
  match above.child? label.name with
  | some id => return (← a.handle id handler, id)
  | none =>
    let grown : Arena S := ⟨a.cells ++ [{ label := some label, requirement, handler }]⟩
    return (← grown.update parent (·.link a.size label), a.size)

mutual

/-- Puts in a declaration below a node, its children after it, and tells the id of its node. -/
def add (a : Arena S) (parent : NodeId) : Declaration S → Except Fault (Arena S × NodeId)
  | ⟨label, requirement, handler, children⟩ => do
    let (settled, id) ← a.settle parent label requirement handler
    return (← settled.addAll id children, id)

/-- Puts in several declarations below a node, one after the other. -/
def addAll (a : Arena S) (parent : NodeId) : List (Declaration S) → Except Fault (Arena S)
  | [] => .ok a
  | d :: ds => do
    let (grown, _) ← a.add parent d
    grown.addAll parent ds

end

/-! ## Looking up -/

/-- The node at the end of a path of names from a node. -/
def findFrom (a : Arena S) (id : NodeId) : List String → Except Fault (Option NodeId)
  | [] => .ok (some id)
  | name :: path => do
    match (← a.cell id).child? name with
    | some child => a.findFrom child path
    | none => return none

/-- The node at the end of a path of names from the root. -/
def find (a : Arena S) (path : List String) : Except Fault (Option NodeId) := a.findFrom 0 path

/-- The children worth trying where the scanner stands: the word that stands there, if it is among
    them, and otherwise all arguments. -/
def candidates (a : Arena S) (id : NodeId) (s : Scanner) : Except Fault (List NodeId) := do
  let cell ← a.cell id
  if cell.literals.isEmpty then return cell.arguments
  match cell.literals.find? (String.ofList s.token) with
  | some literal => return [literal]
  | none => return cell.arguments

end Arena

end CommandGrammar
