import CommandGrammar.Tree.Label

/-!
# `Tree` — grammars

A tree holds the nodes of a grammar in the order of their registration, each with its parent. The
root is node 0 and is not stored; node `k + 1` is the branch at position `k`. The children of a node
are therefore always in the order of registration. An `Arena` keeps the same nodes with indexes of their
children.

## Contents

* `Branch`, `Tree`, `Node`, `Tree.node` — stored nodes, and nodes including the root;
* `Tree.children`, `Tree.child?`, `Tree.find?` — descending by name;
* `Tree.insert`, `Tree.add` — putting in a declaration; one whose name is taken is merged into the
  node that has it;
* `Tree.candidates` — the children worth trying where a scanner stands.
-/

namespace CommandGrammar

variable {S : Type}

/-! ## Nodes -/

/-- A node other than the root. -/
structure Branch (S : Type) where
  /-- The node below which it stands. -/
  parent : NodeId
  /-- What it matches. -/
  label : Label S
  /-- Which sources may use it. -/
  requirement : S → Bool
  /-- What to run when a line ends at it. -/
  handler : Option (Handler S)

/-- The nodes of a grammar. -/
structure Tree (S : Type) where
  /-- All nodes but the root, in the order of registration. -/
  branches : List (Branch S) := []

/-- A node of a grammar. -/
inductive Node (S : Type) where
  | root
  | branch (branch : Branch S)

namespace Node

/-- The name of a node; the root has none. -/
def name : Node S → String
  | root => ""
  | branch b => b.label.name

/-- How a node is shown in usage lines. -/
def usage : Node S → String
  | root => ""
  | branch b => b.label.usage

/-- Texts that a node matches. -/
def examples : Node S → List String
  | root => []
  | branch b => b.label.examples

/-- Whether a node is a fixed word. -/
def isLiteral : Node S → Bool
  | root => false
  | branch b => b.label.isLiteral

/-- What to run when a line ends at a node. -/
def handler : Node S → Option (Handler S)
  | root => none
  | branch b => b.handler

/-- Whether a source may use a node. -/
def allows (source : S) : Node S → Bool
  | root => true
  | branch b => b.requirement source

/-- Matches a node where the scanner stands; the root matches without reading. -/
def read {H : Type} (id : NodeId) (s : Scanner) (trail : Trail S H) : Node S → Scanned (Trail S H)
  | root => .ok trail s
  | branch b => b.label.read id s trail

/-- What a node offers in place of a token. -/
def suggest (context : Context S) (b : Builder) : Node S → Except Failure Suggestions
  | root => .ok .empty
  | branch node => node.label.suggest context b

end Node

namespace Tree

/-- The tree that holds nothing but the root. -/
def empty : Tree S := {}

/-- The number of nodes, the root included. -/
def size (t : Tree S) : Nat := t.branches.length + 1

/-- The stored node with an id; the root is not stored. -/
def branch? (t : Tree S) : NodeId → Option (Branch S)
  | 0 => none
  | k + 1 => t.branches[k]?

/-- The node with an id. -/
def node (t : Tree S) (id : NodeId) : Except Fault (Node S) :=
  if id = 0 then .ok .root else (t.branch? id).elim (.error .unknownNode) fun b => .ok (.branch b)

/-- How the node with an id is shown in usage lines. -/
def usageOf (t : Tree S) (id : NodeId) : String := (t.branch? id).elim "" (·.label.usage)

/-! ## Descending -/

/-- A node's children with their ids, in the order of registration. -/
def children (t : Tree S) (id : NodeId) : List (Branch S × NodeId) :=
  (t.branches.zipIdx 1).filter (·.1.parent == id)

/-- The children that match arguments. -/
def arguments (t : Tree S) (id : NodeId) : List (Branch S × NodeId) :=
  (t.children id).filter (·.1.label.isArgument)

/-- Whether some child matches a word. -/
def hasLiterals (t : Tree S) (id : NodeId) : Bool := (t.children id).any (·.1.label.isLiteral)

/-- The child of a node with a given name. -/
def child? (t : Tree S) (id : NodeId) (name : String) : Option NodeId :=
  ((t.children id).find? (·.1.label.name == name)).map Prod.snd

/-- The node at the end of a path of names from the root. -/
def find? (t : Tree S) (path : List String) : Option NodeId := path.foldlM t.child? 0

/-! ## Registration -/

/-- Puts in a single node. Below a parent that has a child of that name already, the child stays as
    it is, except that a new handler replaces the old one. -/
def settle (t : Tree S) (parent : NodeId) (label : Label S) (requirement : S → Bool)
    (handler : Option (Handler S)) : Tree S × NodeId :=
  match t.child? parent label.name with
  | some id =>
    (⟨t.branches.modify (id - 1) fun b => { b with handler := handler.or b.handler }⟩, id)
  | none => (⟨t.branches ++ [⟨parent, label, requirement, handler⟩]⟩, t.size)

mutual

/-- Puts in a declaration below a node, its children after it. -/
def insert (t : Tree S) (parent : NodeId) : Declaration S → Tree S
  | ⟨label, requirement, handler, children⟩ =>
    let settled := t.settle parent label requirement handler
    settled.1.insertAll settled.2 children

/-- Puts in several declarations below a node, one after the other. -/
def insertAll (t : Tree S) (parent : NodeId) : List (Declaration S) → Tree S
  | [] => t
  | d :: ds => (t.insert parent d).insertAll parent ds

end

/-- Puts in a declaration below the root, and tells the id of its node. -/
def register (t : Tree S) (d : Declaration S) : Tree S × NodeId :=
  (t.insert 0 d, (t.settle 0 d.label d.requirement d.handler).2)

/-- Puts in a declaration below a node, and tells the id of its node. -/
def add (t : Tree S) (parent : NodeId) (d : Declaration S) : Except Fault (Tree S × NodeId) :=
  if parent < t.size then
    .ok (t.insert parent d, (t.settle parent d.label d.requirement d.handler).2)
  else .error .unknownNode

/-! ## Candidates -/

/-- The children worth trying where the scanner stands: the word that stands there, if it is among
    them, and otherwise all arguments. -/
def candidates (t : Tree S) (id : NodeId) (s : Scanner) : List (Branch S × NodeId) :=
  match (t.children id).find? fun c => c.1.label.isLiteral && c.1.label.name.toList == s.token with
  | some c => [c]
  | none => t.arguments id

end Tree

end CommandGrammar
