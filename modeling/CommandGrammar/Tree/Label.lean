import CommandGrammar.Argument
import CommandGrammar.Context

/-!
# `Tree.Label` — what a node of a grammar matches

A node matches either one fixed word or an argument of some type. Both kinds have a name, share one space of names among
siblings, and can offer suggestions.

## Contents

* `Handler`, `Provider` — the code that a grammar's author attaches to nodes;
* `Label`, with `name`, `usage` and `examples`;
* `Label.read` — matching a label at a scanner and recording it on a trail;
* `Label.suggest` — the suggestions of a label for a token;
* `Declaration` — a node with everything below it, before it is put into a tree. It is built up from a word or an
  argument by adding a handler, a requirement, a provider and children.
-/

namespace CommandGrammar

/-- What happens when a command is run: the outcome, and the source afterwards. -/
abbrev Handler (S : Type) := Context S → Except Error Unit × S

/-- Code that offers suggestions for an argument. -/
abbrev Provider (S : Type) := Context S → Builder → Except Failure Suggestions

/-- What a node matches. -/
inductive Label (S : Type) where
  /-- The word `name` itself. -/
  | literal (name : String)
  /-- An argument of a type; a provider replaces the type's own suggestions. -/
  | argument (name : String) (type : ArgumentType) (provider : Option (Provider S))

namespace Label

variable {S H : Type}

/-! ## Names -/

/-- The name of a label. -/
def name : Label S → String
  | literal name => name
  | argument name _ _ => name

/-- Whether the label is a fixed word. -/
def isLiteral : Label S → Bool
  | literal _ => true
  | argument _ _ _ => false

/-- Whether the label is an argument. -/
def isArgument : Label S → Bool
  | literal _ => false
  | argument _ _ _ => true

/-- How the label is shown in usage lines. -/
def usage : Label S → String
  | literal name => name
  | argument name _ _ => "<" ++ name ++ ">"

/-- Texts that the label matches. -/
def examples : Label S → List String
  | literal name => [name]
  | argument _ type _ => type.examples

/-! ## Matching -/

/-- Matches the label where the scanner stands and records it as node `id`. A word must be followed
    by a separator or the end; for an argument that is not checked here. -/
def read (id : NodeId) (s : Scanner) (trail : Trail S H) : Label S → Scanned (Trail S H)
  | literal name =>
    let t := s.advance name.toList.length
    if name.toList.isPrefixOf s.rest && t.atBreak then
      .ok (trail.step id ⟨s.cursor, s.cursor + Text.byteSize name, Nat.le_add_right _ _⟩) t
    else .error (s.error (.literalExpected name)) s
  | argument name type _ =>
    match type.capture s with
    | .ok c t => .ok ((trail.capture name c).step id c.range) t
    | .error e t => .error e t

/-! ## Suggestions -/

/-- What the label offers in place of a token. A word is offered when the token starts it, both in
    lower case. -/
def suggest (context : Context S) (b : Builder) : Label S → Except Failure Suggestions
  | literal name => do
    let typed ← b.remainingLower
    if typed.toList.isPrefixOf (Text.lowercase name).toList then
      let b ← b.suggest name
      b.build
    else return .empty
  | argument _ type none => type.suggest b
  | argument _ _ (some provider) => provider context b

end Label

/-! ## Declarations -/

/-- A node to be put into a tree, with everything below it. -/
structure Declaration (S : Type) where
  /-- What the node matches. -/
  label : Label S
  /-- Which sources may use the node. -/
  requirement : S → Bool := fun _ => true
  /-- What to run when a line ends at the node. -/
  handler : Option (Handler S) := none
  /-- What may follow the node. -/
  children : List (Declaration S) := []

namespace Declaration

variable {S : Type}

/-- The name of the node. -/
def name (d : Declaration S) : String := d.label.name

/-- A node that matches a word. -/
def literal (name : String) : Declaration S := { label := .literal name }

/-- A node that matches an argument. -/
def argument (name : String) (type : ArgumentType) : Declaration S :=
  { label := .argument name type none }

/-- Lets a node follow. -/
def followedBy (d child : Declaration S) : Declaration S :=
  { d with children := d.children ++ [child] }

/-- Makes the node executable. -/
def runs (d : Declaration S) (handler : Handler S) : Declaration S :=
  { d with handler := some handler }

/-- Restricts the node to some sources. -/
def requires (d : Declaration S) (requirement : S → Bool) : Declaration S := { d with requirement }

/-- Gives an argument suggestions of its own; a word keeps offering itself. -/
def offers (d : Declaration S) (provider : Provider S) : Declaration S :=
  match d.label with
  | .literal _ => d
  | .argument name type _ => { d with label := .argument name type (some provider) }

end Declaration

end CommandGrammar
