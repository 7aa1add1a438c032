import CommandGrammar.Console.Basic
import CommandGrammar.Dispatch

/-!
# `Demo` — a small grammar to play with

A player with a permission level stands somewhere on a plane and has some switches. The grammar lets
the player echo and say things, add numbers, flip switches, teleport and list all commands.

## Contents

* `Demo.Player` — the source, which also collects what was said;
* `Demo.Action`, `Demo.handler` — what a handler does, step by step: each change takes place at once and is not undone if
  a later step fails;
* the handlers, one per command;
* `Demo.Topic`, `Demo.topics` — what help knows about the commands;
* `Demo.commands`, `Demo.dispatcher` — the grammar.
-/

namespace CommandGrammar.Demo

/-! ## Players -/

/-- The source of the commands. -/
structure Player where
  /-- The player's name. -/
  name : String := "player"
  /-- What the player may do. -/
  permission : Nat := 0
  /-- Where the player stands. -/
  position : Point := ⟨0, 0⟩
  /-- The switches that were set. -/
  flags : List (String × Bool) := []
  /-- What was said and not shown yet. -/
  said : List String := []

namespace Player

/-- Says a line. -/
def say (p : Player) (line : String) : Player := { p with said := p.said ++ [line] }

/-- The value of a switch, if it was ever set. -/
def flag? (p : Player) (name : String) : Option Bool := p.flags.lookup name

/-- Sets a switch. -/
def setFlag (p : Player) (name : String) (value : Bool) : Player :=
  { p with flags := (name, value) :: p.flags.filter (·.1 ≠ name) }

end Player

instance : Feedback Player where
  drain p := (p.said, { p with said := [] })

/-- The switches that exist. -/
def flags : List String := ["debug_overlay", "fast_travel", "god_mode", "night_vision"]

/-- The permission that teleporting takes. -/
def teleportPermission : Nat := 2

/-! ## Handlers -/

/-- Steps of a handler. Each sees the player as the steps before it left it, also when one of them fails. -/
abbrev Action := EStateM Error Player

/-- A handler that takes the steps. -/
def handler (act : Context Player → Action Unit) : Handler Player := fun context =>
  match (act context).run context.source with
  | .ok _ player => (.ok (), player)
  | .error e player => (.error e, player)

/-- The value of an argument. -/
def ask (context : Context Player) (type : ValueType) (name : String) : Action type.Carrier :=
  ofExcept (context.argument type name)

/-- Says a line. -/
def say (line : String) : Action Unit := modify (·.say line)

/-- Fails for a reason. -/
def refuse (reason : String) : Action Unit := throw ⟨.commandFailed reason, none⟩

/-- Says the message. -/
def echo : Handler Player := handler fun context => do
  let message : String ← ask context .string "message"
  say message

/-- Says the sum of two numbers. -/
def addNumbers : Handler Player := handler fun context => do
  let a : Int ← ask context .int "a"
  let b : Int ← ask context .int "b"
  say (Number.intText (a + b))

/-- Whether the switch is to be on: the given value, or else the opposite of what it is. -/
def switchValue (context : Context Player) (flag : String) : Action Bool :=
  match context.captured? "value" with
  | some _ => ask context .bool "value"
  | none => do
    let player ← get
    return !(player.flag? flag).getD false

/-- Sets a switch to the given value, or flips it. -/
def toggle : Handler Player := handler fun context => do
  let flag : String ← ask context .string "flag"
  if flag ∉ flags then refuse ("Unknown flag \"" ++ flag ++ "\"")
  else
    let value ← switchValue context flag
    modify (·.setFlag flag value)
    say (flag ++ " is now " ++ if value then "on" else "off")

/-- Moves the player. -/
def teleport : Handler Player := handler fun context => do
  let destination : Position ← ask context .position "destination"
  let player ← get
  let target := destination.resolve player.position
  modify ({ · with position := target })
  say ("Teleported " ++ player.name ++ " to " ++ Number.doubleText target.x ++ " " ++ Number.doubleText target.y)

/-- Says the message under the player's name. -/
def speak : Handler Player := handler fun context => do
  let message : String ← ask context .string "message"
  let player ← get
  say ("<" ++ player.name ++ "> " ++ message)

/-! ## Help -/

/-- What help knows about a command. -/
structure Topic where
  /-- The command. -/
  name : String
  /-- The usage lines of what follows the command. -/
  lines : List String
  /-- Who may know about it. -/
  requirement : Player → Bool

/-- What is said about a command. -/
def Topic.text (topic : Topic) : List String :=
  topic.lines.map fun line =>
    if line = "" then "/" ++ topic.name else "/" ++ topic.name ++ " " ++ line

/-- The topics that a player may know about. -/
def visible (topics : List Topic) (player : Player) : List Topic :=
  topics.filter (·.requirement player)

/-- Says how a command is used. -/
def Topic.print (topic : Topic) : Action Unit := forM topic.text say

/-- Says how a command, or every command, is used. -/
def help (topics : List Topic) : Handler Player := handler fun context => do
  let known := visible topics (← get)
  match context.captured? "command" with
  | none => forM known Topic.print
  | some _ =>
    let name : String ← ask context .string "command"
    match known.find? (·.name == name) with
    | some topic => topic.print
    | none => refuse ("No such command: \"" ++ name ++ "\"")

/-! ## The grammar -/

/-- The whole numbers that can be added. -/
def number : ArgumentType := .int (.signed 32)

/-- All commands; help knows about the given topics. -/
def commands (topics : List Topic) : List (Declaration Player) := [
  .followedBy (.literal "echo") ((Declaration.argument "message" .greedy).runs echo),
  .followedBy (.literal "add") <| .followedBy (.argument "a" number)
    ((Declaration.argument "b" number).runs addNumbers),
  .followedBy (.literal "toggle") <| .followedBy
    (((Declaration.argument "flag" .word).offers fun _ b => b.suggestMatching flags).runs toggle)
    ((Declaration.argument "value" .bool).runs toggle),
  .followedBy ((Declaration.literal "teleport").requires fun p => teleportPermission ≤ p.permission)
    ((Declaration.argument "destination" (.position [("~", "~"), ("0", "0")])).runs teleport),
  .followedBy (.literal "say") ((Declaration.argument "message" .string).runs speak),
  .followedBy ((Declaration.literal "help").runs (help topics)) <|
    ((Declaration.argument "command" .word).offers fun context b =>
      b.suggestMatching ((visible topics context.source).map Topic.name)).runs (help topics)
]

/-- The grammar, with help that knows about the given topics. -/
def withTopics (settings : Dispatch.Settings) (topics : List Topic) : Dispatcher Player :=
  Dispatcher.registerAll { settings } (commands topics)

/-- What help knows about the commands. Usage lines do not depend on what help knows. -/
def topics : List Topic :=
  let bare := withTopics {} []
  (bare.tree.children 0).map fun child => {
    name := child.1.label.name
    lines := (bare.usage child.2 {} false).toOption.getD []
    requirement := child.1.requirement
  }

/-- The grammar. -/
def dispatcher (settings : Dispatch.Settings) : Dispatcher Player := withTopics settings topics

end CommandGrammar.Demo
