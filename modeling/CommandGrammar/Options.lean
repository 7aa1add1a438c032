import CommandGrammar.Number

/-!
# `Options` — the command line of the program

## Contents

* `Options` — what can be asked for;
* `Options.Problem`, `Options.Problem.message` — what can be wrong with the words given;
* `Options.Word` — the part that a word plays;
* `Options.parse` — reading the words.
-/

namespace CommandGrammar

/-- What the program was asked to do. -/
structure Options where
  /-- Lines to run instead of a session. -/
  commands : List String := []
  /-- Whether to show the help text. -/
  help : Bool := false
  /-- Whether to show the version. -/
  version : Bool := false
  /-- Whether to leave out the welcome. -/
  noBanner : Bool := false
  /-- Whether to ask for suggestions one after the other. -/
  sequential : Bool := false
  /-- Whether to try every way of reading a line. -/
  exhaustive : Bool := false
  /-- How much to log. -/
  verbosity : Nat := 0
  /-- The permission of the user. -/
  permission : Nat := 0
deriving DecidableEq, Repr

namespace Options

/-- What can be wrong with the words given. -/
inductive Problem where
  | commandMissing
  | permissionMissing
  | invalidPermission (word : String)
  | unknownOption (word : String)
deriving DecidableEq, Repr

/-- The text of a problem. -/
def Problem.message : Problem → String
  | commandMissing => "--command requires a value"
  | permissionMissing => "--permission requires a value"
  | invalidPermission word => "invalid --permission value: " ++ word
  | unknownOption word => "unknown option: " ++ word

/-- The part that a word plays. -/
inductive Word where
  | help
  | version
  | noBanner
  | sequential
  | exhaustive
  /-- Adds to what is logged. -/
  | verbose (amount : Nat)
  /-- The next word is a line to run. -/
  | command
  /-- The next word is the permission. -/
  | permission
deriving DecidableEq, Repr

/-- The words that are known. -/
def Word.table : List (String × Word) := [
  ("-h", help), ("--help", help), ("-V", version), ("--version", version),
  ("--no-banner", noBanner), ("--sequential", sequential), ("--exhaustive", exhaustive),
  ("-v", verbose 1), ("--verbose", verbose 1), ("-vv", verbose 2),
  ("-c", command), ("--command", command), ("-p", permission), ("--permission", permission)
]

/-- The part that a word plays, if it is known. -/
def Word.of? (word : String) : Option Word := table.lookup word

/-- The greatest value of a small number. -/
def byteMax : Nat := 255

/-- Reads a number from 0 to 255; a plus sign may stand in front. -/
def byte? (word : String) : Option Nat :=
  let digits := match word.toList with
    | '+' :: cs => cs
    | cs => cs
  (Number.nat? digits).filter (· ≤ byteMax)

/-- Reads words one after the other into `options`. -/
def parseInto (options : Options) : List String → Except Problem Options
  | [] => .ok options
  | word :: words =>
    match Word.of? word with
    | none => .error (.unknownOption word)
    | some .help => parseInto { options with help := true } words
    | some .version => parseInto { options with version := true } words
    | some .noBanner => parseInto { options with noBanner := true } words
    | some .sequential => parseInto { options with sequential := true } words
    | some .exhaustive => parseInto { options with exhaustive := true } words
    | some (.verbose amount) =>
      parseInto { options with verbosity := min byteMax (options.verbosity + amount) } words
    | some .command =>
      match words with
      | [] => .error .commandMissing
      | value :: rest => parseInto { options with commands := options.commands ++ [value] } rest
    | some .permission =>
      match words with
      | [] => .error .permissionMissing
      | value :: rest =>
        match byte? value with
        | none => .error (.invalidPermission value)
        | some permission => parseInto { options with permission } rest

/-- Reads the words that follow the program's name. -/
def parse (words : List String) : Except Problem Options := parseInto {} words

end Options

end CommandGrammar
