import CommandGrammar.Fault

/-!
# `Error` — mistakes in a command line

An error says what is wrong with the text that was read and, when it is known, where. Its message
ends with an excerpt of the text up to that place.

## Contents

* `Error.Kind`, `Error.Kind.text` — what is wrong, and its wording;
* `Error.Place`, `Error.Place.excerpt`, `Error.Place.text` — where, and how that is shown;
* `Error`, `Error.message` — both together;
* `Failure` — the ways in which code from outside can end early.
-/

namespace CommandGrammar

/-- The kinds of numbers that can be read. -/
inductive NumberKind where
  | integer
  | long
  | float
  | double
deriving DecidableEq, Repr

/-- The name of a kind of number. -/
def NumberKind.name : NumberKind → String
  | integer => "integer"
  | long => "long"
  | float => "float"
  | double => "double"

namespace Error

/-! ## What is wrong -/

/-- What is wrong with a command line. -/
inductive Kind where
  /-- A quoted string was expected, but no quote stands here. -/
  | startOfQuoteExpected
  /-- A quoted string is not closed. -/
  | endOfQuoteExpected
  /-- A character stands after a backslash that may not be escaped. -/
  | invalidEscape (escaped : Char)
  /-- A number was expected, but none stands here. -/
  | numberExpected (kind : NumberKind)
  /-- What stands here is made of number characters, but is no number of this kind. -/
  | invalidNumber (kind : NumberKind) (found : String)
  /-- A truth value was expected, but nothing stands here. -/
  | boolExpected
  /-- What stands here is no truth value. -/
  | invalidBool (found : String)
  /-- A certain character was expected. -/
  | symbolExpected (symbol : Char)
  /-- A number is below the least one allowed. -/
  | tooLow (kind : NumberKind) (found least : String)
  /-- A number is above the greatest one allowed. -/
  | tooHigh (kind : NumberKind) (found greatest : String)
  /-- A certain word was expected. -/
  | literalExpected (name : String)
  /-- An argument is followed by something other than a separator. -/
  | separatorExpected
  /-- No command of this name is known. -/
  | unknownCommand
  /-- No argument of the command matches what stands here. -/
  | incorrectArgument
  /-- The command cannot be run as it stands. -/
  | notExecutable (usage : String)
  /-- An argument is cut short. -/
  | incompleteArgument (reason : String)
  /-- A handler asked for an argument that the command does not have. -/
  | unknownArgument (name : String)
  /-- A handler asked for an argument under another type than it has. -/
  | typeMismatch (name expected : String)
  /-- The command was run and failed. -/
  | commandFailed (reason : String)
  /-- Something else went wrong. -/
  | internal (reason : String)
deriving DecidableEq, Repr

/-- The wording of what is wrong. -/
def Kind.text : Kind → String
  | startOfQuoteExpected => "expected quote to start a string"
  | endOfQuoteExpected => "unclosed quoted string"
  | invalidEscape escaped =>
    "invalid escape sequence '\\" ++ String.singleton escaped ++ "' in quoted string"
  | numberExpected kind => "expected " ++ kind.name
  | invalidNumber kind found => "invalid " ++ kind.name ++ " '" ++ found ++ "'"
  | boolExpected => "expected bool"
  | invalidBool found => "invalid bool, expected true or false but found '" ++ found ++ "'"
  | symbolExpected symbol => "expected '" ++ String.singleton symbol ++ "'"
  | tooLow kind found least => kind.name ++ " must not be less than " ++ least ++ ", found " ++ found
  | tooHigh kind found greatest =>
    kind.name ++ " must not be more than " ++ greatest ++ ", found " ++ found
  | literalExpected name => "expected literal " ++ name
  | separatorExpected => "expected whitespace to end one argument, but found trailing data"
  | unknownCommand => "unknown command"
  | incorrectArgument => "incorrect argument for command"
  | notExecutable usage => "incomplete command: '" ++ usage ++ "' is not executable"
  | incompleteArgument reason => "incomplete argument: " ++ reason
  | unknownArgument name => "no such argument '" ++ name ++ "' exists on this command"
  | typeMismatch name expected => "argument '" ++ name ++ "' is not of type " ++ expected
  | commandFailed reason => reason
  | internal reason => "internal error: " ++ reason

/-! ## Where -/

/-- A place in a text. -/
structure Place where
  /-- The whole text. -/
  input : String
  /-- The byte offset of the place. -/
  cursor : Nat
deriving DecidableEq, Repr

/-- How many characters before the place are shown. -/
def excerptLength : Nat := 10

/-- The end of the text before the place, with dots in front when some of it is left out. A place
    past the end counts as the end, and one inside a character shows the end of the whole text. -/
def Place.excerpt (place : Place) : String :=
  let text := place.input.toList
  let shown := (Text.cut (min place.cursor (Text.size text)) text).elim text Prod.fst
  let hidden := shown.length - excerptLength
  if hidden = 0 then String.ofList shown else "..." ++ String.ofList (shown.drop hidden)

/-- How a place is shown behind the wording of an error. -/
def Place.text (place : Place) : String :=
  " at position " ++ toString place.cursor ++ ": " ++ place.excerpt ++ "<--[HERE]"

end Error

/-! ## Both together -/

/-- A mistake in a command line. -/
structure Error where
  /-- What is wrong. -/
  kind : Error.Kind
  /-- Where it is wrong, if that is known. -/
  place : Option Error.Place := none
deriving DecidableEq, Repr

/-- The full text of an error. -/
def Error.message (error : Error) : String :=
  error.kind.text ++ error.place.elim "" Error.Place.text

/-- Where an error was found, if that is known. -/
def Error.cursor? (error : Error) : Option Nat := error.place.map Error.Place.cursor

/-- How code from outside, such as a provider of suggestions or an editor, can end early: with an
    error, or by breaking a contract. -/
inductive Failure where
  | error (error : Error)
  | fault (fault : Fault)
deriving DecidableEq, Repr

instance : MonadLift (Except Fault) (Except Failure) where
  monadLift result := result.mapError Failure.fault

end CommandGrammar
