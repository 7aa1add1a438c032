import CommandGrammar.Position

/-!
# `Value` — what an argument was read as

## Contents

* `ValueType`, `ValueType.Carrier`, `ValueType.name` — the types that values can have;
* `Value`, `Value.type` — a value with its type;
* `Value.as?` — a value under an expected type.
-/

namespace CommandGrammar

/-- The types that values of arguments can have. -/
inductive ValueType where
  | int
  | long
  | double
  | single
  | bool
  | string
  | position
deriving DecidableEq, Repr

/-- What a value of the type holds. -/
def ValueType.Carrier : ValueType → Type
  | int => Int
  | long => Int
  | double => Float
  | single => Float32
  | bool => Bool
  | string => String
  | position => Position

/-- The name under which the type is shown. -/
def ValueType.name : ValueType → String
  | int => "i32"
  | long => "i64"
  | double => "f64"
  | single => "f32"
  | bool => "bool"
  | string => "alloc::string::String"
  | position => "argot_stdlib::position::Position"

/-- A value that was read. -/
inductive Value where
  | int (value : Int)
  | long (value : Int)
  | double (value : Float)
  | single (value : Float32)
  | bool (value : Bool)
  | string (value : String)
  | position (value : Position)

/-- The type of a value. -/
def Value.type : Value → ValueType
  | int _ => .int
  | long _ => .long
  | double _ => .double
  | single _ => .single
  | bool _ => .bool
  | string _ => .string
  | position _ => .position

/-- What a value holds, when it is of the expected type. -/
def Value.as? : (type : ValueType) → Value → Option type.Carrier
  | .int, .int value => some value
  | .long, .long value => some value
  | .double, .double value => some value
  | .single, .single value => some value
  | .bool, .bool value => some value
  | .string, .string value => some value
  | .position, .position value => some value
  | _, _ => none

end CommandGrammar
