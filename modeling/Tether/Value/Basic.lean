import Tether.Octets
import Tether.Number.Binary32
import Tether.Number.Binary64
import Tether.Failure

/-! # Host values

`Value` is the closed set of shapes a host hands to its guest. Everything with a structure is
written as that structure; a `Handle` is known only by what it prints. -/

namespace Tether

/-- A reference to a host object without a structure of its own: the name of its type and its
printed form. -/
structure Handle where
  typeName : String
  display : String
  deriving DecidableEq, Inhabited

/-- A handle that stands for a numbered host resource. -/
def Handle.ofId (id : Int32) : Handle :=
  ⟨"HandleValue", toString id.toInt⟩

/-- A value the host can hand to the guest. -/
inductive Value where
  | nil
  | bool (b : Bool)
  | int (n : Int32)
  | long (n : Int64)
  | float (x : Binary32)
  | double (x : Binary64)
  | string (s : String)
  | bytes (data : Octets)
  | array (items : List Value)
  | list (items : List Value)
  | map (entries : List (Value × Value))
  | signal (name : String) (args : List Value)
  | failure (record : Failure)
  | handle (h : Handle)
  deriving Inhabited

/-- A named host event with its arguments in order. -/
structure Signal where
  name : String
  args : List Value
  deriving Inhabited

namespace Signal

def withArg (s : Signal) (arg : Value) : Signal :=
  { s with args := s.args ++ [arg] }

def toValue (s : Signal) : Value :=
  .signal s.name s.args

/-- The sequence a guest receives for a signal: its name, then the list of its arguments. -/
def wrap (s : Signal) : Value :=
  .list [.string s.name, .list s.args]

end Signal

namespace Value

def kind : Value → String
  | .nil => "nil"
  | .bool _ => "bool"
  | .int _ => "int"
  | .long _ => "long"
  | .float _ => "float"
  | .double _ => "double"
  | .string _ => "string"
  | .bytes _ => "bytes"
  | .array _ => "array"
  | .list _ => "list"
  | .map _ => "map"
  | .signal _ _ => "signal"
  | .failure _ => "failure"
  | .handle _ => "handle"

def isNil : Value → Bool
  | .nil => true
  | _ => false

/-! ## Conversions -/

/-- A value that may be missing; a missing one is `nil`. -/
def ofOption : Option Value → Value
  | some v => v
  | none => .nil

/-- A map with text keys, in the order given. -/
def ofFields (fields : List (String × Value)) : Value :=
  .map (fields.map fun field => (.string field.1, field.2))

end Value

instance : Coe Bool Value := ⟨.bool⟩
instance : Coe Int32 Value := ⟨.int⟩
instance : Coe Int64 Value := ⟨.long⟩
instance : Coe Binary32 Value := ⟨.float⟩
instance : Coe Binary64 Value := ⟨.double⟩
instance : Coe String Value := ⟨.string⟩
instance : Coe Octets Value := ⟨.bytes⟩
instance : Coe (List Value) Value := ⟨.list⟩
instance : Coe Signal Value := ⟨Signal.toValue⟩
instance : Coe Failure Value := ⟨.failure⟩

end Tether
