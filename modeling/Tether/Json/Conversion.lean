import Tether.Json.Meaning
import Tether.Value.Basic

/-! # Values of JSON texts

Integers become the narrower integer they fit, other numbers doubles, and objects maps whose keys are
texts. -/

namespace Tether

namespace Value

/-- An integer of 64 bits, or of 32 bits if it fits. -/
def ofInt64 (n : Int64) : Value :=
  if -0x80000000 ≤ n.toInt ∧ n.toInt < 0x80000000 then .int (.ofInt n.toInt) else .long n

def ofNumber (n : Json.Number) : Value :=
  match n.asInt64? with
  | some i => ofInt64 i
  | none =>
    match n.asBinary64? with
    | some x => .double x
    | none => .nil

mutual

def ofContent : Json.Content → Value
  | .null => .nil
  | .bool b => .bool b
  | .number n => ofNumber n
  | .text s => .string s
  | .list items => .list (ofItems items)
  | .object fields => .ofFields (ofMembers fields)

def ofItems : List Json.Content → List Value
  | [] => []
  | c :: cs => ofContent c :: ofItems cs

def ofMembers : List (String × Json.Content) → List (String × Value)
  | [] => []
  | (key, c) :: fields => (key, ofContent c) :: ofMembers fields

end

end Value

/-- The value that a JSON text denotes. -/
def Json.value? (s : String) : Except Json.Fault Value :=
  (Json.content? s).map Value.ofContent

end Tether
