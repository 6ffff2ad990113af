import Tether.Value.Basic

/-! # Equality of values

Values of different shapes differ, integers of different widths included. Floating-point numbers
are compared as numbers; a handle is no more than the name of its type and what it prints. -/

namespace Tether.Value

mutual

def same : Value → Value → Bool
  | .nil, .nil => true
  | .bool a, .bool b => a == b
  | .int a, .int b => a == b
  | .long a, .long b => a == b
  | .float a, .float b => a.same b
  | .double a, .double b => a.same b
  | .string a, .string b => a == b
  | .bytes a, .bytes b => a == b
  | .array a, .array b => sameItems a b
  | .list a, .list b => sameItems a b
  | .map a, .map b => sameEntries a b
  | .signal m a, .signal n b => m == n && sameItems a b
  | .failure a, .failure b => a == b
  | .handle a, .handle b => a == b
  | _, _ => false

def sameItems : List Value → List Value → Bool
  | [], [] => true
  | a :: as, b :: bs => same a b && sameItems as bs
  | _, _ => false

def sameEntries : List (Value × Value) → List (Value × Value) → Bool
  | [], [] => true
  | (j, v) :: as, (k, w) :: bs => same j k && same v w && sameEntries as bs
  | _, _ => false

end

instance : BEq Value := ⟨same⟩

end Tether.Value
