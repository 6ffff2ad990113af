/-! # Signed decimal text -/

namespace Tether

/-- The number that decimal digits denote, most significant digit first. -/
def digitsValue (digits : List Char) : Nat :=
  digits.foldl (fun n c => 10 * n + (c.toNat - '0'.toNat)) 0

namespace Signed

/-- The number that one or more ASCII digits denote. -/
def natural? (cs : List Char) : Option Nat :=
  if cs ≠ [] ∧ cs.all Char.isDigit then some (digitsValue cs) else none

/-- The number that an optional single sign and one or more ASCII digits denote. -/
def integer? : List Char → Option Int
  | '-' :: cs => (natural? cs).map fun n => -(n : Int)
  | '+' :: cs => (natural? cs).map fun n => (n : Int)
  | cs => (natural? cs).map fun n => (n : Int)

/-- The signed decimal number a text spells, if it fits 32 bits. -/
def int32? (s : String) : Option Int32 :=
  match integer? s.toList with
  | some n => if -0x80000000 ≤ n ∧ n < 0x80000000 then some (.ofInt n) else none
  | none => none

end Signed

end Tether
