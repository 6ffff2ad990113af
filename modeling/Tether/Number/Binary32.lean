/-! # Single-precision numbers by their bits -/

namespace Tether

/-- A 32-bit floating-point number: its sign, exponent and fraction bits, NaN payloads included. -/
structure Binary32 where
  bits : UInt32
  deriving DecidableEq, Inhabited

namespace Binary32

def magnitude (x : Binary32) : UInt32 :=
  x.bits &&& 0x7fffffff

def isNaN (x : Binary32) : Bool :=
  0x7f800000 < x.magnitude

def isZero (x : Binary32) : Bool :=
  x.magnitude == 0

/-- Numeric equality: a NaN equals nothing, and the two zeros are equal. -/
def same (x y : Binary32) : Bool :=
  !x.isNaN && !y.isNaN && (x == y || (x.isZero && y.isZero))

end Binary32

end Tether
