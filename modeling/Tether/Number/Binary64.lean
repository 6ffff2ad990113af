/-! # Double-precision numbers: exact rounding and fixed decimal places

A finite magnitude is a whole number of units of `2 ^ -1074`. Rounding, and printing with a fixed
number of decimal places, are done exactly on these whole numbers. -/

namespace Tether

/-- A 64-bit floating-point number: its sign, exponent and fraction bits, NaN payloads included. -/
structure Binary64 where
  bits : UInt64
  deriving DecidableEq, Inhabited

namespace Binary64

def magnitude (x : Binary64) : UInt64 :=
  x.bits &&& 0x7fffffffffffffff

def isNaN (x : Binary64) : Bool :=
  0x7ff0000000000000 < x.magnitude

def isZero (x : Binary64) : Bool :=
  x.magnitude == 0

def isInfinite (x : Binary64) : Bool :=
  x.magnitude == 0x7ff0000000000000

def isFinite (x : Binary64) : Bool :=
  x.magnitude < 0x7ff0000000000000

/-- Numeric equality: a NaN equals nothing, and the two zeros are equal. -/
def same (x y : Binary64) : Bool :=
  !x.isNaN && !y.isNaN && (x == y || (x.isZero && y.isZero))

def neg (x : Binary64) : Binary64 :=
  ⟨x.bits ^^^ 0x8000000000000000⟩

def zero : Binary64 :=
  ⟨0⟩

/-! ## Rounding -/

/-- The whole number nearest to `num / den`; of two equally near, the even one. -/
def roundHalfEven (num den : Nat) : Nat :=
  let quotient := num / den
  match compare (2 * (num % den)) den with
  | .lt => quotient
  | .gt => quotient + 1
  | .eq => quotient + quotient % 2

/-- How many times a magnitude of `units` has to be halved to fit 53 bits. -/
def excess (units : Nat) : Nat :=
  units.log2 - 52

/-- The bits of the number nearest to `num / den`, ties to the even fraction. A significand that
rounds up to `2 ^ 53` carries into the exponent by itself. -/
def nearestBits (num den : Nat) : Nat :=
  let num := num <<< 1074
  let shift := excess (num / den)
  min (shift <<< 52 + roundHalfEven num (den <<< shift)) 0x7ff0000000000000

/-- The number nearest to `num / den`, infinity from `2 ^ 1024 - 2 ^ 970` on. -/
def ofRatio (num den : Nat) : Binary64 :=
  ⟨UInt64.ofNat (nearestBits num den)⟩

def ofNat (n : Nat) : Binary64 :=
  ofRatio n 1

def ofInt (n : Int) : Binary64 :=
  if n < 0 then (ofNat n.natAbs).neg else ofNat n.natAbs

def powerOfTen (n : Nat) : Binary64 :=
  ofNat (Nat.pow 10 n)

/-! ## Exact arithmetic, rounded once -/

/-- A finite magnitude in units of `2 ^ -1074`. -/
def units (x : Binary64) : Nat :=
  let bits := x.magnitude.toNat
  let exponent := bits >>> 52
  let fraction := bits % 0x10000000000000
  if exponent = 0 then fraction else (0x10000000000000 + fraction) <<< (exponent - 1)

def add (x y : Binary64) : Binary64 :=
  ofRatio (x.units + y.units) (1 <<< 1074)

def mul (x y : Binary64) : Binary64 :=
  ofRatio (x.units * y.units) (1 <<< 2148)

/-- The quotient of two finite numbers that are not negative, the second not zero. -/
def div (x y : Binary64) : Binary64 :=
  ofRatio x.units y.units

/-! ## Decimal text -/

/-- `n` in decimal, padded with zeros on the left to `width` digits. -/
def paddedDigits (width n : Nat) : List Char :=
  let digits := Nat.toDigits 10 n
  List.replicate (width - digits.length) '0' ++ digits

/-- A finite number that is not negative, with `places` digits after the point. The exact value is
rounded, a tie to the even last digit. -/
def fixedPlaces (places : Nat) (x : Binary64) : String :=
  let digits := paddedDigits (places + 1) (roundHalfEven (x.units * Nat.pow 10 places) (1 <<< 1074))
  let whole := digits.length - places
  String.ofList (digits.take whole ++ '.' :: digits.drop whole)

end Binary64

end Tether
