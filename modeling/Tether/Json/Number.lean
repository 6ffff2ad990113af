import Tether.Json.Numeral
import Tether.Number.Binary64
import Tether.Number.Signed

/-! # The numbers that spellings stand for

A plain spelling within 64 bits is an integer. Any other number is computed in double precision: the
digits that fit 64 bits are rounded as one whole number, which is multiplied or divided by a power of
ten and rounded again. The result need not be the number nearest to what is spelled. -/

namespace Tether.Json

/-- An integer of 64 bits without a sign, a negative one, or a double-precision number. -/
inductive Number where
  | natural (n : UInt64)
  | negative (n : Int64)
  | float (x : Binary64)
  deriving DecidableEq

namespace Number

/-- The signed integer of 64 bits that a number is, if it is one. -/
def asInt64? : Number → Option Int64
  | .natural n => if n < 0x8000000000000000 then some n.toInt64 else none
  | .negative n => some n
  | .float _ => none

/-- The nearest double-precision number, if there is one. -/
def asBinary64? : Number → Option Binary64
  | .natural n => some (.ofNat n.toNat)
  | .negative n => some (.ofInt n.toInt)
  | .float x => some x

/-- A whole number with a minus before it. Zero, and what is too large for a sign, become a
double-precision number. -/
def ofNegated (n : UInt64) : Number :=
  let negated := -n.toInt64
  if 0 ≤ negated then .float (Binary64.ofNat n.toNat).neg else .negative negated

end Number

/-! ## Scaling -/

/-- A number times a power of ten. Powers beyond `10 ^ 308` are divided out one after another; what
becomes infinite is out of range. -/
def scale (x : Binary64) (exponent : Int) : Except Fault Binary64 :=
  if exponent.natAbs ≤ 308 then
    if 0 ≤ exponent then
      let y := x.mul (.powerOfTen exponent.natAbs)
      if y.isInfinite then .error .malformed else .ok y
    else .ok (x.div (.powerOfTen exponent.natAbs))
  else if x.isZero then .ok x
  else if 0 ≤ exponent then .error .malformed
  else scale (x.div (.powerOfTen 308)) (exponent + 308)
termination_by exponent.natAbs

namespace Numeral

/-! ## Digits -/

/-- Reads digits behind a number as long as it fits 64 bits. What is left starts with the first digit
that does not fit. -/
def gather : Nat → List Char → Nat × List Char
  | n, [] => (n, [])
  | n, c :: cs =>
    let next := 10 * n + (c.toNat - '0'.toNat)
    if next < 0x10000000000000000 then gather next cs else (n, c :: cs)

/-- The digits that are not left out, as one whole number, and the power of ten it is to be multiplied
by. Digits are left out from the first one before the point that does not fit, and again from the
first one after it; those before the point still count towards the power. -/
def significand (n : Numeral) : Nat × Int32 :=
  let (whole, dropped) := gather 0 n.whole
  let fraction := n.fraction.getD []
  let (all, ignored) := gather whole fraction
  (all, .ofNat dropped.length - .ofNat (fraction.length - ignored.length))

/-! ## Conversion -/

/-- The magnitude in double precision. An exponent too large for 32 bits makes it zero if negative, and
else out of range unless it is zero already. -/
def toBinary64 (n : Numeral) : Except Fault Binary64 :=
  let (digits, start) := n.significand
  match n.exponent with
  | none => scale (.ofNat digits) start.toInt
  | some (negative, ds) =>
    let shift : Int := digitsValue ds
    if shift < 0x80000000 then
      let sum := if negative then start.toInt - shift else start.toInt + shift
      scale (.ofNat digits) (Int32.ofIntClamp sum).toInt
    else if negative ∨ digits = 0 then .ok .zero
    else .error .malformed

def toNumber (n : Numeral) : Except Fault Number :=
  let (whole, dropped) := gather 0 n.whole
  if n.isPlain ∧ dropped = [] then
    .ok (if n.negative then .ofNegated (.ofNat whole) else .natural (.ofNat whole))
  else
    n.toBinary64.map fun x => .float (if n.negative then x.neg else x)

end Numeral

end Tether.Json
