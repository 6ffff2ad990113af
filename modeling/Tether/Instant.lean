import Tether.Number.Binary64

/-! # Instants -/

namespace Tether

/-- A point in time, exact to the nanosecond: whole seconds since the epoch, negative before it, and
the part of a second to be added. No time has two of these forms. -/
structure Instant where
  secs : Int
  nanos : Fin 1000000000
  deriving DecidableEq, Inhabited

/-- Nanoseconds that make up whole seconds are carried. -/
def Instant.ofParts (secs : Int) (nanos : Nat) : Instant :=
  ⟨secs + nanos / 1000000000, ⟨nanos % 1000000000, Nat.mod_lt nanos (by decide)⟩⟩

/-- The seconds since the epoch as a double-precision number, zero before the epoch. The fraction is
rounded before it is added. -/
def Instant.seconds (t : Instant) : Binary64 :=
  if t.secs < 0 then .zero
  else (Binary64.ofNat t.secs.toNat).add ((Binary64.ofNat t.nanos.val).div (.ofNat 1000000000))

end Tether
