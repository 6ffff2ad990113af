import Tether.Octets
import Tether.Number.Binary32
import Tether.Number.Binary64

/-! # Wire forms: scalars and headers

The wire format is MessagePack. An integer, and the length in a header, takes the shortest form it
fits; multi-octet fields are big-endian. -/

namespace Tether.Wire

open Octets (field ofText)

def nil : Octets := [0xc0]

def bool (b : Bool) : Octets := [if b then 0xc3 else 0xc2]

def float32 (x : Binary32) : Octets := 0xca :: field 4 x.bits.toNat

def float64 (x : Binary64) : Octets := 0xcb :: field 8 x.bits.toNat

/-- Numbers from -32 to 127 are their own single octet. Other negative numbers are signed fields and
other non-negative ones unsigned fields. -/
def integer (n : Int) : Octets :=
  if -32 ≤ n ∧ n < 128 then field 1 n
  else if n < 0 then
    if -0x80 ≤ n then 0xd0 :: field 1 n
    else if -0x8000 ≤ n then 0xd1 :: field 2 n
    else if -0x80000000 ≤ n then 0xd2 :: field 4 n
    else 0xd3 :: field 8 n
  else if n < 0x100 then 0xcc :: field 1 n
  else if n < 0x10000 then 0xcd :: field 2 n
  else if n < 0x100000000 then 0xce :: field 4 n
  else 0xcf :: field 8 n

/-- Only the lowest 32 bits of a text's length are written. -/
def textHeader (length : Nat) : Octets :=
  let length : Nat := length % 0x100000000
  if length < 32 then field 1 (0xa0 + length)
  else if length < 0x100 then 0xd9 :: field 1 length
  else if length < 0x10000 then 0xda :: field 2 length
  else 0xdb :: field 4 length

/-- A text is its length in UTF-8 octets and these octets. -/
def text (s : String) : Octets :=
  let octets := ofText s
  textHeader octets.length ++ octets

def binaryHeader (length : Nat) : Octets :=
  if length < 0x100 then 0xc4 :: field 1 length
  else if length < 0x10000 then 0xc5 :: field 2 length
  else 0xc6 :: field 4 length

def arrayHeader (length : Nat) : Octets :=
  if length < 16 then field 1 (0x90 + length)
  else if length < 0x10000 then 0xdc :: field 2 length
  else 0xdd :: field 4 length

def mapHeader (length : Nat) : Octets :=
  if length < 16 then field 1 (0x80 + length)
  else if length < 0x10000 then 0xde :: field 2 length
  else 0xdf :: field 4 length

/-- The longest container or payload a header can describe. -/
def maxLength : Nat := 0xffffffff

end Tether.Wire
