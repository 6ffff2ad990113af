import Tether.Error
import Tether.Number.Signed
import Tether.Value.Basic
import Tether.Wire.Format

/-! # Packing values into one buffer

A packer appends the wire forms of values to its buffer, a container as its header followed by its
parts. Encoding is all or nothing: the first error met in writing order is the result. -/

namespace Tether

open Wire

/-- The octets written so far. -/
structure Packer where
  buffer : Array UInt8

namespace Packer

def empty : Packer := ⟨#[]⟩

/-- An empty packer with room for `capacity` octets. -/
def withCapacity (capacity : Nat) : Packer := ⟨Array.emptyWithCapacity capacity⟩

def octets (p : Packer) : Octets := p.buffer.toList

def size (p : Packer) : Nat := p.buffer.size

def write (data : Octets) (p : Packer) : Packer := ⟨p.buffer ++ data⟩

/-- Writes the header of a container or payload, if its length fits one. -/
def header (kind : String) (form : Nat → Octets) (length : Nat) (p : Packer) :
    Except EncodeError Packer :=
  if length ≤ maxLength then .ok (p.write (form length)) else .error (.tooLarge kind length)

/-- A handle is written as the 32-bit integer its printed form spells. -/
def packHandle (h : Handle) (p : Packer) : Except EncodeError Packer :=
  match Signed.int32? h.display with
  | some id => .ok (p.write (integer id.toInt))
  | none => .error (.unsupportedType h.typeName h.display)

mutual

/-- Appends the wire form of a value. Arrays and lists are both sequences, a signal is the sequence
of its name and its arguments, and a failure the sequence of its type name and its line. -/
def pack : Value → Packer → Except EncodeError Packer
  | .nil, p => .ok (p.write nil)
  | .bool b, p => .ok (p.write (bool b))
  | .int n, p => .ok (p.write (integer n.toInt))
  | .long n, p => .ok (p.write (integer n.toInt))
  | .float x, p => .ok (p.write (float32 x))
  | .double x, p => .ok (p.write (float64 x))
  | .string s, p => .ok (p.write (text s))
  | .bytes data, p => do
    let p ← p.header "binary" binaryHeader data.length
    return p.write data
  | .array items, p => do packItems items (← p.header "array" arrayHeader items.length)
  | .list items, p => do packItems items (← p.header "array" arrayHeader items.length)
  | .map entries, p => do packEntries entries (← p.header "map" mapHeader entries.length)
  | .signal name args, p => do
    let p := (p.write (arrayHeader 2)).write (text name)
    packItems args (← p.header "array" arrayHeader args.length)
  | .failure f, p => .ok (((p.write (arrayHeader 2)).write (text f.typeName)).write (text f.text))
  | .handle h, p => p.packHandle h

/-- Appends the wire forms of items, first to last. -/
def packItems : List Value → Packer → Except EncodeError Packer
  | [], p => .ok p
  | v :: vs, p => do packItems vs (← pack v p)

/-- Appends the wire forms of entries, each key before its value. -/
def packEntries : List (Value × Value) → Packer → Except EncodeError Packer
  | [], p => .ok p
  | (k, v) :: es, p => do packEntries es (← pack v (← pack k p))

end

end Packer

/-- The wire form of one value. -/
def Value.encode (v : Value) : Except EncodeError Octets :=
  (Packer.pack v .empty).map Packer.octets

/-- The octets delivered to a guest for a signal. -/
def Signal.encode (s : Signal) : Except EncodeError Octets :=
  s.wrap.encode

end Tether
