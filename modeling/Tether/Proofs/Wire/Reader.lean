import Tether.Proofs.Wire.Fields
import Tether.Proofs.Wire.Tree

/-! # A reader of wire forms

The reader takes every format there is for nil, booleans, integers, floating-point numbers, texts,
octet strings, arrays and maps, the shortest one or not. The first octet of a form tells its format.
A container is its head followed by its parts, so trees are read in one pass: the parts of a container
are read together with the trees behind it, and then gathered. -/

namespace Tether.Wire

/-- The first octets of an input, and what is left. -/
def chunk (length : Nat) (input : Octets) : Option (Octets × Octets) :=
  if length ≤ input.length then some (input.take length, input.drop length) else none

/-- The keys and values of a map, which alternate on the wire. -/
def pairUp : List Tree → List (Tree × Tree)
  | key :: value :: rest => (key, value) :: pairUp rest
  | _ => []

/-- A tree up to its parts. -/
inductive Head where
  | whole (t : Tree)
  | array (length : Nat)
  | map (length : Nat)

namespace Head

/-- How many trees follow as parts. -/
def parts : Head → Nat
  | .whole _ => 0
  | .array length => length
  | .map length => 2 * length

/-- The tree with these parts. -/
def build : Head → List Tree → Tree
  | .whole t, _ => t
  | .array _, ts => .array ts
  | .map _, ts => .map (pairUp ts)

end Head

/-! ## Formats -/

/-- The shapes that have a length. -/
inductive Family where
  | text
  | binary
  | array
  | map

/-- What the first octet of a form tells about the rest. -/
inductive Format where
  /-- There is nothing more. -/
  | whole (t : Tree)
  | float32
  | float64
  /-- An integer field of this width. -/
  | unsigned (width : Nat)
  | signed (width : Nat)
  /-- The length is in the first octet. -/
  | short (family : Family) (length : Nat)
  /-- The length is in a field of this width. -/
  | sized (family : Family) (width : Nat)

/-- The format a first octet stands for. There is none for `0xc1` and for the extension types. -/
def Format.of? (tag : UInt8) : Option Format :=
  let n := tag.toNat
  if n < 0x80 then some (.whole (.integer n))
  else if n < 0x90 then some (.short .map (n - 0x80))
  else if n < 0xa0 then some (.short .array (n - 0x90))
  else if n < 0xc0 then some (.short .text (n - 0xa0))
  else if 0xe0 ≤ n then some (.whole (.integer (n - 0x100)))
  else
    match n with
    | 0xc0 => some (.whole .nil)
    | 0xc2 => some (.whole (.bool false))
    | 0xc3 => some (.whole (.bool true))
    | 0xc4 => some (.sized .binary 1)
    | 0xc5 => some (.sized .binary 2)
    | 0xc6 => some (.sized .binary 4)
    | 0xca => some .float32
    | 0xcb => some .float64
    | 0xcc => some (.unsigned 1)
    | 0xcd => some (.unsigned 2)
    | 0xce => some (.unsigned 4)
    | 0xcf => some (.unsigned 8)
    | 0xd0 => some (.signed 1)
    | 0xd1 => some (.signed 2)
    | 0xd2 => some (.signed 4)
    | 0xd3 => some (.signed 8)
    | 0xd9 => some (.sized .text 1)
    | 0xda => some (.sized .text 2)
    | 0xdb => some (.sized .text 4)
    | 0xdc => some (.sized .array 2)
    | 0xdd => some (.sized .array 4)
    | 0xde => some (.sized .map 2)
    | 0xdf => some (.sized .map 4)
    | _ => none

/-- Reads what follows a length. A text has to be UTF-8. -/
def Family.read (length : Nat) (input : Octets) : Family → Option (Head × Octets)
  | .text => do
    let (data, rest) ← chunk length input
    return (.whole (.text (← Octets.text? data)), rest)
  | .binary => do
    let (data, rest) ← chunk length input
    return (.whole (.binary data), rest)
  | .array => some (.array length, input)
  | .map => some (.map length, input)

/-- Reads what follows the first octet of a form. -/
def Format.read (input : Octets) : Format → Option (Head × Octets)
  | .whole t => some (.whole t, input)
  | .float32 => do
    let (data, rest) ← chunk 4 input
    return (.whole (.float32 ⟨.ofNat (Octets.unsigned data).toNat⟩), rest)
  | .float64 => do
    let (data, rest) ← chunk 8 input
    return (.whole (.float64 ⟨.ofNat (Octets.unsigned data).toNat⟩), rest)
  | .unsigned width => do
    let (data, rest) ← chunk width input
    return (.whole (.integer (Octets.unsigned data)), rest)
  | .signed width => do
    let (data, rest) ← chunk width input
    return (.whole (.integer (Octets.signed data)), rest)
  | .short family length => family.read length input
  | .sized family width => do
    let (data, rest) ← chunk width input
    family.read (Octets.unsigned data).toNat rest

/-- Reads the head of a tree. -/
def Head.read : Octets → Option (Head × Octets)
  | [] => none
  | tag :: input => (Format.of? tag).bind (Format.read input)

/-! ## Progress -/

theorem chunk_eq_some {length : Nat} {input data rest : Octets}
    (h : chunk length input = some (data, rest)) : data.length = length ∧ input = data ++ rest := by
  unfold chunk at h
  split at h
  · cases h
    exact ⟨List.length_take_of_le ‹_›, (List.take_append_drop length input).symm⟩
  · cases h

theorem length_chunk_le {length : Nat} {input data rest : Octets}
    (h : chunk length input = some (data, rest)) : rest.length ≤ input.length := by
  obtain ⟨-, rfl⟩ := chunk_eq_some h
  rw [List.length_append]
  exact Nat.le_add_left _ _

theorem Family.length_read_le {family : Family} {length : Nat} {input rest : Octets} {head : Head}
    (h : family.read length input = some (head, rest)) : rest.length ≤ input.length := by
  cases family with
  | text =>
      obtain ⟨⟨data, left⟩, hchunk, h⟩ := Option.bind_eq_some_iff.mp h
      obtain ⟨s, -, h⟩ := Option.bind_eq_some_iff.mp h
      cases h
      exact length_chunk_le hchunk
  | binary =>
      obtain ⟨⟨data, left⟩, hchunk, h⟩ := Option.bind_eq_some_iff.mp h
      cases h
      exact length_chunk_le hchunk
  | array => cases h; exact Nat.le_refl _
  | map => cases h; exact Nat.le_refl _

theorem Format.length_read_le {format : Format} {input rest : Octets} {head : Head}
    (h : format.read input = some (head, rest)) : rest.length ≤ input.length := by
  cases format with
  | whole t => cases h; exact Nat.le_refl _
  | short family length => exact Family.length_read_le h
  | sized family width =>
      obtain ⟨⟨data, left⟩, hchunk, h⟩ := Option.bind_eq_some_iff.mp h
      exact Nat.le_trans (Family.length_read_le h) (length_chunk_le hchunk)
  | _ =>
      obtain ⟨⟨data, left⟩, hchunk, h⟩ := Option.bind_eq_some_iff.mp h
      cases h
      exact length_chunk_le hchunk

/-- A head takes at least one octet. -/
theorem Head.length_read_lt {input rest : Octets} {head : Head}
    (h : Head.read input = some (head, rest)) : rest.length < input.length := by
  cases input with
  | nil => cases h
  | cons tag input =>
      obtain ⟨format, -, h⟩ := Option.bind_eq_some_iff.mp h
      exact Nat.lt_succ_of_le (Format.length_read_le h)

/-! ## Trees -/

/-- Reads a number of trees, one after another. -/
def readTrees : Nat → Octets → Option (List Tree × Octets)
  | 0, input => some ([], input)
  | n + 1, input =>
    match h : Head.read input with
    | none => none
    | some (head, rest) =>
      have := Head.length_read_lt h
      (readTrees (head.parts + n) rest).map fun (ts, rest) =>
        (head.build (ts.take head.parts) :: ts.drop head.parts, rest)
termination_by _ input => input.length

/-- Reads the tree at the start of an input, and gives what is left. -/
def readTree (input : Octets) : Option (Tree × Octets) :=
  match readTrees 1 input with
  | some ([t], rest) => some (t, rest)
  | _ => none

theorem readTrees_zero (input : Octets) : readTrees 0 input = some ([], input) := by
  rw [readTrees]

theorem readTrees_of_none {n : Nat} {input : Octets} (h : Head.read input = none) :
    readTrees (n + 1) input = none := by
  rw [readTrees]
  split
  · rfl
  · simp_all

theorem readTrees_succ {n : Nat} {input rest : Octets} {head : Head}
    (h : Head.read input = some (head, rest)) :
    readTrees (n + 1) input = (readTrees (head.parts + n) rest).map fun (ts, rest) =>
      (head.build (ts.take head.parts) :: ts.drop head.parts, rest) := by
  rw [readTrees]
  split
  · simp_all
  · rename_i hread
    rw [h] at hread
    cases hread
    rfl

end Tether.Wire
