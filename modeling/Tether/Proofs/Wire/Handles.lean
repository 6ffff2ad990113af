import Tether.Proofs.Number.Decimal
import Tether.Proofs.Wire.Plain

/-! # Encodings of handles

A handle is written as the integer of 32 bits that its printed form denotes, and refused if it denotes
none. -/

namespace Tether.Value

open Signed (Denotes int32? int32?_eq_some denotes_toString)

theorem encode_int (n : Int32) : (int n).encode = .ok (Wire.integer n.toInt) :=
  encode_of_no_parts rfl rfl

theorem encode_handle_of_some {h : Handle} {n : Int32} (hn : int32? h.display = some n) :
    (handle h).encode = (int n).encode := by
  apply encode_congr
  · simp only [lead, hn]
  · rfl

theorem encode_handle_of_none {h : Handle} (hn : int32? h.display = none) :
    (handle h).encode = .error (.unsupportedType h.typeName h.display) := by
  rw [encode_eq, lead, hn]
  rfl

/-- A text denotes an integer in the range of 32 bits if and only if it is read as one. -/
theorem exists_denotes_iff {s : String} :
    (∃ n : Int, Denotes s.toList n ∧ -0x80000000 ≤ n ∧ n ≤ 0x7fffffff) ↔
      ∃ n, int32? s = some n := by
  simp only [int32?_eq_some]
  constructor
  · rintro ⟨n, hn, hlo, hhi⟩
    refine ⟨.ofInt n, ?_⟩
    rwa [Int32.toInt_ofInt_of_le (by omega) (by omega)]
  · rintro ⟨n, hn⟩
    have hlo := n.le_toInt
    have hhi := n.toInt_lt
    exact ⟨n.toInt, hn, by omega, by omega⟩

/-- A handle is encoded if and only if it prints an optional sign and digits that denote an integer of
32 bits, and then as that integer. A handle made from a number is encoded as the number. -/
theorem handle_encodes_denoted_integer (h : Handle) :
    ((∃ data, (handle h).encode = .ok data) ↔
      ∃ n : Int, Denotes h.display.toList n ∧ -0x80000000 ≤ n ∧ n ≤ 0x7fffffff) ∧
    (∀ n : Int32, Denotes h.display.toList n.toInt → (handle h).encode = (int n).encode) ∧
    ((¬∃ n : Int, Denotes h.display.toList n ∧ -0x80000000 ≤ n ∧ n ≤ 0x7fffffff) →
      (handle h).encode = .error (.unsupportedType h.typeName h.display)) ∧
    ∀ n : Int32, (handle (.ofId n)).encode = (int n).encode := by
  rw [exists_denotes_iff]
  refine ⟨?_, ?_, ?_, ?_⟩
  · cases hn : int32? h.display with
    | none => simp [encode_handle_of_none hn]
    | some n => simp [encode_handle_of_some hn, encode_int]
  · intro n hn
    exact encode_handle_of_some (int32?_eq_some.mpr hn)
  · intro hn
    exact encode_handle_of_none (Option.eq_none_iff_forall_ne_some.mpr (not_exists.mp hn))
  · intro n
    exact encode_handle_of_some (int32?_eq_some.mpr (denotes_toString n.toInt))

/-- The least integer behind leading zeros is encoded, and the one below it is refused. -/
theorem handle_encodes_denoted_integer_least :
    let least : Handle := ⟨"Port", "-0002147483648"⟩
    let below : Handle := ⟨"Port", "-2147483649"⟩
    Denotes least.display.toList (-0x80000000) ∧
      (handle least).encode = .ok [0xd2, 0x80, 0, 0, 0] ∧
      (handle below).encode = .error (.unsupportedType "Port" "-2147483649") := by
  intro least below
  have hleast : Denotes least.display.toList (-0x80000000) := Signed.integer?_eq_some.mp (by decide)
  have hbelow : int32? below.display = none := by decide
  have hnone : ¬∃ n : Int, Denotes below.display.toList n ∧ -0x80000000 ≤ n ∧ n ≤ 0x7fffffff := by
    simp [exists_denotes_iff, hbelow]
  exact ⟨hleast, (handle_encodes_denoted_integer least).2.1 (-0x80000000) hleast,
    (handle_encodes_denoted_integer below).2.2.1 hnone⟩

end Tether.Value
