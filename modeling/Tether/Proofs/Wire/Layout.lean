import Tether.Proofs.Value.Parts
import Tether.Wire.Packer

/-! # Layout of an encoding

Packing threads one buffer through a nested recursion. Seen from outside it does no more than append:
the encoding of a value is its lead followed by the encodings of its parts. -/

namespace Tether

open Wire

/-! ## Buffers -/

namespace Packer

@[simp] theorem octets_empty : empty.octets = [] := rfl

@[simp] theorem octets_write (data : Octets) (p : Packer) :
    (p.write data).octets = p.octets ++ data := by
  simp [octets, write]

@[simp] theorem write_write (a b : Octets) (p : Packer) :
    (p.write a).write b = p.write (a ++ b) :=
  congrArg Packer.mk (Array.ext' (by simp [write]))

@[simp] theorem write_nil (p : Packer) : p.write [] = p := by
  simp [write]

end Packer

/-- The header of a container or payload, if its length fits one. -/
def Wire.sized (kind : String) (form : Nat → Octets) (length : Nat) : Except EncodeError Octets :=
  if length ≤ maxLength then .ok (form length) else .error (.tooLarge kind length)

theorem Wire.sized_of_le {kind : String} {form : Nat → Octets} {length : Nat}
    (h : length ≤ maxLength) : sized kind form length = .ok (form length) :=
  if_pos h

theorem Wire.sized_eq_ok {kind : String} {form : Nat → Octets} {length : Nat} {data : Octets}
    (h : sized kind form length = .ok data) : length ≤ maxLength ∧ data = form length := by
  by_cases hl : length ≤ maxLength
  · rw [sized_of_le hl] at h
    exact ⟨hl, (Except.ok.inj h).symm⟩
  · simp [sized, hl] at h

theorem Wire.map_sized_eq_ok {kind : String} {form : Nat → Octets} {length : Nat}
    {f : Octets → Octets} {data : Octets} (h : (sized kind form length).map f = .ok data) :
    length ≤ maxLength ∧ data = f (form length) := by
  cases hs : sized kind form length with
  | error e =>
      rw [hs] at h
      cases h
  | ok header =>
      rw [hs] at h
      obtain ⟨hl, rfl⟩ := sized_eq_ok hs
      exact ⟨hl, (Except.ok.inj h).symm⟩

theorem Packer.header_eq (kind : String) (form : Nat → Octets) (length : Nat) (p : Packer) :
    p.header kind form length = (sized kind form length).map p.write := by
  by_cases h : length ≤ maxLength
  · simp [Packer.header, sized, h, Except.map]
  · simp [Packer.header, sized, h, Except.map]

namespace Value

/-- What is written of a value before its parts. A value without parts is written whole. -/
def lead : Value → Except EncodeError Octets
  | .nil => .ok Wire.nil
  | .bool b => .ok (Wire.bool b)
  | .int n => .ok (integer n.toInt)
  | .long n => .ok (integer n.toInt)
  | .float x => .ok (float32 x)
  | .double x => .ok (float64 x)
  | .string s => .ok (text s)
  | .bytes data => (sized "binary" binaryHeader data.length).map (· ++ data)
  | .array items | .list items => sized "array" arrayHeader items.length
  | .map entries => sized "map" mapHeader entries.length
  | .signal name args =>
    (sized "array" arrayHeader args.length).map (arrayHeader 2 ++ text name ++ ·)
  | .failure f => .ok (arrayHeader 2 ++ text f.typeName ++ text f.text)
  | .handle h =>
    match Signed.int32? h.display with
    | some id => .ok (integer id.toInt)
    | none => .error (.unsupportedType h.typeName h.display)

/-- The encodings of values one after another. -/
def encodeAll : List Value → Except EncodeError Octets
  | [] => .ok []
  | v :: vs => do return (← v.encode) ++ (← encodeAll vs)

end Value

namespace Packer

open Value

theorem packEntries_eq (entries : List (Value × Value)) (p : Packer) :
    packEntries entries p = packItems (parts (.map entries)) p := by
  induction entries generalizing p with
  | nil => rfl
  | cons entry entries ih =>
      obtain ⟨key, value⟩ := entry
      have hparts : parts (.map ((key, value) :: entries)) =
          key :: value :: parts (.map entries) := rfl
      rw [hparts]
      simp only [packEntries, packItems, ih]

/-- Packing writes the lead of a value and goes on with its parts. -/
theorem pack_eq_lead (v : Value) (p : Packer) :
    pack v p = v.lead.bind fun data => packItems v.parts (p.write data) := by
  cases v with
  | bytes data =>
      simp only [pack, lead, parts, header_eq]
      cases sized "binary" binaryHeader data.length with
      | error e => rfl
      | ok a =>
          change Except.ok ((p.write a).write data) = .ok (p.write (a ++ data))
          rw [write_write]
  | array items =>
      simp only [pack, lead, parts, header_eq]
      cases sized "array" arrayHeader items.length <;> rfl
  | list items =>
      simp only [pack, lead, parts, header_eq]
      cases sized "array" arrayHeader items.length <;> rfl
  | map entries =>
      simp only [pack, lead, header_eq, packEntries_eq]
      cases sized "map" mapHeader entries.length <;> rfl
  | signal name args =>
      simp only [pack, lead, parts, header_eq, write_write]
      cases sized "array" arrayHeader args.length with
      | error e => rfl
      | ok a =>
          change packItems args (p.write (arrayHeader 2 ++ (text name ++ a))) =
            packItems args (p.write (arrayHeader 2 ++ text name ++ a))
          rw [List.append_assoc]
  | failure f => simp [pack, lead, parts, packItems, Except.bind]
  | handle h =>
      simp only [pack, packHandle, lead, parts]
      cases Signed.int32? h.display <;> rfl
  | _ => rfl

/-- Items append if each of them appends. -/
theorem packItems_append {vs : List Value} (h : ∀ v ∈ vs, ∀ p, pack v p = v.encode.map p.write)
    (p : Packer) : packItems vs p = (encodeAll vs).map p.write := by
  induction vs generalizing p with
  | nil => simp [packItems, encodeAll, Except.map]
  | cons v vs ih =>
      have htail := ih fun w hw => h w (List.mem_cons_of_mem _ hw)
      simp only [packItems, encodeAll, h v List.mem_cons_self, htail]
      cases v.encode with
      | error e => rfl
      | ok a =>
          cases encodeAll vs with
          | error e => rfl
          | ok b => exact congrArg Except.ok (write_write a b p)

/-- Packing appends the encoding of the value alone, whatever the buffer holds already. -/
theorem pack_append (v : Value) (p : Packer) : pack v p = v.encode.map p.write := by
  induction v using Value.induction generalizing p with
  | whole v ih =>
      have hbody (q : Packer) : pack v q = v.lead.bind fun data =>
          (encodeAll v.parts).map (q.write data).write := by
        rw [pack_eq_lead]
        simp only [packItems_append ih]
      rw [Value.encode, hbody, hbody]
      cases v.lead with
      | error e => rfl
      | ok a =>
          cases encodeAll v.parts with
          | error e => rfl
          | ok b =>
              change Except.ok ((p.write a).write b) = .ok (p.write ((empty.write a).write b).octets)
              rw [write_write, write_write, octets_write, octets_empty, List.nil_append]

end Packer

namespace Value

/-- An encoding is the lead of the value and then the encodings of its parts. -/
theorem encode_eq (v : Value) : v.encode = do return (← v.lead) ++ (← encodeAll v.parts) := by
  rw [encode, Packer.pack_eq_lead]
  simp only [Packer.packItems_append fun w _ => Packer.pack_append w]
  cases v.lead with
  | error e => rfl
  | ok a =>
      cases encodeAll v.parts with
      | error e => rfl
      | ok b =>
          change Except.ok ((Packer.empty.write a).write b).octets = .ok (a ++ b)
          rw [Packer.write_write, Packer.octets_write, Packer.octets_empty, List.nil_append]

/-- Two writings succeed together with their outputs joined, or fail with the first failure. -/
theorem join_eq_ok {x y : Except EncodeError Octets} {data : Octets} :
    (do return (← x) ++ (← y)) = Except.ok data ↔
      ∃ a b, x = .ok a ∧ y = .ok b ∧ data = a ++ b := by
  cases x with
  | error e => simp [bind, Except.bind]
  | ok a => cases y <;> simp [bind, Except.bind, pure, Except.pure, eq_comm]

theorem encode_eq_ok {v : Value} {data : Octets} :
    v.encode = .ok data ↔
      ∃ a b, v.lead = .ok a ∧ encodeAll v.parts = .ok b ∧ data = a ++ b := by
  rw [encode_eq, join_eq_ok]

theorem encodeAll_cons_eq_ok {v : Value} {vs : List Value} {data : Octets} :
    encodeAll (v :: vs) = .ok data ↔
      ∃ a b, v.encode = .ok a ∧ encodeAll vs = .ok b ∧ data = a ++ b := by
  rw [encodeAll, join_eq_ok]

end Value

end Tether
