import Tether.Proofs.Wire.Layout

/-! # Values that are refused

Where every container and payload has a length that fits 32 bits, nothing but a handle can stop an
encoding, and the handle that does is the first one in writing order that prints no 32-bit integer. -/

namespace Tether

/-- The printed form of the handle is a 32-bit integer. -/
def Handle.isNumbered (h : Handle) : Bool :=
  (Signed.int32? h.display).isSome

/-- What a handle without a number is answered with. -/
def Handle.refusal (h : Handle) : EncodeError :=
  .unsupportedType h.typeName h.display

/-! ## The first refusal -/

/-- The refusal of the first handle without a number. -/
def firstRefusal? (hs : List Handle) : Option EncodeError :=
  (hs.find? fun h => !h.isNumbered).map Handle.refusal

theorem firstRefusal?_append (as bs : List Handle) :
    firstRefusal? (as ++ bs) = (firstRefusal? as).or (firstRefusal? bs) := by
  rw [firstRefusal?, List.find?_append, Option.map_or]
  rfl

theorem firstRefusal?_eq_none {hs : List Handle} :
    firstRefusal? hs = none ↔ ∀ h ∈ hs, h.isNumbered := by
  simp [firstRefusal?]

/-- All handles before the first one that is refused have numbers. -/
theorem firstRefusal?_eq_some {hs : List Handle} {e : EncodeError} :
    firstRefusal? hs = some e ↔ ∃ before h after, hs = before ++ h :: after ∧
      (∀ g ∈ before, g.isNumbered) ∧ h.isNumbered = false ∧
      e = .unsupportedType h.typeName h.display := by
  rw [firstRefusal?, Option.map_eq_some_iff]
  constructor
  · rintro ⟨h, hfind, rfl⟩
    obtain ⟨hh, before, after, hsplit, hbefore⟩ := List.find?_eq_some_iff_append.mp hfind
    exact ⟨before, h, after, hsplit, by simpa using hbefore, by simpa using hh, rfl⟩
  · rintro ⟨before, h, after, hsplit, hbefore, hh, rfl⟩
    refine ⟨h, List.find?_eq_some_iff_append.mpr ?_, rfl⟩
    exact ⟨by simpa using hh, before, after, hsplit, by simpa using hbefore⟩

/-- What an encoding failed with. -/
def fault? : Except EncodeError Octets → Option EncodeError
  | .ok _ => none
  | .error e => some e

theorem fault?_eq_none {x : Except EncodeError Octets} : fault? x = none ↔ ∃ data, x = .ok data := by
  cases x <;> simp [fault?]

theorem fault?_eq_some {x : Except EncodeError Octets} {e : EncodeError} :
    fault? x = some e ↔ x = .error e := by
  cases x <;> simp [fault?]

/-- Of two writings that are joined, the first to fail decides. -/
theorem fault?_join (x y : Except EncodeError Octets) :
    fault? (do return (← x) ++ (← y)) = (fault? x).or (fault? y) := by
  cases x with
  | error e => rfl
  | ok a => cases y <;> rfl

theorem fault?_map (f : Octets → Octets) (x : Except EncodeError Octets) :
    fault? (x.map f) = fault? x := by
  cases x <;> rfl

theorem fault?_sized {kind : String} {form : Nat → Octets} {length : Nat}
    (h : length ≤ Wire.maxLength) : fault? (Wire.sized kind form length) = none := by
  rw [Wire.sized_of_le h]
  rfl

namespace Value

/-! ## Lengths and handles of a value -/

/-- The lengths that are limited in the value itself, those of its parts left out. The length of a
text is not among them: no text is refused. -/
def ownLengths : Value → List Nat
  | .bytes data => [data.length]
  | .array items | .list items => [items.length]
  | .map entries => [entries.length]
  | .signal _ args => [args.length]
  | _ => []

/-- Every payload and container in a value, at whatever depth, has a length that fits 32 bits. -/
def LengthsFit (v : Value) : Prop :=
  v.All fun w => ∀ length ∈ w.ownLengths, length ≤ Wire.maxLength

instance (v : Value) : Decidable v.LengthsFit :=
  decidableAll _ v

/-- The value itself, if it is a handle. -/
def ownHandles : Value → List Handle
  | .handle h => [h]
  | _ => []

/-- The handles in a value, at every depth, in writing order. -/
def handles (v : Value) : List Handle :=
  v.nodes.flatMap ownHandles

theorem handles_eq (v : Value) : v.handles = v.ownHandles ++ v.parts.flatMap handles := by
  rw [handles, nodes_eq, List.flatMap_cons, List.flatMap_assoc]
  rfl

/-! ## Encodings that fail -/

theorem fault?_lead {v : Value} (hown : ∀ length ∈ v.ownLengths, length ≤ Wire.maxLength) :
    fault? v.lead = firstRefusal? v.ownHandles := by
  cases v with
  | bytes data =>
      have hlen : data.length ≤ Wire.maxLength := hown _ List.mem_cons_self
      rw [lead, fault?_map, fault?_sized hlen]
      rfl
  | array items => exact fault?_sized (hown _ List.mem_cons_self)
  | list items => exact fault?_sized (hown _ List.mem_cons_self)
  | map entries => exact fault?_sized (hown _ List.mem_cons_self)
  | signal name args =>
      have hlen : args.length ≤ Wire.maxLength := hown _ List.mem_cons_self
      rw [lead, fault?_map, fault?_sized hlen]
      rfl
  | handle h =>
      rw [lead, ownHandles, firstRefusal?]
      cases hid : Signed.int32? h.display with
      | some id => simp [fault?, Handle.isNumbered, hid]
      | none => simp [fault?, Handle.isNumbered, Handle.refusal, hid]
  | _ => rfl

theorem fault?_encodeAll {vs : List Value}
    (h : ∀ v ∈ vs, fault? v.encode = firstRefusal? v.handles) :
    fault? (encodeAll vs) = firstRefusal? (vs.flatMap handles) := by
  induction vs with
  | nil => rfl
  | cons v vs ih =>
      have hhead : fault? v.encode = firstRefusal? v.handles := h v List.mem_cons_self
      have htail := ih fun w hw => h w (List.mem_cons_of_mem _ hw)
      rw [encodeAll, fault?_join, hhead, htail, List.flatMap_cons, firstRefusal?_append]

/-- An encoding fails with the refusal of the first handle without a number, and with nothing else. -/
theorem fault?_encode (v : Value) (fits : v.LengthsFit) :
    fault? v.encode = firstRefusal? v.handles := by
  induction v using Value.induction with
  | whole v ih =>
      obtain ⟨hown, hinside⟩ := all_iff.mp fits
      have hparts := fault?_encodeAll fun w hw => ih w hw (hinside w hw)
      rw [encode_eq, fault?_join, fault?_lead hown, hparts, handles_eq, firstRefusal?_append]

/-- A value is encoded if and only if all its handles have numbers, and otherwise it is refused for
the first one that has none. -/
theorem encode_refuses_first (v : Value) (fits : v.LengthsFit) :
    ((∃ data, v.encode = .ok data) ↔ ∀ h ∈ v.handles, h.isNumbered) ∧
    ∀ e, v.encode = .error e ↔ ∃ before h after, v.handles = before ++ h :: after ∧
      (∀ g ∈ before, g.isNumbered) ∧ h.isNumbered = false ∧
      e = .unsupportedType h.typeName h.display := by
  have hfault := fault?_encode v fits
  constructor
  · rw [← fault?_eq_none, hfault, firstRefusal?_eq_none]
  · intro e
    rw [← fault?_eq_some, hfault, firstRefusal?_eq_some]

/-- A map whose second key is refused, inside a signal, before its value could be. -/
theorem encode_refuses_first_nested :
    let bad : Handle := ⟨"Socket", "2147483648"⟩
    let v : Value := .list [.map
      [(.handle ⟨"Port", "-7"⟩, .nil),
        (.signal "k" [.array [.handle bad]], .handle ⟨"Port", ""⟩)]]
    v.LengthsFit ∧ v.encode = .error (.unsupportedType "Socket" "2147483648") := by
  intro bad v
  have fits : v.LengthsFit := by decide
  refine ⟨fits, ((encode_refuses_first v fits).2 _).mpr ?_⟩
  exact ⟨[⟨"Port", "-7"⟩], bad, [⟨"Port", ""⟩], by decide, by decide, by decide, rfl⟩

end Value

end Tether
