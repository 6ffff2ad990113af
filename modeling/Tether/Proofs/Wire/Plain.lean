import Tether.Proofs.Wire.Layout

/-! # Plain forms

The wire does not tell a signal from the list it is wrapped in, an array from a list, a short integer
from a long one, and so on. The plain form of a value keeps one shape of each kind, and it is encoded
exactly as the value is, errors included. -/

namespace Tether

namespace Value

mutual

/-- The value with every sequence in it made a list, and every integer a 64-bit one. A handle without
a number stays as it is. -/
def plain : Value → Value
  | .int n => .long n.toInt64
  | .array items | .list items => .list (plainItems items)
  | .map entries => .map (plainEntries entries)
  | .signal name args => Signal.wrap ⟨name, plainItems args⟩
  | .failure f => .list [.string f.typeName, .string (f.typeName ++ ": " ++ f.message)]
  | .handle h =>
    match Signed.int32? h.display with
    | some id => .long id.toInt64
    | none => .handle h
  | v => v

def plainItems : List Value → List Value
  | [] => []
  | v :: vs => plain v :: plainItems vs

def plainEntries : List (Value × Value) → List (Value × Value)
  | [] => []
  | (k, v) :: es => (plain k, plain v) :: plainEntries es

end

@[simp] theorem plainItems_eq (vs : List Value) : plainItems vs = vs.map plain := by
  induction vs with
  | nil => rfl
  | cons v vs ih => rw [plainItems, ih, List.map_cons]

@[simp] theorem plainEntries_eq (es : List (Value × Value)) :
    plainEntries es = es.map fun e => (plain e.1, plain e.2) := by
  induction es with
  | nil => rfl
  | cons e es ih => rw [plainEntries, ih, List.map_cons]

theorem parts_map_plain (es : List (Value × Value)) :
    parts (.map (es.map fun e => (plain e.1, plain e.2))) = (parts (.map es)).map plain := by
  induction es with
  | nil => rfl
  | cons e es ih => exact congrArg (fun vs => plain e.1 :: plain e.2 :: vs) ih

/-! ## Shapes with one encoding -/

/-- Values are encoded alike if their leads and the encodings of their parts are alike. -/
theorem encode_congr {v w : Value} (hlead : v.lead = w.lead)
    (hparts : encodeAll v.parts = encodeAll w.parts) : v.encode = w.encode := by
  rw [encode_eq, encode_eq, hlead, hparts]

theorem encode_array (items : List Value) : (array items).encode = (list items).encode :=
  encode_congr rfl rfl

theorem encodeAll_map_plain {vs : List Value} (h : ∀ v ∈ vs, v.plain.encode = v.encode) :
    encodeAll (vs.map plain) = encodeAll vs := by
  induction vs with
  | nil => rfl
  | cons v vs ih =>
      have hhead : v.plain.encode = v.encode := h v List.mem_cons_self
      have htail := ih fun w hw => h w (List.mem_cons_of_mem _ hw)
      rw [List.map_cons, encodeAll, encodeAll, hhead, htail]

theorem encode_list_plain {items : List Value} (h : ∀ v ∈ items, v.plain.encode = v.encode) :
    (list (items.map plain)).encode = (list items).encode := by
  apply encode_congr
  · rw [lead, lead, List.length_map]
  · exact encodeAll_map_plain h

/-- A value without parts is written whole. -/
theorem encode_of_no_parts {v : Value} {data : Octets} (hlead : v.lead = .ok data)
    (hparts : v.parts = []) : v.encode = .ok data := by
  rw [encode_eq, hlead, hparts]
  exact congrArg Except.ok (List.append_nil data)

theorem encode_string (s : String) : (string s).encode = .ok (Wire.text s) :=
  encode_of_no_parts rfl rfl

theorem encode_pair (v w : Value) : (list [v, w]).encode =
    (do return (← v.encode) ++ (← w.encode)).map (Wire.arrayHeader 2 ++ ·) := by
  have hlead : (list [v, w]).lead = .ok (Wire.arrayHeader 2) := rfl
  rw [encode_eq, hlead, parts]
  simp only [encodeAll]
  cases v.encode with
  | error e => rfl
  | ok a =>
      cases w.encode with
      | error e => rfl
      | ok b =>
          change Except.ok (Wire.arrayHeader 2 ++ (a ++ (b ++ []))) = .ok (Wire.arrayHeader 2 ++ (a ++ b))
          rw [List.append_nil]

theorem encode_long (n : Int32) : (long n.toInt64).encode = (int n).encode := by
  apply encode_congr
  · rw [lead, lead, Int32.toInt_toInt64]
  · rfl

/-- The list of a signal's name and arguments is written as the signal is. The header of the arguments
is part of the lead of the signal, and the lead of the second item of the list. -/
theorem encode_wrap (name : String) (args : List Value) :
    (Signal.wrap ⟨name, args⟩).encode = (signal name args).encode := by
  rw [Signal.wrap, encode_pair, encode_string, encode_eq, encode_eq, lead, lead, parts, parts]
  cases Wire.sized "array" Wire.arrayHeader args.length with
  | error e => rfl
  | ok header =>
      cases encodeAll args with
      | error e => rfl
      | ok data =>
          change Except.ok (Wire.arrayHeader 2 ++ (Wire.text name ++ (header ++ data))) =
            .ok (Wire.arrayHeader 2 ++ Wire.text name ++ header ++ data)
          rw [List.append_assoc, List.append_assoc]

theorem encode_failure (f : Failure) :
    (list [.string f.typeName, .string (f.typeName ++ ": " ++ f.message)]).encode =
      (failure f).encode := by
  have hfailure : (failure f).encode =
      .ok (Wire.arrayHeader 2 ++ Wire.text f.typeName ++ Wire.text f.text) :=
    encode_of_no_parts rfl rfl
  rw [encode_pair, encode_string, encode_string, hfailure, List.append_assoc]
  rfl

/-- A value and its plain form have the same encoding, or fail with the same error. -/
theorem encode_plain (v : Value) : v.plain.encode = v.encode := by
  induction v using Value.induction with
  | whole v ih =>
      cases v with
      | int n => exact encode_long n
      | array items =>
          rw [plain, plainItems_eq, encode_array]
          exact encode_list_plain ih
      | list items =>
          rw [plain, plainItems_eq]
          exact encode_list_plain ih
      | map entries =>
          rw [plain, plainEntries_eq]
          apply encode_congr
          · rw [lead, lead, List.length_map]
          · rw [parts_map_plain]
            exact encodeAll_map_plain ih
      | signal name args =>
          rw [plain, plainItems_eq, encode_wrap]
          apply encode_congr
          · rw [lead, lead, List.length_map]
          · exact encodeAll_map_plain ih
      | failure f => exact encode_failure f
      | handle h =>
          rw [plain]
          split
          · rename_i id hid
            apply encode_congr
            · simp only [lead, hid, Int32.toInt_toInt64]
            · rfl
          · rfl
      | _ => rfl

/-! ## What is left in a plain form -/

/-- A shape that plain forms are made of. -/
def IsPlain : Value → Prop
  | .int _ | .array _ | .signal _ _ | .failure _ => False
  | .handle h => Signed.int32? h.display = none
  | _ => True

theorem all_isPlain_map_plain {vs : List Value} (h : ∀ v ∈ vs, v.plain.All IsPlain) :
    ∀ w ∈ vs.map plain, w.All IsPlain := by
  intro w hw
  obtain ⟨v, hv, rfl⟩ := List.mem_map.mp hw
  exact h v hv

theorem all_of_no_parts {P : Value → Prop} {v : Value} (hv : P v) (hparts : v.parts = []) :
    v.All P :=
  all_iff.mpr ⟨hv, by simp [hparts]⟩

theorem all_isPlain_string (s : String) : (string s).All IsPlain :=
  all_of_no_parts trivial rfl

theorem all_isPlain_plain (v : Value) : v.plain.All IsPlain := by
  induction v using Value.induction with
  | whole v ih =>
      have hinside := all_isPlain_map_plain ih
      cases v with
      | array items | list items =>
          rw [plain, plainItems_eq]
          exact all_iff.mpr ⟨trivial, hinside⟩
      | map entries =>
          rw [plain, plainEntries_eq]
          refine all_iff.mpr ⟨trivial, ?_⟩
          rw [parts_map_plain]
          exact hinside
      | signal name args =>
          have hargs : (list (args.map plain)).All IsPlain := all_iff.mpr ⟨trivial, hinside⟩
          rw [plain, plainItems_eq]
          refine all_iff.mpr ⟨trivial, ?_⟩
          simp [Signal.wrap, parts, all_isPlain_string, hargs]
      | failure f =>
          rw [plain]
          refine all_iff.mpr ⟨trivial, ?_⟩
          simp [parts, all_isPlain_string]
      | handle h =>
          rw [plain]
          split
          · exact all_of_no_parts trivial rfl
          · rename_i hid
            exact all_of_no_parts hid rfl
      | _ => exact all_of_no_parts trivial rfl

end Value

/-- What is delivered for a signal is the encoding of the signal as a value. -/
theorem Signal.encode_eq (s : Signal) : s.encode = s.toValue.encode :=
  Value.encode_wrap s.name s.args

/-- An encoding depends on nothing but the plain form of the value, in which no signal, array, short
integer, failure or numbered handle is left. Signals are encoded alike in all three ways. -/
theorem encoding_of_plain_form :
    (∀ v : Value, v.plain.encode = v.encode ∧ v.plain.All Value.IsPlain) ∧
    ∀ s : Signal, s.encode = s.toValue.encode ∧ s.wrap.encode = s.toValue.encode := by
  constructor
  · intro v
    exact ⟨v.encode_plain, v.all_isPlain_plain⟩
  · intro s
    exact ⟨s.encode_eq, Value.encode_wrap s.name s.args⟩

example :
    let inner : Value := .signal "k" [.array [.int 7], .handle ⟨"Port", "-1"⟩, .handle ⟨"Port", "x"⟩]
    (Value.signal "outer" [inner]).plain =
      .list [.string "outer", .list [
        .list [.string "k", .list [.list [.long 7], .long (-1), .handle ⟨"Port", "x"⟩]]]] := by
  rfl

end Tether
