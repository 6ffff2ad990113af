import Tether.Proofs.Wire.Layout
import Tether.Proofs.Wire.Reader

/-! # Reading gives back what was written -/

namespace Tether

namespace Wire

open Octets (field above ofText)

/-! ## Fields and heads -/

theorem chunk_append (data rest : Octets) : chunk data.length (data ++ rest) = some (data, rest) := by
  simp [chunk]

theorem chunk_field (width : Nat) (n : Int) (rest : Octets) :
    chunk width (field width n ++ rest) = some (field width n, rest) := by
  have h := chunk_append (field width n) rest
  rwa [Octets.length_field] at h

variable {tag : UInt8} {family : Family} {width : Nat} {n : Int} {rest : Octets}

theorem read_tag {format : Format} (htag : Format.of? tag = some format) (input : Octets) :
    Head.read (tag :: input) = format.read input := by
  rw [Head.read, htag, Option.bind_some]

theorem read_unsigned (htag : Format.of? tag = some (.unsigned width)) (h : above width n = 0) :
    Head.read (tag :: field width n ++ rest) = some (.whole (.integer n), rest) := by
  rw [List.cons_append, read_tag htag, Format.read, chunk_field, Option.bind_eq_bind,
    Option.bind_some]
  dsimp only
  rw [Octets.unsigned_field h]
  rfl

theorem read_signed (htag : Format.of? tag = some (.signed (width + 1)))
    (hlo : -128 ≤ above width n) (hhi : above width n < 128) :
    Head.read (tag :: field (width + 1) n ++ rest) = some (.whole (.integer n), rest) := by
  rw [List.cons_append, read_tag htag, Format.read, chunk_field, Option.bind_eq_bind,
    Option.bind_some]
  dsimp only
  rw [Octets.signed_field hlo hhi]
  rfl

theorem read_sized {length : Nat} (htag : Format.of? tag = some (.sized family width))
    (h : above width length = 0) :
    Head.read (tag :: field width length ++ rest) = family.read length rest := by
  rw [List.cons_append, read_tag htag, Format.read, chunk_field, Option.bind_eq_bind,
    Option.bind_some]
  dsimp only
  rw [Octets.unsigned_field h, Int.toNat_natCast]

theorem field_one (n : Int) : field 1 n = [UInt8.ofInt n] := rfl

/-- An integer is its own octet if it lies between -32 and 127. -/
theorem of?_fixint (hlo : -32 ≤ n) (hhi : n < 128) :
    Format.of? (UInt8.ofInt n) = some (.whole (.integer n)) := by
  have h := Octets.toNat_ofInt n
  unfold Format.of?
  dsimp only
  by_cases hn : 0 ≤ n
  · have hval : ((UInt8.ofInt n).toNat : Int) = n := by omega
    rw [if_pos (by omega), hval]
  · have hval : ((UInt8.ofInt n).toNat : Int) - 0x100 = n := by omega
    rw [if_neg (by omega), if_neg (by omega), if_neg (by omega), if_neg (by omega),
      if_pos (by omega)]
    exact congrArg (fun m => some (Format.whole (.integer m))) hval

/-! ## Scalars -/

theorem read_nil : Head.read (nil ++ rest) = some (.whole .nil, rest) := rfl

theorem read_bool (b : Bool) : Head.read (bool b ++ rest) = some (.whole (.bool b), rest) := by
  cases b <;> rfl

theorem read_float32 (x : Binary32) :
    Head.read (float32 x ++ rest) = some (.whole (.float32 x), rest) := by
  have hx : above 4 x.bits.toNat = 0 := by
    have h := x.bits.toNat_lt
    simp only [above]
    omega
  have htag : Format.of? 0xca = some .float32 := rfl
  rw [float32, List.cons_append, read_tag htag, Format.read, chunk_field,
    Option.bind_eq_bind, Option.bind_some]
  dsimp only
  rw [Octets.unsigned_field hx, Int.toNat_natCast, UInt32.ofNat_toNat]
  rfl

theorem read_float64 (x : Binary64) :
    Head.read (float64 x ++ rest) = some (.whole (.float64 x), rest) := by
  have hx : above 8 x.bits.toNat = 0 := by
    have h := x.bits.toNat_lt
    simp only [above]
    omega
  have htag : Format.of? 0xcb = some .float64 := rfl
  rw [float64, List.cons_append, read_tag htag, Format.read, chunk_field,
    Option.bind_eq_bind, Option.bind_some]
  dsimp only
  rw [Octets.unsigned_field hx, Int.toNat_natCast, UInt64.ofNat_toNat]
  rfl

/-- Every integer from the least signed to the greatest unsigned one of 64 bits is read back. -/
theorem read_integer (hlo : -0x8000000000000000 ≤ n) (hhi : n < 0x10000000000000000) :
    Head.read (integer n ++ rest) = some (.whole (.integer n), rest) := by
  unfold integer
  split
  · rw [field_one, List.singleton_append, read_tag (of?_fixint (by omega) (by omega))]
    rfl
  · split
    · split
      · exact read_signed rfl (by simp only [above]; omega) (by simp only [above]; omega)
      · split
        · exact read_signed rfl (by simp only [above]; omega) (by simp only [above]; omega)
        · split
          · exact read_signed rfl (by simp only [above]; omega) (by simp only [above]; omega)
          · exact read_signed rfl (by simp only [above]; omega) (by simp only [above]; omega)
    · split
      · exact read_unsigned rfl (by simp only [above]; omega)
      · split
        · exact read_unsigned rfl (by simp only [above]; omega)
        · split
          · exact read_unsigned rfl (by simp only [above]; omega)
          · exact read_unsigned rfl (by simp only [above]; omega)

/-! ## Headers -/

/-- The header written for a length. -/
def Family.header : Family → Nat → Octets
  | .text => textHeader
  | .binary => binaryHeader
  | .array => arrayHeader
  | .map => mapHeader

/-- A first octet with a length in it, which starts at `base`. -/
theorem read_short (base : Nat) {length : Nat}
    (htag : Format.of? (UInt8.ofNat (base + length)) = some (.short family length)) :
    Head.read (field 1 ((base : Int) + length) ++ rest) = family.read length rest := by
  have hoctet : UInt8.ofInt ((base : Int) + length) = UInt8.ofNat (base + length) := by
    apply UInt8.toNat_inj.mp
    have h := Octets.toNat_ofInt ((base : Int) + length)
    rw [UInt8.toNat_ofNat']
    omega
  rw [field_one, List.singleton_append, hoctet, read_tag htag]
  rfl

theorem read_header (family : Family) {length : Nat} (h : length ≤ maxLength) :
    Head.read (family.header length ++ rest) = family.read length rest := by
  unfold maxLength at h
  cases family with
  | text =>
      have hmod : length % 0x100000000 = length := Nat.mod_eq_of_lt (by omega)
      simp only [Family.header, textHeader, hmod]
      split
      · apply read_short 0xa0
        have ht : (UInt8.ofNat (0xa0 + length)).toNat = 0xa0 + length := by
          rw [UInt8.toNat_ofNat']
          omega
        simp only [Format.of?, ht]
        rw [if_neg (by omega), if_neg (by omega), if_neg (by omega), if_pos (by omega),
          Nat.add_sub_cancel_left]
      · split
        · exact read_sized rfl (by simp only [above]; omega)
        · split
          · exact read_sized rfl (by simp only [above]; omega)
          · exact read_sized rfl (by simp only [above]; omega)
  | binary =>
      simp only [Family.header, binaryHeader]
      split
      · exact read_sized rfl (by simp only [above]; omega)
      · split
        · exact read_sized rfl (by simp only [above]; omega)
        · exact read_sized rfl (by simp only [above]; omega)
  | array =>
      simp only [Family.header, arrayHeader]
      split
      · apply read_short 0x90
        have ht : (UInt8.ofNat (0x90 + length)).toNat = 0x90 + length := by
          rw [UInt8.toNat_ofNat']
          omega
        simp only [Format.of?, ht]
        rw [if_neg (by omega), if_neg (by omega), if_pos (by omega), Nat.add_sub_cancel_left]
      · split
        · exact read_sized rfl (by simp only [above]; omega)
        · exact read_sized rfl (by simp only [above]; omega)
  | map =>
      simp only [Family.header, mapHeader]
      split
      · apply read_short 0x80
        have ht : (UInt8.ofNat (0x80 + length)).toNat = 0x80 + length := by
          rw [UInt8.toNat_ofNat']
          omega
        simp only [Format.of?, ht]
        rw [if_neg (by omega), if_pos (by omega), Nat.add_sub_cancel_left]
      · split
        · exact read_sized rfl (by simp only [above]; omega)
        · exact read_sized rfl (by simp only [above]; omega)

theorem read_text {s : String} (h : (ofText s).length ≤ maxLength) :
    Head.read (text s ++ rest) = some (.whole (.text s), rest) := by
  have hhead : Head.read (textHeader (ofText s).length ++ (ofText s ++ rest)) =
      Family.text.read (ofText s).length (ofText s ++ rest) := read_header .text h
  rw [text, List.append_assoc, hhead, Family.read, chunk_append, Option.bind_eq_bind, Option.bind_some]
  dsimp only
  rw [Octets.text?_ofText]
  rfl

theorem read_binary {data : Octets} (h : data.length ≤ maxLength) :
    Head.read (binaryHeader data.length ++ data ++ rest) = some (.whole (.binary data), rest) := by
  have hhead : Head.read (binaryHeader data.length ++ (data ++ rest)) =
      Family.binary.read data.length (data ++ rest) := read_header .binary h
  rw [List.append_assoc, hhead, Family.read, chunk_append, Option.bind_eq_bind, Option.bind_some]
  rfl

/-! ## Trees -/

/-- The input starts with these trees, and the rest comes after them: reading any number of trees
more goes on with the rest. -/
def Reads (input : Octets) (ts : List Tree) (rest : Octets) : Prop :=
  ∀ n, readTrees (ts.length + n) input = (readTrees n rest).map fun (more, left) => (ts ++ more, left)

theorem Reads.nil (input : Octets) : Reads input [] input := by
  intro n
  rw [List.length_nil, Nat.zero_add]
  exact Option.map_id'.symm

theorem Reads.append {a b c : Octets} {ts us : List Tree} (hts : Reads a ts b) (hus : Reads b us c) :
    Reads a (ts ++ us) c := by
  intro n
  rw [List.length_append, Nat.add_assoc, hts, hus, Option.map_map]
  simp [Function.comp_def]

/-- A head and the parts it announces make up one tree. -/
theorem Reads.head {input middle rest : Octets} {head : Head} {ts : List Tree}
    (h : Head.read input = some (head, middle)) (hts : Reads middle ts rest)
    (hlen : ts.length = head.parts) : Reads input [head.build ts] rest := by
  intro n
  rw [List.length_singleton, Nat.add_comm, readTrees_succ h, ← hlen, hts, Option.map_map]
  simp [Function.comp_def]

theorem Reads.whole {input rest : Octets} {t : Tree}
    (h : Head.read input = some (.whole t, rest)) : Reads input [t] rest :=
  .head h (.nil rest) rfl

theorem readTree_of_reads {input rest : Octets} {t : Tree} (h : Reads input [t] rest) :
    readTree input = some (t, rest) := by
  have h0 : readTrees 1 input = some ([t], rest) := by
    rw [show 1 = [t].length + 0 from rfl, h 0, readTrees_zero]
    rfl
  rw [readTree, h0]

end Wire

/-! ## Values -/

open Wire

theorem Signed.integer?_of_int32? {s : String} {id : Int32} (h : int32? s = some id) :
    integer? s.toList = some id.toInt := by
  unfold int32? at h
  split at h
  · rename_i n hn
    split at h
    · rename_i hrange
      cases h
      rw [hn, Int32.toInt_ofInt_of_le (by omega) (by omega)]
    · cases h
  · cases h

theorem Handle.number_of_int32? {h : Handle} {id : Int32} (hid : Signed.int32? h.display = some id) :
    h.number = id.toInt := by
  rw [Handle.number, Signed.integer?_of_int32? hid, Option.getD_some]

namespace Value

theorem pairUp_wire_parts (entries : List (Value × Value)) :
    pairUp ((parts (.map entries)).map wire) = entries.map fun e => (e.1.wire, e.2.wire) := by
  induction entries with
  | nil => rfl
  | cons e entries ih => exact congrArg _ ih

theorem length_parts_map (entries : List (Value × Value)) :
    (parts (.map entries)).length = 2 * entries.length := by
  induction entries with
  | nil => rfl
  | cons e entries ih =>
      have h : (parts (.map (e :: entries))).length = (parts (.map entries)).length + 2 := rfl
      rw [h, ih, List.length_cons]
      omega

/-- Values one after another are read as their trees, if each of them is. -/
theorem reads_encodeAll {vs : List Value} {data : Octets} (h : encodeAll vs = .ok data)
    (hvs : ∀ v ∈ vs, ∀ data, v.encode = .ok data → ∀ rest, Reads (data ++ rest) [v.wire] rest)
    (rest : Octets) : Reads (data ++ rest) (vs.map wire) rest := by
  induction vs generalizing data with
  | nil =>
      cases h
      exact .nil rest
  | cons v vs ih =>
      obtain ⟨a, b, ha, hb, rfl⟩ := encodeAll_cons_eq_ok.mp h
      rw [List.append_assoc]
      exact (hvs v List.mem_cons_self a ha (b ++ rest)).append
        (ih hb fun w hw => hvs w (List.mem_cons_of_mem _ hw))

theorem reads_encode (v : Value) (fits : v.TextsFit) (data : Octets) (h : v.encode = .ok data)
    (rest : Octets) : Reads (data ++ rest) [v.wire] rest := by
  induction v using Value.induction generalizing data rest with
  | whole v ih =>
      obtain ⟨htexts, hinside⟩ := all_iff.mp fits
      obtain ⟨a, b, hlead, hparts, rfl⟩ := encode_eq_ok.mp h
      -- all containers read their parts in the same way; only the heads differ
      have hbody : Reads (b ++ rest) (v.parts.map wire) rest :=
        reads_encodeAll hparts (fun w hw data hw' rest => ih w hw (hinside w hw) data hw' rest) rest
      rw [List.append_assoc]
      cases v with
      | nil => cases hlead; cases hparts; exact .whole read_nil
      | bool b => cases hlead; cases hparts; exact .whole (read_bool b)
      | int n =>
          cases hlead; cases hparts
          have hlo := n.le_toInt
          have hhi := n.toInt_lt
          exact .whole (read_integer (by omega) (by omega))
      | long n =>
          cases hlead; cases hparts
          have hlo := n.le_toInt
          have hhi := n.toInt_lt
          exact .whole (read_integer (by omega) (by omega))
      | float x => cases hlead; cases hparts; exact .whole (read_float32 x)
      | double x => cases hlead; cases hparts; exact .whole (read_float64 x)
      | string s =>
          cases hlead; cases hparts
          exact .whole (read_text (htexts s List.mem_cons_self))
      | bytes data =>
          obtain ⟨hlen, rfl⟩ := map_sized_eq_ok hlead
          cases hparts
          exact .whole (read_binary hlen)
      | array items =>
          obtain ⟨hlen, rfl⟩ := sized_eq_ok hlead
          rw [wire, wireItems_eq]
          exact .head (read_header .array hlen) hbody (List.length_map wire)
      | list items =>
          obtain ⟨hlen, rfl⟩ := sized_eq_ok hlead
          rw [wire, wireItems_eq]
          exact .head (read_header .array hlen) hbody (List.length_map wire)
      | map entries =>
          obtain ⟨hlen, rfl⟩ := sized_eq_ok hlead
          have hcount : ((parts (.map entries)).map wire).length = (Head.map entries.length).parts := by
            rw [List.length_map, length_parts_map]
            rfl
          have hread := Reads.head (read_header .map hlen) hbody hcount
          rwa [Head.build, pairUp_wire_parts, ← wireEntries_eq, ← wire] at hread
      | signal name args =>
          obtain ⟨hlen, rfl⟩ := map_sized_eq_ok hlead
          have hname : (Octets.ofText name).length ≤ maxLength := htexts name List.mem_cons_self
          have hargs : Reads (arrayHeader args.length ++ (b ++ rest)) [.array (args.map wire)] rest :=
            .head (read_header .array hlen) hbody (List.length_map wire)
          have hfields := (Reads.whole (read_text hname)).append hargs
          rw [wire, wireItems_eq, List.append_assoc, List.append_assoc]
          exact .head (read_header .array (by decide)) hfields rfl
      | failure f =>
          cases hlead; cases hparts
          have htype : (Octets.ofText f.typeName).length ≤ maxLength :=
            htexts f.typeName List.mem_cons_self
          have hline : (Octets.ofText f.text).length ≤ maxLength :=
            htexts f.text (List.mem_cons_of_mem _ List.mem_cons_self)
          have hlast : Reads (text f.text ++ rest) [.text f.text] rest := .whole (read_text hline)
          have hfields := (Reads.whole (read_text htype)).append hlast
          rw [List.append_assoc, List.append_assoc]
          exact .head (read_header .array (by decide)) hfields rfl
      | handle h =>
          cases hparts
          rw [lead] at hlead
          split at hlead
          · rename_i id hid
            cases hlead
            have hlo := id.le_toInt
            have hhi := id.toInt_lt
            rw [wire, Handle.number_of_int32? hid]
            exact .whole (read_integer (by omega) (by omega))
          · cases hlead

/-- Reading an encoding gives the tree of the value and leaves exactly what comes after it. -/
theorem readTree_encode (v : Value) (fits : v.TextsFit) (data : Octets) (h : v.encode = .ok data)
    (rest : Octets) : readTree (data ++ rest) = some (v.wire, rest) :=
  readTree_of_reads (reads_encode v fits data h rest)

/-- A map from a handle to a signal and from a failure to a number, with an octet behind it. -/
theorem readTree_encode_nested :
    let v : Value := .map
      [(.handle ⟨"Port", "-129"⟩, .signal "k" [.list [.float ⟨0x7fc00001⟩, .nil]]),
        (.failure ⟨"E", "é"⟩, .long 70000)]
    let data : Octets :=
      [0x82, 0xd1, 0xff, 0x7f, 0x92, 0xa1, 0x6b, 0x91, 0x92, 0xca, 0x7f, 0xc0, 0x00, 0x01, 0xc0,
        0x92, 0xa1, 0x45, 0xa5, 0x45, 0x3a, 0x20, 0xc3, 0xa9, 0xce, 0x00, 0x01, 0x11, 0x70]
    v.TextsFit ∧ v.encode = .ok data ∧ readTree (data ++ [0xc1]) = some (
      .map
        [(.integer (-129), .array [.text "k", .array [.array [.float32 ⟨0x7fc00001⟩, .nil]]]),
          (.array [.text "E", .text "E: é"], .integer 70000)],
      [0xc1]) := by
  intro v data
  have fits : v.TextsFit := by decide
  have h : v.encode = .ok data := rfl
  exact ⟨fits, h, readTree_encode v fits data h [0xc1]⟩

end Value

end Tether
