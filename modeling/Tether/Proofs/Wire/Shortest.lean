import Tether.Proofs.Wire.RoundTrip

/-! # No wire form is shorter than an encoding

A tree has a least length: every form that is read as the tree takes at least as many octets, and an
encoding takes no more. -/

namespace Tether

/-! ## What a field can hold -/

namespace Octets

theorem above_succ (width : Nat) (n : Int) : above (width + 1) n = above width n / 256 := by
  induction width generalizing n with
  | zero => rfl
  | succ width ih =>
      rw [above, ih]
      rfl

/-- Whatever octets are read below a number, it is what is above them. -/
theorem above_below (high : Int) (data : Octets) : above data.length (below high data) = high := by
  induction data generalizing high with
  | nil => rfl
  | cons b data ih =>
      have hstep : below high (b :: data) = below (256 * high + b.toNat) data := rfl
      have hb := b.toNat_lt
      rw [List.length_cons, above_succ, hstep, ih]
      omega

theorem below_nonneg {high : Int} (h : 0 ≤ high) (data : Octets) : 0 ≤ below high data := by
  induction data generalizing high with
  | nil => exact h
  | cons b data ih =>
      have hnext : 0 ≤ 256 * high + b.toNat := by omega
      exact ih hnext

theorem unsigned_nonneg (data : Octets) : 0 ≤ unsigned data :=
  below_nonneg (Int.le_refl 0) data

theorem above_unsigned (data : Octets) : above data.length (unsigned data) = 0 :=
  above_below 0 data

theorem signedOctet_bounds (b : UInt8) : -128 ≤ signedOctet b ∧ signedOctet b < 128 := by
  have hb := b.toNat_lt
  unfold signedOctet
  split <;> omega

theorem above_signed (data : Octets) : -128 ≤ above (data.length - 1) (signed data) ∧
    above (data.length - 1) (signed data) < 128 := by
  cases data with
  | nil => exact ⟨by decide, by decide⟩
  | cons b data =>
      rw [List.length_cons, Nat.add_sub_cancel, signed, above_below]
      exact signedOctet_bounds b

theorem ofText_of_text? {data : Octets} {s : String} (h : text? data = some s) : ofText s = data := by
  unfold text? String.fromUTF8? at h
  split at h
  · cases h
    rfl
  · cases h

end Octets

namespace Wire

open Octets (above ofText)

/-! ## Least lengths -/

/-- The length of the shortest form of an integer. -/
def leastInteger (n : Int) : Nat :=
  if -32 ≤ n ∧ n < 0x80 then 1
  else if -0x80 ≤ n ∧ n < 0x100 then 2
  else if -0x8000 ≤ n ∧ n < 0x10000 then 3
  else if -0x80000000 ≤ n ∧ n < 0x100000000 then 5
  else 9

/-- The length of the shortest header for a length. -/
def Family.leastHeader : Family → Nat → Nat
  | .text, length =>
    if length < 32 then 1 else if length < 0x100 then 2 else if length < 0x10000 then 3 else 5
  | .binary, length => if length < 0x100 then 2 else if length < 0x10000 then 3 else 5
  | .array, length | .map, length => if length < 16 then 1 else if length < 0x10000 then 3 else 5

mutual

/-- The length of the shortest form of a tree. -/
def Tree.least : Tree → Nat
  | .nil => 1
  | .bool _ => 1
  | .integer n => leastInteger n
  | .float32 _ => 5
  | .float64 _ => 9
  | .text s => Family.text.leastHeader (ofText s).length + (ofText s).length
  | .binary data => Family.binary.leastHeader data.length + data.length
  | .array items => Family.array.leastHeader items.length + leastItems items
  | .map entries => Family.map.leastHeader entries.length + leastEntries entries

def leastItems : List Tree → Nat
  | [] => 0
  | t :: ts => t.least + leastItems ts

def leastEntries : List (Tree × Tree) → Nat
  | [] => 0
  | (key, value) :: rest => key.least + (value.least + leastEntries rest)

end

theorem leastItems_append (ts us : List Tree) :
    leastItems (ts ++ us) = leastItems ts + leastItems us := by
  induction ts with
  | nil => rw [List.nil_append, leastItems, Nat.zero_add]
  | cons t ts ih => rw [List.cons_append, leastItems, leastItems, ih, Nat.add_assoc]

/-- Parts that are gathered into entries keep their lengths, an odd one at the end apart. -/
theorem leastEntries_pairUp (ts : List Tree) : leastEntries (pairUp ts) ≤ leastItems ts := by
  induction ts using pairUp.induct with
  | case1 key value rest ih =>
      rw [pairUp, leastEntries, leastItems, leastItems]
      omega
  | case2 ts h =>
      rw [pairUp, leastEntries]
      · exact Nat.zero_le _
      · exact h

theorem length_pairUp {n : Nat} {ts : List Tree} (h : ts.length = 2 * n) : (pairUp ts).length = n := by
  induction n generalizing ts with
  | zero => rw [List.length_eq_zero_iff.mp h]; rfl
  | succ n ih =>
      match ts, h with
      | key :: value :: rest, h =>
          have hrest : rest.length = 2 * n := by
            simp only [List.length_cons] at h
            omega
          rw [pairUp, List.length_cons, ih hrest]

/-! ## Every form is long enough -/

/-- Whatever a form of this format can hold takes no fewer octets in its shortest form. -/
def Format.Ample : Format → Prop
  | .whole t => t.least = 1
  | .float32 | .float64 => True
  | .unsigned width => ∀ n, above width n = 0 → leastInteger n ≤ 1 + width
  | .signed width => ∀ n, -128 ≤ above (width - 1) n → above (width - 1) n < 128 →
    leastInteger n ≤ 1 + width
  | .short family length => family.leastHeader length = 1
  | .sized family width => ∀ length : Nat, above width length = 0 →
    family.leastHeader length ≤ 1 + width

theorem leastInteger_le_two {n : Int} (hlo : -0x80 ≤ n) (hhi : n < 0x100) : leastInteger n ≤ 2 := by
  unfold leastInteger
  grind

theorem leastInteger_le_three {n : Int} (hlo : -0x8000 ≤ n) (hhi : n < 0x10000) :
    leastInteger n ≤ 3 := by
  unfold leastInteger
  grind

theorem leastInteger_le_five {n : Int} (hlo : -0x80000000 ≤ n) (hhi : n < 0x100000000) :
    leastInteger n ≤ 5 := by
  unfold leastInteger
  grind

theorem leastInteger_le_nine (n : Int) : leastInteger n ≤ 9 := by
  unfold leastInteger
  grind

theorem ample_unsigned {width : Nat} (h : width = 1 ∨ width = 2 ∨ width = 4 ∨ width = 8) :
    (Format.unsigned width).Ample := by
  intro n hn
  rcases h with rfl | rfl | rfl | rfl <;> simp only [above] at hn
  · exact leastInteger_le_two (by omega) (by omega)
  · exact leastInteger_le_three (by omega) (by omega)
  · exact leastInteger_le_five (by omega) (by omega)
  · exact leastInteger_le_nine n

theorem ample_signed {width : Nat} (h : width = 1 ∨ width = 2 ∨ width = 4 ∨ width = 8) :
    (Format.signed width).Ample := by
  intro n hlo hhi
  rcases h with rfl | rfl | rfl | rfl
  · exact leastInteger_le_two hlo (Int.lt_trans hhi (by decide))
  · simp only [above] at hlo hhi
    exact leastInteger_le_three (by omega) (by omega)
  · simp only [above] at hlo hhi
    exact leastInteger_le_five (by omega) (by omega)
  · exact leastInteger_le_nine n

theorem leastHeader_le_five (family : Family) (length : Nat) : family.leastHeader length ≤ 5 := by
  cases family <;> simp only [Family.leastHeader] <;> grind

theorem leastHeader_le_three (family : Family) {length : Nat} (h : length < 0x10000) :
    family.leastHeader length ≤ 3 := by
  cases family <;> simp only [Family.leastHeader] <;> grind

theorem ample_of_length {family : Family} (h : family = .text ∨ family = .binary) :
    (Format.sized family 1).Ample := by
  intro length hlength
  simp only [above] at hlength
  rcases h with rfl | rfl <;> simp only [Family.leastHeader] <;> grind

theorem ample_sized (family : Family) {width : Nat} (h : width = 2 ∨ width = 4) :
    (Format.sized family width).Ample := by
  intro length hlength
  rcases h with rfl | rfl
  · simp only [above] at hlength
    exact leastHeader_le_three family (by omega)
  · exact leastHeader_le_five family length

/-- The reader knows no format in which a form could be too short. -/
theorem Format.ample_of? {tag : UInt8} {format : Format} (h : Format.of? tag = some format) :
    format.Ample := by
  have htag := tag.toNat_lt
  simp only [Format.of?] at h
  split at h
  · cases h
    simp only [Format.Ample, Tree.least, leastInteger]
    rw [if_pos (by omega)]
  split at h
  · cases h
    simp only [Format.Ample, Family.leastHeader]
    rw [if_pos (by omega)]
  split at h
  · cases h
    simp only [Format.Ample, Family.leastHeader]
    rw [if_pos (by omega)]
  split at h
  · cases h
    simp only [Format.Ample, Family.leastHeader]
    rw [if_pos (by omega)]
  split at h
  · cases h
    simp only [Format.Ample, Tree.least, leastInteger]
    rw [if_pos (by omega)]
  split at h <;> cases h
  · rfl
  · rfl
  · rfl
  · exact ample_of_length (.inr rfl)
  · exact ample_sized .binary (.inl rfl)
  · exact ample_sized .binary (.inr rfl)
  · trivial
  · trivial
  · exact ample_unsigned (by decide)
  · exact ample_unsigned (by decide)
  · exact ample_unsigned (by decide)
  · exact ample_unsigned (by decide)
  · exact ample_signed (by decide)
  · exact ample_signed (by decide)
  · exact ample_signed (by decide)
  · exact ample_signed (by decide)
  · exact ample_of_length (.inl rfl)
  · exact ample_sized .text (.inl rfl)
  · exact ample_sized .text (.inr rfl)
  · exact ample_sized .array (.inl rfl)
  · exact ample_sized .array (.inr rfl)
  · exact ample_sized .map (.inl rfl)
  · exact ample_sized .map (.inr rfl)

section

variable {input rest : Octets} {head : Head} {ts : List Tree}

theorem Family.least_read {family : Family} {length : Nat}
    (h : family.read length input = some (head, rest)) (hts : ts.length = head.parts) :
    (head.build ts).least + rest.length ≤ family.leastHeader length + input.length + leastItems ts := by
  cases family with
  | text =>
      obtain ⟨⟨data, left⟩, hchunk, h⟩ := Option.bind_eq_some_iff.mp h
      obtain ⟨s, hs, h⟩ := Option.bind_eq_some_iff.mp h
      cases h
      obtain ⟨hlen, rfl⟩ := chunk_eq_some hchunk
      simp only [Head.build, Tree.least, Octets.ofText_of_text? hs, hlen, List.length_append]
      omega
  | binary =>
      obtain ⟨⟨data, left⟩, hchunk, h⟩ := Option.bind_eq_some_iff.mp h
      cases h
      obtain ⟨hlen, rfl⟩ := chunk_eq_some hchunk
      simp only [Head.build, Tree.least, hlen, List.length_append]
      omega
  | array =>
      cases h
      have hlen : ts.length = length := hts
      simp only [Head.build, Tree.least, hlen]
      omega
  | map =>
      cases h
      have hlen : (pairUp ts).length = length := length_pairUp hts
      have hparts := leastEntries_pairUp ts
      simp only [Head.build, Tree.least, hlen]
      omega

theorem Format.least_read {format : Format} (hample : format.Ample)
    (h : format.read input = some (head, rest)) (hts : ts.length = head.parts) :
    (head.build ts).least + rest.length ≤ 1 + input.length + leastItems ts := by
  cases format with
  | whole t =>
      cases h
      have ht : t.least = 1 := hample
      simp only [Head.build, ht]
      omega
  | float32 =>
      obtain ⟨⟨data, left⟩, hchunk, h⟩ := Option.bind_eq_some_iff.mp h
      cases h
      obtain ⟨hlen, rfl⟩ := chunk_eq_some hchunk
      simp only [Head.build, Tree.least, List.length_append, hlen]
      omega
  | float64 =>
      obtain ⟨⟨data, left⟩, hchunk, h⟩ := Option.bind_eq_some_iff.mp h
      cases h
      obtain ⟨hlen, rfl⟩ := chunk_eq_some hchunk
      simp only [Head.build, Tree.least, List.length_append, hlen]
      omega
  | unsigned width =>
      obtain ⟨⟨data, left⟩, hchunk, h⟩ := Option.bind_eq_some_iff.mp h
      cases h
      obtain ⟨rfl, rfl⟩ := chunk_eq_some hchunk
      have hleast := hample _ (Octets.above_unsigned data)
      simp only [Head.build, Tree.least, List.length_append]
      omega
  | signed width =>
      obtain ⟨⟨data, left⟩, hchunk, h⟩ := Option.bind_eq_some_iff.mp h
      cases h
      obtain ⟨rfl, rfl⟩ := chunk_eq_some hchunk
      obtain ⟨hlo, hhi⟩ := Octets.above_signed data
      have hleast := hample _ hlo hhi
      simp only [Head.build, Tree.least, List.length_append]
      omega
  | short family length =>
      have hheader : family.leastHeader length = 1 := hample
      have hread := Family.least_read h hts
      omega
  | sized family width =>
      obtain ⟨⟨data, left⟩, hchunk, hfamily⟩ := Option.bind_eq_some_iff.mp h
      obtain ⟨rfl, rfl⟩ := chunk_eq_some hchunk
      have hlength : above data.length (Octets.unsigned data).toNat = 0 := by
        rw [Int.toNat_of_nonneg (Octets.unsigned_nonneg data)]
        exact Octets.above_unsigned data
      have hheader := hample _ hlength
      have hread := Family.least_read hfamily hts
      rw [List.length_append]
      omega

theorem Head.least_read (h : Head.read input = some (head, rest)) (hts : ts.length = head.parts) :
    (head.build ts).least + rest.length ≤ input.length + leastItems ts := by
  cases input with
  | nil => cases h
  | cons tag input =>
      obtain ⟨format, hformat, h⟩ := Option.bind_eq_some_iff.mp h
      have hread := Format.least_read (Format.ample_of? hformat) h hts
      rw [List.length_cons]
      omega

end

theorem length_readTrees {n : Nat} {input rest : Octets} {ts : List Tree}
    (h : readTrees n input = some (ts, rest)) : ts.length = n := by
  induction n, input using readTrees.induct generalizing ts rest with
  | case1 input =>
      rw [readTrees_zero] at h
      cases h
      rfl
  | case2 n input hread =>
      rw [readTrees_of_none hread] at h
      cases h
  | case3 n input head middle hread _ ih =>
      rw [readTrees_succ hread] at h
      obtain ⟨⟨us, left⟩, hus, h⟩ := Option.map_eq_some_iff.mp h
      cases h
      have hlen := ih hus
      rw [List.length_cons, List.length_drop, hlen]
      omega

/-- Trees that are read one after another take up at least their least lengths. -/
theorem leastItems_readTrees {n : Nat} {input rest : Octets} {ts : List Tree}
    (h : readTrees n input = some (ts, rest)) : leastItems ts + rest.length ≤ input.length := by
  induction n, input using readTrees.induct generalizing ts rest with
  | case1 input =>
      rw [readTrees_zero] at h
      cases h
      exact Nat.le_of_eq (Nat.zero_add _)
  | case2 n input hread =>
      rw [readTrees_of_none hread] at h
      cases h
  | case3 n input head middle hread _ ih =>
      -- the trees read after the head are its parts, and then the trees that follow it
      rw [readTrees_succ hread] at h
      obtain ⟨⟨us, left⟩, hus, h⟩ := Option.map_eq_some_iff.mp h
      cases h
      have hrest := ih hus
      have hparts : (us.take head.parts).length = head.parts := by
        rw [List.length_take, length_readTrees hus]
        omega
      have hhead := Head.least_read hread hparts
      have hsplit := leastItems_append (us.take head.parts) (us.drop head.parts)
      rw [List.take_append_drop] at hsplit
      rw [leastItems]
      omega

theorem least_readTree {input rest : Octets} {t : Tree} (h : readTree input = some (t, rest)) :
    t.least + rest.length ≤ input.length := by
  unfold readTree at h
  split at h
  · rename_i t' rest' hread
    cases h
    have hleast := leastItems_readTrees hread
    rwa [leastItems, leastItems, Nat.add_zero] at hleast
  · cases h

/-! ## Encodings are no longer -/

theorem length_integer (n : Int) : (integer n).length = leastInteger n := by
  unfold integer leastInteger
  grind [List.length_cons, Octets.length_field]

theorem length_header (family : Family) (length : Nat) :
    (family.header length).length ≤ family.leastHeader length := by
  cases family with
  | text =>
      -- a length that wraps only makes the header shorter
      have hmod : length % 0x100000000 ≤ length := Nat.mod_le _ _
      simp only [Family.header, textHeader, Family.leastHeader]
      grind [List.length_cons, Octets.length_field]
  | binary =>
      simp only [Family.header, binaryHeader, Family.leastHeader]
      grind [List.length_cons, Octets.length_field]
  | array =>
      simp only [Family.header, arrayHeader, Family.leastHeader]
      grind [List.length_cons, Octets.length_field]
  | map =>
      simp only [Family.header, mapHeader, Family.leastHeader]
      grind [List.length_cons, Octets.length_field]

theorem length_text (s : String) : (text s).length ≤ (Tree.text s).least := by
  have hheader := length_header .text (ofText s).length
  rw [text, List.length_append, Tree.least]
  exact Nat.add_le_add_right hheader _

theorem least_pair (t u : Tree) : (Tree.array [t, u]).least = 1 + t.least + u.least := by
  rw [Tree.least, leastItems, leastItems, leastItems, Nat.add_zero, ← Nat.add_assoc]
  rfl

theorem length_pair_header : (arrayHeader 2).length = 1 := rfl

theorem length_binary (data : Octets) :
    (binaryHeader data.length ++ data).length ≤ (Tree.binary data).least := by
  have hheader := length_header .binary data.length
  rw [List.length_append, Tree.least]
  exact Nat.add_le_add_right hheader _

end Wire

namespace Value

open Wire

theorem leastEntries_wire (entries : List (Value × Value)) :
    leastEntries (entries.map fun e => (e.1.wire, e.2.wire)) =
      leastItems ((parts (.map entries)).map wire) := by
  induction entries with
  | nil => rfl
  | cons e entries ih => exact congrArg (fun n => e.1.wire.least + (e.2.wire.least + n)) ih

theorem length_encodeAll_le {vs : List Value} {data : Octets} (h : encodeAll vs = .ok data)
    (hvs : ∀ v ∈ vs, ∀ data, v.encode = .ok data → data.length ≤ v.wire.least) :
    data.length ≤ leastItems (vs.map wire) := by
  induction vs generalizing data with
  | nil =>
      cases h
      exact Nat.zero_le _
  | cons v vs ih =>
      obtain ⟨a, b, ha, hb, rfl⟩ := encodeAll_cons_eq_ok.mp h
      have hhead := hvs v List.mem_cons_self a ha
      have htail := ih hb fun w hw => hvs w (List.mem_cons_of_mem _ hw)
      rw [List.length_append, List.map_cons, leastItems]
      exact Nat.add_le_add hhead htail

theorem length_arrayHeader_le (vs : List Value) :
    (arrayHeader vs.length).length + leastItems (vs.map wire) ≤ (Tree.array (vs.map wire)).least := by
  have hheader := length_header .array vs.length
  rw [Tree.least, List.length_map]
  exact Nat.add_le_add_right hheader _

/-- What is written of a value before its parts, and the least lengths of the parts, make up no more
than the least length of the value's tree. -/
theorem length_lead_le {v : Value} {data : Octets} (h : v.lead = .ok data) :
    data.length + leastItems (v.parts.map wire) ≤ v.wire.least := by
  cases v with
  | nil => cases h; exact Nat.le_refl _
  | bool b => cases h; exact Nat.le_refl _
  | int n => cases h; exact Nat.le_of_eq (length_integer n.toInt)
  | long n => cases h; exact Nat.le_of_eq (length_integer n.toInt)
  | float x =>
      cases h
      exact Nat.le_of_eq (congrArg (· + 1) (Octets.length_field 4 _))
  | double x =>
      cases h
      exact Nat.le_of_eq (congrArg (· + 1) (Octets.length_field 8 _))
  | string s => cases h; exact length_text s
  | bytes data =>
      obtain ⟨-, rfl⟩ := map_sized_eq_ok h
      exact length_binary data
  | array items =>
      obtain ⟨-, rfl⟩ := sized_eq_ok h
      rw [wire, wireItems_eq]
      exact length_arrayHeader_le items
  | list items =>
      obtain ⟨-, rfl⟩ := sized_eq_ok h
      rw [wire, wireItems_eq]
      exact length_arrayHeader_le items
  | map entries =>
      obtain ⟨-, rfl⟩ := sized_eq_ok h
      have hheader := length_header .map entries.length
      rw [wire, wireEntries_eq, Tree.least, List.length_map, leastEntries_wire]
      exact Nat.add_le_add_right hheader _
  | signal name args =>
      obtain ⟨-, rfl⟩ := map_sized_eq_ok h
      have hname := length_text name
      have hargs := length_arrayHeader_le args
      rw [wire, wireItems_eq, least_pair, parts, List.length_append, List.length_append,
        length_pair_header]
      omega
  | failure f =>
      cases h
      have htype := length_text f.typeName
      have hline : (text f.text).length ≤ (Tree.text (f.typeName ++ ": " ++ f.message)).least :=
        length_text f.text
      have hparts : leastItems ((failure f).parts.map wire) = 0 := rfl
      rw [wire, least_pair, hparts, List.length_append, List.length_append, length_pair_header]
      omega
  | handle g =>
      rw [lead] at h
      split at h
      · rename_i id hid
        cases h
        rw [wire, Handle.number_of_int32? hid]
        exact Nat.le_of_eq (length_integer id.toInt)
      · cases h

theorem length_encode_le (v : Value) {data : Octets} (h : v.encode = .ok data) :
    data.length ≤ v.wire.least := by
  induction v using Value.induction generalizing data with
  | whole v ih =>
      obtain ⟨a, b, hlead, hparts, rfl⟩ := encode_eq_ok.mp h
      have hbody : b.length ≤ leastItems (v.parts.map wire) :=
        length_encodeAll_le hparts fun w hw data hw' => ih w hw hw'
      have hwhole := length_lead_le hlead
      rw [List.length_append]
      omega

/-- No input that is read as the tree of a value, in whatever formats, is shorter than the encoding
of the value. -/
theorem encode_shortest (v : Value) (data input : Octets) (h : v.encode = .ok data)
    (hread : readTree input = some (v.wire, [])) : data.length ≤ input.length := by
  have hencode := length_encode_le v h
  have hinput := least_readTree hread
  exact Nat.le_trans hencode (Nat.le_trans (Nat.le_add_right _ _) hinput)

/-- A list in longer formats than it is encoded in: a 32-bit length, the integer -1 as a signed field
of eight octets, a map with a 16-bit length and one entry, whose text has an 8-bit length. -/
theorem encode_shortest_list :
    let v : Value := .array [.handle ⟨"Port", "-1"⟩, .map [(.string "a", .nil)]]
    let data : Octets := [0x92, 0xff, 0x81, 0xa1, 0x61, 0xc0]
    let input : Octets := [0xdd, 0x00, 0x00, 0x00, 0x02,
      0xd3, 0xff, 0xff, 0xff, 0xff, 0xff, 0xff, 0xff, 0xff,
      0xde, 0x00, 0x01, 0xd9, 0x01, 0x61, 0xc0]
    v.encode = .ok data ∧ readTree input = some (v.wire, []) ∧ data.length ≤ input.length := by
  intro v data input
  have h : v.encode = .ok data := rfl
  have hentry : Reads [0xd9, 0x01, 0x61, 0xc0] [.text "a", .nil] [] :=
    .append (.whole rfl) (.whole rfl)
  have hinteger : Reads (input.drop 5) [.integer (-1)] (input.drop 14) := .whole rfl
  have hmap : Head.read (input.drop 14) = some (.map 1, [0xd9, 0x01, 0x61, 0xc0]) := rfl
  have harray : Head.read input = some (.array 2, input.drop 5) := rfl
  have hread : readTree input = some (v.wire, []) :=
    readTree_of_reads (.head harray (.append hinteger (.head hmap hentry rfl)) rfl)
  exact ⟨h, hread, encode_shortest v data input h hread⟩

end Value

end Tether
