import Mathlib.Data.List.Forall2
import Tether.Proofs.Wire.RoundTrip

/-! # Streams of encodings

A packer takes any number of values, one after another. What it holds is the encodings of the values
without anything between them, and still no two lists of different trees are packed into the same
octets: no encoding is the beginning of another one. -/

namespace Tether

open Wire

namespace Packer

/-- Packs values one after another. -/
def packAll (vs : List Value) (p : Packer) : Except EncodeError Packer :=
  vs.foldlM (fun p v => pack v p) p

/-- Packing appends the encodings, whatever the buffer holds already. -/
theorem packAll_eq (vs : List Value) (p : Packer) :
    packAll vs p = (Value.encodeAll vs).map p.write := by
  rw [← packItems_append fun v _ => pack_append v]
  induction vs generalizing p with
  | nil => rfl
  | cons v vs ih =>
      rw [packAll, List.foldlM_cons, packItems]
      exact bind_congr ih

end Packer

namespace Value

/-! ## Encodings one after another -/

theorem encodeAll_eq_ok {vs : List Value} {data : Octets} :
    encodeAll vs = .ok data ↔ ∃ encodings : List Octets,
      List.Forall₂ (fun v a => v.encode = .ok a) vs encodings ∧ data = encodings.flatten := by
  induction vs generalizing data with
  | nil => simp [encodeAll, eq_comm]
  | cons v vs ih =>
      simp only [encodeAll_cons_eq_ok, ih, List.forall₂_cons_left_iff]
      constructor
      · rintro ⟨a, b, ha, ⟨encodings, hencodings, rfl⟩, rfl⟩
        exact ⟨a :: encodings, ⟨a, encodings, ha, hencodings, rfl⟩, rfl⟩
      · rintro ⟨_, ⟨a, encodings, ha, hencodings, rfl⟩, rfl⟩
        exact ⟨a, encodings.flatten, ha, ⟨encodings, hencodings, rfl⟩, rfl⟩

theorem exists_encodeAll_iff {vs : List Value} :
    (∃ data, encodeAll vs = .ok data) ↔ ∀ v ∈ vs, ∃ data, v.encode = .ok data := by
  induction vs with
  | nil => simp [encodeAll]
  | cons v vs ih =>
      rw [List.forall_mem_cons, ← ih]
      simp only [encodeAll_cons_eq_ok]
      constructor
      · rintro ⟨_, a, b, ha, hb, -⟩
        exact ⟨⟨a, ha⟩, b, hb⟩
      · rintro ⟨⟨a, ha⟩, b, hb⟩
        exact ⟨a ++ b, a, b, ha, hb, rfl⟩

theorem encodeAll_cons_eq_error {v : Value} {vs : List Value} {e : EncodeError} :
    encodeAll (v :: vs) = .error e ↔
      v.encode = .error e ∨ (∃ data, v.encode = .ok data) ∧ encodeAll vs = .error e := by
  rw [encodeAll]
  cases v.encode with
  | error f => simp [bind, Except.bind]
  | ok a => cases encodeAll vs <;> simp [bind, Except.bind, pure, Except.pure]

/-- The first value that cannot be encoded decides the error. -/
theorem encodeAll_eq_error {vs : List Value} {e : EncodeError} :
    encodeAll vs = .error e ↔ ∃ before v after, vs = before ++ v :: after ∧
      (∀ w ∈ before, ∃ data, w.encode = .ok data) ∧ v.encode = .error e := by
  induction vs with
  | nil => simp [encodeAll]
  | cons v vs ih =>
      rw [encodeAll_cons_eq_error, ih]
      constructor
      · rintro (hv | ⟨hv, before, w, after, rfl, hbefore, hw⟩)
        · exact ⟨[], v, vs, rfl, List.forall_mem_nil _, hv⟩
        · exact ⟨v :: before, w, after, rfl, List.forall_mem_cons.mpr ⟨hv, hbefore⟩, hw⟩
      · rintro ⟨before, w, after, hsplit, hbefore, hw⟩
        cases before with
        | nil =>
            cases hsplit
            exact .inl hw
        | cons u before =>
            cases hsplit
            obtain ⟨hv, hbefore⟩ := List.forall_mem_cons.mp hbefore
            exact .inr ⟨hv, before, w, after, rfl, hbefore, hw⟩

/-! ## No encoding is the beginning of another -/

theorem wire_eq_of_append_eq {v w : Value} {a b r s : Octets} (hv : v.TextsFit) (hw : w.TextsFit)
    (ha : v.encode = .ok a) (hb : w.encode = .ok b) (h : a ++ r = b ++ s) :
    v.wire = w.wire ∧ r = s := by
  have hread : readTree (a ++ r) = some (v.wire, r) := readTree_of_reads (reads_encode v hv a ha r)
  have hread' : readTree (b ++ s) = some (w.wire, s) := readTree_of_reads (reads_encode w hw b hb s)
  rw [h, hread'] at hread
  simpa [eq_comm] using hread

theorem encode_ne_nil {v : Value} (hv : v.TextsFit) : v.encode ≠ .ok [] := by
  intro h
  have hread : readTree [] = some (v.wire, []) := readTree_of_reads (reads_encode v hv [] h [])
  rw [readTree, readTrees_of_none rfl] at hread
  cases hread

/-- Octets are packed from values of one list of trees only. -/
theorem wires_eq_of_encodeAll_eq {vs ws : List Value} {data : Octets}
    (hvs : ∀ v ∈ vs, v.TextsFit) (hws : ∀ w ∈ ws, w.TextsFit) (hv : encodeAll vs = .ok data)
    (hw : encodeAll ws = .ok data) : vs.map wire = ws.map wire := by
  induction vs generalizing ws data with
  | nil =>
      cases hv
      cases ws with
      | nil => rfl
      | cons w ws =>
          obtain ⟨a, b, ha, -, hdata⟩ := encodeAll_cons_eq_ok.mp hw
          obtain ⟨rfl, -⟩ := List.append_eq_nil_iff.mp hdata.symm
          exact absurd ha (encode_ne_nil (hws w List.mem_cons_self))
  | cons v vs ih =>
      obtain ⟨hv', hvs⟩ := List.forall_mem_cons.mp hvs
      obtain ⟨a, b, ha, hb, rfl⟩ := encodeAll_cons_eq_ok.mp hv
      cases ws with
      | nil =>
          obtain ⟨rfl, -⟩ := List.append_eq_nil_iff.mp (Except.ok.inj hw).symm
          exact absurd ha (encode_ne_nil hv')
      | cons w ws =>
          obtain ⟨hw', hws⟩ := List.forall_mem_cons.mp hws
          obtain ⟨c, d, hc, hd, hsame⟩ := encodeAll_cons_eq_ok.mp hw
          obtain ⟨hwire, rfl⟩ := wire_eq_of_append_eq hv' hw' ha hc hsame
          rw [List.map_cons, List.map_cons, hwire, ih hvs hws hb hd]

end Value

namespace Packer

theorem packAll_eq_ok {vs : List Value} {p q : Packer} :
    packAll vs p = .ok q ↔ ∃ data, Value.encodeAll vs = .ok data ∧ q = p.write data := by
  rw [packAll_eq]
  cases Value.encodeAll vs <;> simp [Except.map, eq_comm]

theorem octets_withCapacity (capacity : Nat) : (withCapacity capacity).octets = [] := rfl

/-- Packing values one after another goes well as long as each of them can be encoded, and gives the
encodings of the values joined; the first that cannot be encoded gives the error. From the octets the
list of trees is known. -/
theorem packAll_joins_encodings (capacity : Nat) (vs : List Value) :
    (∀ k, (∃ p, packAll (vs.take k) (.withCapacity capacity) = .ok p) ↔
      ∀ v ∈ vs.take k, ∃ data, v.encode = .ok data) ∧
    (∀ k p, packAll (vs.take k) (.withCapacity capacity) = .ok p →
      ∃ encodings : List Octets,
        List.Forall₂ (fun v data => v.encode = .ok data) (vs.take k) encodings ∧
        p.octets = encodings.flatten) ∧
    (∀ e, packAll vs (.withCapacity capacity) = .error e ↔
      ∃ before v after, vs = before ++ v :: after ∧
        (∀ w ∈ before, ∃ data, w.encode = .ok data) ∧ v.encode = .error e) ∧
    ∀ (ws : List Value) (other : Nat) (p q : Packer),
      (∀ v ∈ vs, v.TextsFit) → (∀ w ∈ ws, w.TextsFit) →
      packAll vs (.withCapacity capacity) = .ok p → packAll ws (.withCapacity other) = .ok q →
      vs.map Value.wire ≠ ws.map Value.wire → p.octets ≠ q.octets := by
  refine ⟨?_, ?_, ?_, ?_⟩
  · intro k
    rw [← Value.exists_encodeAll_iff]
    simp only [packAll_eq_ok]
    constructor
    · rintro ⟨_, data, hdata, -⟩
      exact ⟨data, hdata⟩
    · rintro ⟨data, hdata⟩
      exact ⟨_, data, hdata, rfl⟩
  · intro k p hp
    obtain ⟨data, hdata, rfl⟩ := packAll_eq_ok.mp hp
    obtain ⟨encodings, hencodings, rfl⟩ := Value.encodeAll_eq_ok.mp hdata
    refine ⟨encodings, hencodings, ?_⟩
    rw [octets_write, octets_withCapacity, List.nil_append]
  · intro e
    rw [← Value.encodeAll_eq_error, packAll_eq]
    cases Value.encodeAll vs <;> simp [Except.map]
  · intro ws other p q hvs hws hp hq hwires hsame
    obtain ⟨a, ha, rfl⟩ := packAll_eq_ok.mp hp
    obtain ⟨b, hb, rfl⟩ := packAll_eq_ok.mp hq
    simp only [octets_write, octets_withCapacity, List.nil_append] at hsame
    subst hsame
    exact hwires (Value.wires_eq_of_encodeAll_eq hvs hws ha hb)

/-- A list of two numbers and the two numbers alone are told apart; a third value would be refused. -/
theorem packAll_joins_encodings_two_lists :
    let vs : List Value := [.int 1, .long 2]
    let ws : List Value := [.array [.int 1, .int 2], .handle ⟨"Socket", "x"⟩]
    (∀ v ∈ vs, v.TextsFit) ∧ (∀ w ∈ ws.take 1, w.TextsFit) ∧
      packAll vs (.withCapacity 64) = .ok ⟨#[1, 2]⟩ ∧
      packAll (ws.take 1) (.withCapacity 0) = .ok ⟨#[0x92, 1, 2]⟩ ∧
      (⟨#[1, 2]⟩ : Packer).octets ≠ (⟨#[0x92, 1, 2]⟩ : Packer).octets ∧
      packAll ws (.withCapacity 0) = .error (.unsupportedType "Socket" "x") := by
  intro vs ws
  have hvs : ∀ v ∈ vs, v.TextsFit := by decide
  have hws : ∀ w ∈ ws.take 1, w.TextsFit := by decide
  have hp : packAll vs (.withCapacity 64) = .ok ⟨#[1, 2]⟩ := rfl
  have hq : packAll (ws.take 1) (.withCapacity 0) = .ok ⟨#[0x92, 1, 2]⟩ := rfl
  have hwires : vs.map Value.wire ≠ (ws.take 1).map Value.wire := nofun
  have happart := (packAll_joins_encodings 64 vs).2.2.2 _ 0 _ _ hvs hws hp hq hwires
  have hrefused := ((packAll_joins_encodings 0 ws).2.2.1 (.unsupportedType "Socket" "x")).mpr
    ⟨[.array [.int 1, .int 2]], .handle ⟨"Socket", "x"⟩, [], rfl,
      List.forall_mem_singleton.mpr ⟨_, rfl⟩, rfl⟩
  exact ⟨hvs, hws, hp, hq, happart, hrefused⟩

end Packer

end Tether
