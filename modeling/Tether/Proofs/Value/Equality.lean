import Tether.Proofs.Wire.Layout
import Tether.Value.Equality

/-! # Laws of equality

Two values are equal if no NaN stands in them and they do not differ except in the signs of zeros.
So equality is symmetric and transitive, it is reflexive where there is no NaN, and values without
floating-point zeros are equal only to themselves. -/

namespace Tether

/-! ## Numbers -/

section

variable {α : Type} [BEq α] [LawfulBEq α] {isNaN isZero : α → Bool} {zero : α}

/-- Numbers are equal if they are the same after one zero is put in place of every zero. -/
theorem numbers_equal_iff (hzero : isZero zero) (hnumber : ∀ x, isZero x → isNaN x = false) (x y : α) :
    (!isNaN x && !isNaN y && (x == y || (isZero x && isZero y))) ↔
      isNaN x = false ∧ (if isZero x then zero else x) = if isZero y then zero else y := by
  by_cases hx : isZero x
  · by_cases hy : isZero y
    · simp [hx, hy, hnumber]
    · have hne : x ≠ y := by
        rintro rfl
        exact hy hx
      have hzero' : zero ≠ y := by
        rintro rfl
        exact hy hzero
      simp [hx, hy, hne, hzero']
  · by_cases hy : isZero y
    · have hne : x ≠ y := by
        rintro rfl
        exact hx hy
      have hzero' : x ≠ zero := by
        rintro rfl
        exact hx hzero
      simp [hx, hy, hne, hzero']
    · by_cases hxy : x = y
      · simp [hxy, hy]
      · simp [hx, hy, hxy]

end

/-- The number, with a zero made the positive one. -/
def Binary32.unsignZero (x : Binary32) : Binary32 :=
  if x.isZero then ⟨0⟩ else x

/-- The number, with a zero made the positive one. -/
def Binary64.unsignZero (x : Binary64) : Binary64 :=
  if x.isZero then ⟨0⟩ else x

theorem Binary32.not_isNaN_of_isZero {x : Binary32} (h : x.isZero) : x.isNaN = false := by
  have hx : x.magnitude = 0 := by simpa [isZero] using h
  simp [isNaN, hx]

theorem Binary64.not_isNaN_of_isZero {x : Binary64} (h : x.isZero) : x.isNaN = false := by
  have hx : x.magnitude = 0 := by simpa [isZero] using h
  simp [isNaN, hx]

theorem Binary32.same_iff (x y : Binary32) :
    x.same y ↔ x.isNaN = false ∧ x.unsignZero = y.unsignZero :=
  have hzero : isZero ⟨0⟩ := rfl
  numbers_equal_iff hzero (fun _ => not_isNaN_of_isZero) x y

theorem Binary64.same_iff (x y : Binary64) :
    x.same y ↔ x.isNaN = false ∧ x.unsignZero = y.unsignZero :=
  have hzero : isZero ⟨0⟩ := rfl
  numbers_equal_iff hzero (fun _ => not_isNaN_of_isZero) x y

namespace Value

/-- A number of either width that is no number. -/
def isNaN : Value → Bool
  | .float x => x.isNaN
  | .double x => x.isNaN
  | _ => false

/-- A floating-point zero of either width and sign. -/
def isFloatZero : Value → Bool
  | .float x => x.isZero
  | .double x => x.isZero
  | _ => false

/-- No NaN stands in the value, at whatever depth. -/
def NaNFree (v : Value) : Prop :=
  v.All fun w => w.isNaN = false

/-- No floating-point zero stands in the value, at whatever depth. -/
def ZeroFree (v : Value) : Prop :=
  v.All fun w => w.isFloatZero = false

theorem nanFree_iff {v : Value} : v.NaNFree ↔ v.isNaN = false ∧ ∀ w ∈ v.parts, w.NaNFree :=
  all_iff

theorem zeroFree_iff {v : Value} : v.ZeroFree ↔ v.isFloatZero = false ∧ ∀ w ∈ v.parts, w.ZeroFree :=
  all_iff

/-! ## Zeros without a sign -/

mutual

/-- The value with every zero in it made the positive one. -/
def unsignZeros : Value → Value
  | .float x => .float x.unsignZero
  | .double x => .double x.unsignZero
  | .array items => .array (unsignZerosOfItems items)
  | .list items => .list (unsignZerosOfItems items)
  | .map entries => .map (unsignZerosOfEntries entries)
  | .signal name args => .signal name (unsignZerosOfItems args)
  | v => v

def unsignZerosOfItems : List Value → List Value
  | [] => []
  | v :: vs => unsignZeros v :: unsignZerosOfItems vs

def unsignZerosOfEntries : List (Value × Value) → List (Value × Value)
  | [] => []
  | (k, v) :: es => (unsignZeros k, unsignZeros v) :: unsignZerosOfEntries es

end

@[simp] theorem unsignZerosOfItems_eq (vs : List Value) :
    unsignZerosOfItems vs = vs.map unsignZeros := by
  induction vs with
  | nil => rfl
  | cons v vs ih => rw [unsignZerosOfItems, ih, List.map_cons]

@[simp] theorem unsignZerosOfEntries_eq (es : List (Value × Value)) :
    unsignZerosOfEntries es = es.map fun e => (unsignZeros e.1, unsignZeros e.2) := by
  induction es with
  | nil => rfl
  | cons e es ih => rw [unsignZerosOfEntries, ih, List.map_cons]

theorem parts_unsignZeros (v : Value) : v.unsignZeros.parts = v.parts.map unsignZeros := by
  cases v with
  | map entries => simp [unsignZeros, parts, List.flatMap_map, List.map_flatMap]
  | _ => simp [unsignZeros, parts]

theorem isNaN_unsignZeros (v : Value) : v.unsignZeros.isNaN = v.isNaN := by
  cases v with
  | float x =>
      by_cases hx : x.isZero
      · have hnumber : x.isNaN = false := Binary32.not_isNaN_of_isZero hx
        simp [unsignZeros, isNaN, Binary32.unsignZero, hx, hnumber]
        rfl
      · simp [unsignZeros, isNaN, Binary32.unsignZero, hx]
  | double x =>
      by_cases hx : x.isZero
      · have hnumber : x.isNaN = false := Binary64.not_isNaN_of_isZero hx
        simp [unsignZeros, isNaN, Binary64.unsignZero, hx, hnumber]
        rfl
      · simp [unsignZeros, isNaN, Binary64.unsignZero, hx]
  | _ => simp [unsignZeros, isNaN]

/-- The signs of zeros are of no account for whether there is a NaN in a value. -/
theorem nanFree_unsignZeros (v : Value) : v.unsignZeros.NaNFree ↔ v.NaNFree := by
  induction v using Value.induction with
  | whole v ih =>
      rw [nanFree_iff, nanFree_iff, isNaN_unsignZeros, parts_unsignZeros, List.forall_mem_map]
      exact and_congr_right fun _ => forall₂_congr ih

/-- The entries of a map are known from its keys and values in order. -/
theorem eq_of_parts_map_eq {as bs : List (Value × Value)} (h : parts (.map as) = parts (.map bs)) :
    as = bs := by
  induction as generalizing bs with
  | nil =>
      cases bs with
      | nil => rfl
      | cons b bs => cases h
  | cons a as ih =>
      cases bs with
      | nil => cases h
      | cons b bs =>
          have hparts : a.1 :: a.2 :: parts (.map as) = b.1 :: b.2 :: parts (.map bs) := h
          simp only [List.cons.injEq] at hparts
          obtain ⟨hkey, hvalue, hrest⟩ := hparts
          rw [Prod.ext hkey hvalue, ih hrest]

/-- A value without zeros has no sign to lose. -/
theorem unsignZeros_of_zeroFree {v : Value} (h : v.ZeroFree) : v.unsignZeros = v := by
  induction v using Value.induction with
  | whole v ih =>
      obtain ⟨hown, hinside⟩ := zeroFree_iff.mp h
      have hparts : v.parts.map unsignZeros = v.parts := by
        rw [List.map_congr_left fun w hw => ih w hw (hinside w hw), List.map_id']
      cases v with
      | float x =>
          have hx : x.isZero = false := hown
          simp [unsignZeros, Binary32.unsignZero, hx]
      | double x =>
          have hx : x.isZero = false := hown
          simp [unsignZeros, Binary64.unsignZero, hx]
      | array items =>
          rw [unsignZeros, unsignZerosOfItems_eq]
          exact congrArg array hparts
      | list items =>
          rw [unsignZeros, unsignZerosOfItems_eq]
          exact congrArg list hparts
      | signal name args =>
          rw [unsignZeros, unsignZerosOfItems_eq]
          exact congrArg (signal name) hparts
      | map entries =>
          rw [← parts_unsignZeros, unsignZeros] at hparts
          rw [unsignZeros, eq_of_parts_map_eq hparts]
      | _ => rfl

/-! ## What equality compares -/

theorem sameItems_iff {vs : List Value}
    (h : ∀ v ∈ vs, ∀ w, v.same w ↔ v.NaNFree ∧ v.unsignZeros = w.unsignZeros) (ws : List Value) :
    sameItems vs ws ↔ (∀ v ∈ vs, v.NaNFree) ∧ vs.map unsignZeros = ws.map unsignZeros := by
  induction vs generalizing ws with
  | nil => cases ws <;> simp [sameItems]
  | cons v vs ih =>
      obtain ⟨hv, hvs⟩ := List.forall_mem_cons.mp h
      cases ws with
      | nil => simp [sameItems]
      | cons w ws =>
          rw [sameItems, Bool.and_eq_true, hv, ih hvs, List.forall_mem_cons, List.map_cons,
            List.map_cons, List.cons.injEq, and_and_and_comm]

/-- Entries are compared as the list of all keys and values. -/
theorem sameEntries_eq (as bs : List (Value × Value)) :
    sameEntries as bs = sameItems (parts (.map as)) (parts (.map bs)) := by
  induction as generalizing bs with
  | nil => cases bs <;> rfl
  | cons a as ih =>
      cases bs with
      | nil => rfl
      | cons b bs =>
          have ha : parts (.map (a :: as)) = a.1 :: a.2 :: parts (.map as) := rfl
          have hb : parts (.map (b :: bs)) = b.1 :: b.2 :: parts (.map bs) := rfl
          rw [sameEntries, ih, ha, hb, sameItems, sameItems, Bool.and_assoc]

theorem unsignZeros_map_inj {as bs : List (Value × Value)} :
    (parts (.map as)).map unsignZeros = (parts (.map bs)).map unsignZeros ↔
      (map as).unsignZeros = (map bs).unsignZeros := by
  rw [← parts_unsignZeros, ← parts_unsignZeros, unsignZeros, unsignZeros]
  constructor
  · intro h
    rw [eq_of_parts_map_eq h]
  · intro h
    rw [h]

/-- Values are equal if there is no NaN in them and they differ in nothing but the signs of zeros. -/
theorem same_iff (v w : Value) : v.same w ↔ v.NaNFree ∧ v.unsignZeros = w.unsignZeros := by
  induction v using Value.induction generalizing w with
  | whole v ih =>
      have hitems := sameItems_iff ih
      rw [nanFree_iff]
      cases v with
      | float x =>
          cases w with
          | float y => simp [same, unsignZeros, isNaN, parts, Binary32.same_iff]
          | _ => simp [same, unsignZeros]
      | double x =>
          cases w with
          | double y => simp [same, unsignZeros, isNaN, parts, Binary64.same_iff]
          | _ => simp [same, unsignZeros]
      | array as =>
          cases w with
          | array bs => simpa [same, unsignZeros, isNaN, parts] using hitems bs
          | _ => simp [same, unsignZeros]
      | list as =>
          cases w with
          | list bs => simpa [same, unsignZeros, isNaN, parts] using hitems bs
          | _ => simp [same, unsignZeros]
      | map as =>
          cases w with
          | map bs =>
              rw [same, sameEntries_eq, hitems, unsignZeros_map_inj]
              simp [isNaN]
          | _ => simp [same, unsignZeros]
      | signal m as =>
          cases w with
          | signal n bs =>
              have hargs : sameItems as bs ↔ (∀ w ∈ (signal m as).parts, w.NaNFree) ∧
                  as.map unsignZeros = bs.map unsignZeros := hitems bs
              simp [same, unsignZeros, isNaN, hargs, and_left_comm]
          | _ => simp [same, unsignZeros]
      | _ => cases w <;> simp [same, unsignZeros, isNaN, parts]

/-! ## Laws -/

theorem same_symm {v w : Value} (h : v.same w) : w.same v := by
  obtain ⟨hnumbers, hvw⟩ := (same_iff v w).mp h
  rw [same_iff, ← nanFree_unsignZeros, ← hvw, nanFree_unsignZeros]
  exact ⟨hnumbers, rfl⟩

theorem same_trans {u v w : Value} (huv : u.same v) (hvw : v.same w) : u.same w := by
  rw [same_iff] at huv hvw ⊢
  exact ⟨huv.1, huv.2.trans hvw.2⟩

theorem same_self {v : Value} : v.same v ↔ v.NaNFree := by
  simp [same_iff]

/-- Equal values without zeros are the same value. -/
theorem eq_of_same {v w : Value} (h : v.same w) (hv : v.ZeroFree) (hw : w.ZeroFree) : v = w := by
  have hvw := ((same_iff v w).mp h).2
  rwa [unsignZeros_of_zeroFree hv, unsignZeros_of_zeroFree hw] at hvw

/-- Equality is symmetric and transitive, and every value equals itself unless there is a NaN in it.
Equal values are encoded alike, but for zeros, which are equal and written with their signs. -/
theorem equality_laws :
    (∀ a b : Value, a == b → b == a) ∧
    (∀ a b c : Value, a == b → b == c → a == c) ∧
    (∀ a : Value, a == a ↔ a.NaNFree) ∧
    (∀ a b : Value, a == b → a.ZeroFree → b.ZeroFree → a.encode = b.encode) ∧
    (float ⟨0⟩ == float ⟨0x80000000⟩ ∧
      (float ⟨0⟩).encode ≠ (float ⟨0x80000000⟩).encode) ∧
    double ⟨0⟩ == double ⟨0x8000000000000000⟩ ∧
      (double ⟨0⟩).encode ≠ (double ⟨0x8000000000000000⟩).encode := by
  refine ⟨?_, ?_, ?_, ?_, ⟨by decide, ?_⟩, by decide, ?_⟩
  · intro a b h
    exact same_symm h
  · intro a b c hab hbc
    exact same_trans hab hbc
  · intro a
    exact same_self
  · intro a b h ha hb
    rw [eq_of_same h ha hb]
  · intro h
    have hdata : Wire.float32 ⟨0⟩ = Wire.float32 ⟨0x80000000⟩ := Except.ok.inj h
    revert hdata
    decide
  · intro h
    have hdata : Wire.float64 ⟨0⟩ = Wire.float64 ⟨0x8000000000000000⟩ := Except.ok.inj h
    revert hdata
    decide

end Value

end Tether
