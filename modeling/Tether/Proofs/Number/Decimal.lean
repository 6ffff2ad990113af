import Mathlib.Data.List.Induction
import Mathlib.Data.Nat.Digits.Defs
import Tether.Number.Signed

/-! # Signed decimal texts

Reading a signed decimal text accepts exactly an optional sign and one or more digits, and gives the
number these denote by their places. What is printed for an integer is such a text. -/

namespace Tether

/-! ## Printed integers -/

theorem toList_toString (n : Int) : (toString n).toList =
    if 0 ≤ n then Nat.toDigits 10 n.natAbs else '-' :: Nat.toDigits 10 n.natAbs := by
  rw [Int.toString_eq_repr, Int.repr_eq_if]
  split
  · rw [Nat.toList_repr, show n.toNat = n.natAbs by omega]
  · rw [String.toList_append, Nat.toList_repr, show (-n).toNat = n.natAbs by omega]
    rfl

theorem isDigit_of_mem_toDigits {k : Nat} : ∀ c ∈ Nat.toDigits 10 k, c.isDigit :=
  fun _ h => Nat.isDigit_of_mem_toDigits (by decide) (by decide) h

theorem digitsValue_toDigits (k : Nat) : digitsValue (Nat.toDigits 10 k) = k :=
  Nat.ofDigitChars_ten_toDigits

/-! ## Digits -/

/-- The number of a digit. -/
def digitNumber (c : Char) : Nat :=
  c.toNat - '0'.toNat

/-- What digits denote: the number of each digit times the power of ten of its place. -/
def placeValue (digits : List Char) : Nat :=
  Nat.ofDigits 10 (digits.reverse.map digitNumber)

theorem digitsValue_concat (digits : List Char) (c : Char) :
    digitsValue (digits ++ [c]) = 10 * digitsValue digits + digitNumber c :=
  List.foldl_append

theorem digitsValue_eq (digits : List Char) : digitsValue digits = placeValue digits := by
  induction digits using List.reverseRecOn with
  | nil => rfl
  | append_singleton digits c ih =>
      rw [digitsValue_concat, ih, placeValue, placeValue, List.reverse_append]
      simp [Nat.ofDigits_cons, Nat.add_comm]

/-- One or more ASCII digits. -/
def AreDigits (cs : List Char) : Prop :=
  cs ≠ [] ∧ ∀ c ∈ cs, '0' ≤ c ∧ c ≤ '9'

theorem isDigit_iff (c : Char) : c.isDigit ↔ '0' ≤ c ∧ c ≤ '9' := by
  simp [Char.isDigit, Char.le_def]

theorem areDigits_toDigits (k : Nat) : AreDigits (Nat.toDigits 10 k) :=
  ⟨Nat.toDigits_ne_nil, fun c hc => (isDigit_iff c).mp (isDigit_of_mem_toDigits c hc)⟩

/-- A sign is no digit. -/
theorem not_areDigits_sign {c : Char} (h : c = '+' ∨ c = '-') (cs : List Char) :
    ¬ AreDigits (c :: cs) := by
  intro hdigits
  have hc := (isDigit_iff c).mpr (hdigits.2 c List.mem_cons_self)
  rcases h with rfl | rfl <;> cases hc

namespace Signed

/-- A text of digits, with one sign before them or none, and the number it denotes. -/
inductive Denotes : List Char → Int → Prop
  | unsigned {digits : List Char} (h : AreDigits digits) : Denotes digits (placeValue digits)
  | plus {digits : List Char} (h : AreDigits digits) : Denotes ('+' :: digits) (placeValue digits)
  | minus {digits : List Char} (h : AreDigits digits) :
      Denotes ('-' :: digits) (-(placeValue digits : Int))

theorem natural?_eq_some {cs : List Char} {k : Nat} :
    natural? cs = some k ↔ AreDigits cs ∧ placeValue cs = k := by
  simp [natural?, AreDigits, isDigit_iff, digitsValue_eq, and_assoc]

/-- What digits are read as behind a sign, which stands for `f`. -/
theorem map_natural?_eq_some {cs : List Char} {f : Int → Int} {n : Int} :
    Option.map f (natural? cs) = some n ↔ AreDigits cs ∧ f (placeValue cs) = n := by
  simp [Option.bind_eq_some_iff, natural?_eq_some, and_assoc]

/-- Exactly the texts that denote a number are read, as that number. -/
theorem integer?_eq_some {cs : List Char} {n : Int} : integer? cs = some n ↔ Denotes cs n := by
  constructor
  · intro h
    unfold integer? at h
    split at h
    · obtain ⟨hdigits, rfl⟩ := map_natural?_eq_some.mp h
      exact .minus hdigits
    · obtain ⟨hdigits, rfl⟩ := map_natural?_eq_some.mp h
      exact .plus hdigits
    · obtain ⟨hdigits, rfl⟩ := map_natural?_eq_some.mp h
      exact .unsigned hdigits
  · intro h
    cases h with
    | minus h | plus h => exact map_natural?_eq_some.mpr ⟨h, rfl⟩
    | unsigned h =>
        rw [integer?]
        · exact map_natural?_eq_some.mpr ⟨h, rfl⟩
        · rintro cs rfl
          exact not_areDigits_sign (.inr rfl) cs h
        · rintro cs rfl
          exact not_areDigits_sign (.inl rfl) cs h

/-- Exactly the texts that denote an integer of 32 bits are read, as that integer. -/
theorem int32?_eq_some {s : String} {n : Int32} : int32? s = some n ↔ Denotes s.toList n.toInt := by
  rw [← integer?_eq_some, int32?]
  have hlo := n.le_toInt
  have hhi := n.toInt_lt
  cases integer? s.toList with
  | none => simp
  | some k =>
      simp only [Option.ite_none_right_eq_some, Option.some.injEq]
      constructor
      · rintro ⟨hrange, rfl⟩
        rw [Int32.toInt_ofInt_of_le (by omega) (by omega)]
      · rintro rfl
        exact ⟨by omega, Int32.ofInt_toInt n⟩

/-- What is printed for an integer denotes it. -/
theorem denotes_toString (n : Int) : Denotes (toString n).toList n := by
  have hdigits := areDigits_toDigits n.natAbs
  have hvalue : placeValue (Nat.toDigits 10 n.natAbs) = n.natAbs := by
    rw [← digitsValue_eq, digitsValue_toDigits]
  rw [toList_toString]
  split
  · have h := Denotes.unsigned hdigits
    rwa [hvalue, show (n.natAbs : Int) = n by omega] at h
  · have h := Denotes.minus hdigits
    rwa [hvalue, show -(n.natAbs : Int) = n by omega] at h

end Signed

end Tether
