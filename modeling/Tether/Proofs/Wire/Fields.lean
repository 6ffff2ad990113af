import Tether.Octets

/-! # Reading big-endian fields

A field keeps the low octets of a number. Put below the rest of the number, it gives the number back;
so an unsigned field is read below zero, and a signed one below its own first octet. -/

namespace Tether.Octets

/-- The number whose high part is `high` and whose low octets are `data`. -/
def below (high : Int) (data : Octets) : Int :=
  data.foldl (fun n b => 256 * n + b.toNat) high

/-- What a number has above its lowest `width` octets. -/
def above : Nat → Int → Int
  | 0, n => n
  | width + 1, n => above width (n / 256)

/-- An octet in two's complement. -/
def signedOctet (b : UInt8) : Int :=
  if b.toNat < 128 then b.toNat else b.toNat - 256

/-- The number that octets denote. -/
def unsigned (data : Octets) : Int :=
  below 0 data

/-- The number that octets denote in two's complement. -/
def signed : Octets → Int
  | [] => 0
  | b :: data => below (signedOctet b) data

theorem toNat_ofInt (n : Int) : ((UInt8.ofInt n).toNat : Int) = n % 256 := by
  have h : (n % 256).toNat < 256 := by omega
  simp only [UInt8.ofInt, UInt8.toNat_ofNat']
  omega

theorem below_append (high : Int) (a b : Octets) :
    below high (a ++ b) = below (below high a) b :=
  List.foldl_append

/-- A field below the rest of the number is the number. -/
theorem below_above_field (width : Nat) (n : Int) :
    below (above width n) (field width n) = n := by
  induction width generalizing n with
  | zero => rfl
  | succ width ih =>
      rw [field, above, below_append, ih]
      have hlow := toNat_ofInt n
      simp only [below, List.foldl_cons, List.foldl_nil]
      omega

theorem field_succ (width : Nat) (n : Int) :
    field (width + 1) n = UInt8.ofInt (above width n) :: field width n := by
  induction width generalizing n with
  | zero => rfl
  | succ width ih =>
      have h : field (width + 2) n = field (width + 1) (n / 256) ++ [UInt8.ofInt n] := rfl
      rw [h, ih]
      rfl

theorem unsigned_field {width : Nat} {n : Int} (h : above width n = 0) :
    unsigned (field width n) = n := by
  have hn := below_above_field width n
  rwa [h] at hn

theorem signedOctet_ofInt {n : Int} (hlo : -128 ≤ n) (hhi : n < 128) :
    signedOctet (UInt8.ofInt n) = n := by
  have h := toNat_ofInt n
  unfold signedOctet
  split <;> omega

theorem signed_field {width : Nat} {n : Int} (hlo : -128 ≤ above width n)
    (hhi : above width n < 128) : signed (field (width + 1) n) = n := by
  rw [field_succ, signed, signedOctet_ofInt hlo hhi, below_above_field]

end Tether.Octets
