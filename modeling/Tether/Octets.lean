/-! # Octet strings: big-endian fields and hexadecimal text -/

namespace Tether

abbrev Octets := List UInt8

namespace Octets

/-! ## Big-endian fields -/

/-- The two's complement of `n` in `width` octets, most significant first. -/
def field : Nat → Int → Octets
  | 0, _ => []
  | width + 1, n => field width (n / 256) ++ [UInt8.ofInt n]

@[simp] theorem length_field (width : Nat) (n : Int) : (field width n).length = width := by
  induction width generalizing n with
  | zero => rfl
  | succ width ih => simp [field, ih]

/-! ## Hexadecimal text -/

/-- The lowercase hexadecimal digit of a number below sixteen. -/
def hexDigit (n : Nat) : Char :=
  if n < 10 then Char.ofNat ('0'.toNat + n) else Char.ofNat ('a'.toNat + (n - 10))

/-- Two lowercase hexadecimal digits for each octet. -/
def hexChars (data : Octets) : List Char :=
  data.flatMap fun b => [hexDigit (b.toNat / 16), hexDigit (b.toNat % 16)]

def hex (data : Octets) : String :=
  String.ofList (hexChars data)

theorem length_hexChars (data : Octets) : (hexChars data).length = 2 * data.length := by
  induction data with
  | nil => rfl
  | cons b data ih => simp_all [hexChars]; omega

/-! ## Text -/

/-- The UTF-8 form of a text. -/
def ofText (s : String) : Octets :=
  s.toUTF8.data.toList

/-- The text an octet string spells in UTF-8, if it spells one. -/
def text? (data : Octets) : Option String :=
  String.fromUTF8? ⟨data.toArray⟩

theorem text?_ofText (s : String) : text? (ofText s) = some s := by
  have h : (⟨(ofText s).toArray⟩ : ByteArray) = s.toUTF8 := by simp [ofText]
  simp [text?, h, String.fromUTF8?, s.isValidUTF8, String.fromUTF8]

end Octets

end Tether
