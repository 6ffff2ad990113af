import Tether.Json.Fault

/-! # JSON numbers

A number is kept as it is spelled, so that the same spelling can be converted or only be passed over. -/

namespace Tether.Json

/-- A number as it is spelled: a sign, digits, digits after a point, a signed exponent. -/
structure Numeral where
  negative : Bool
  whole : List Char
  fraction : Option (List Char)
  /-- Whether the exponent is negative, and its digits. -/
  exponent : Option (Bool × List Char)
  deriving DecidableEq

namespace Numeral

/-- A spelling with neither point nor exponent. -/
def isPlain (n : Numeral) : Bool :=
  n.fraction.isNone && n.exponent.isNone

/-! ## Reading -/

/-- One or more digits and what follows them. -/
def digits (cs : List Char) : Except Fault (List Char × List Char) :=
  let ds := cs.takeWhile Char.isDigit
  let rest := cs.dropWhile Char.isDigit
  if ds ≠ [] then .ok (ds, rest)
  else .error (if rest = [] then .cutShort else .malformed)

/-- The digits before the point: no zero stands in front of another digit. -/
def wholePart (cs : List Char) : Except Fault (List Char × List Char) := do
  let (ds, rest) ← digits cs
  match ds with
  | '0' :: _ :: _ => .error .malformed
  | _ => return (ds, rest)

def fractionPart : List Char → Except Fault (Option (List Char) × List Char)
  | '.' :: cs => do
    let (ds, rest) ← digits cs
    return (some ds, rest)
  | cs => return (none, cs)

def exponentSign : List Char → Bool × List Char
  | '-' :: cs => (true, cs)
  | '+' :: cs => (false, cs)
  | cs => (false, cs)

/-- The exponent after its mark, if there is one. -/
def exponentPart : List Char → Except Fault (Option (Bool × List Char) × List Char)
  | 'e' :: cs | 'E' :: cs => do
    let (negative, cs) := exponentSign cs
    let (ds, rest) ← digits cs
    return (some (negative, ds), rest)
  | cs => return (none, cs)

def sign : List Char → Bool × List Char
  | '-' :: cs => (true, cs)
  | cs => (false, cs)

/-- The longest number at the front of a text, and what follows it. -/
def read (cs : List Char) : Except Fault (Numeral × List Char) := do
  let (negative, cs) := sign cs
  let (whole, cs) ← wholePart cs
  let (fraction, cs) ← fractionPart cs
  let (exponent, cs) ← exponentPart cs
  return (⟨negative, whole, fraction, exponent⟩, cs)

/-! ## Progress -/

theorem length_digits_lt {cs ds rest : List Char} (h : digits cs = .ok (ds, rest)) :
    rest.length < cs.length := by
  have hs := congrArg List.length (List.takeWhile_append_dropWhile (p := Char.isDigit) (l := cs))
  simp only [digits] at h
  split at h
  · rename_i hne
    cases h
    have := List.length_pos_iff.mpr hne
    simp only [List.length_append] at hs
    omega
  · cases h

theorem length_sign_le (cs : List Char) : (sign cs).2.length ≤ cs.length := by
  unfold sign
  split <;> simp

theorem length_exponentSign_le (cs : List Char) : (exponentSign cs).2.length ≤ cs.length := by
  unfold exponentSign
  split <;> simp

theorem length_wholePart_lt {cs ds rest : List Char} (h : wholePart cs = .ok (ds, rest)) :
    rest.length < cs.length := by
  unfold wholePart at h
  cases hd : digits cs with
  | error f => simp [hd, bind, Except.bind] at h
  | ok r =>
    obtain ⟨ds', rest'⟩ := r
    simp only [hd, bind, Except.bind] at h
    split at h
    · cases h
    · cases h
      exact length_digits_lt hd

theorem length_fractionPart_le {cs rest : List Char} {ds : Option (List Char)}
    (h : fractionPart cs = .ok (ds, rest)) : rest.length ≤ cs.length := by
  unfold fractionPart at h
  split at h
  · rename_i cs
    cases hd : digits cs with
    | error f => simp [hd, bind, Except.bind] at h
    | ok r =>
      simp only [hd, bind, Except.bind, pure, Except.pure] at h
      cases h
      have := length_digits_lt hd
      simp only [List.length_cons]
      omega
  · cases h
    exact Nat.le_refl _

theorem length_exponentPart_le {cs rest : List Char} {e : Option (Bool × List Char)}
    (h : exponentPart cs = .ok (e, rest)) : rest.length ≤ cs.length := by
  have key : ∀ {cs : List Char}, (do
      let (ds, rest) ← digits (exponentSign cs).2
      return (some ((exponentSign cs).1, ds), rest)) = Except.ok (e, rest) →
      rest.length ≤ cs.length + 1 := by
    intro cs h
    cases hd : digits (exponentSign cs).2 with
    | error f => simp [hd, bind, Except.bind] at h
    | ok r =>
      simp only [hd, bind, Except.bind, pure, Except.pure] at h
      cases h
      have := length_digits_lt hd
      have := length_exponentSign_le cs
      omega
  unfold exponentPart at h
  split at h
  · exact key h
  · exact key h
  · cases h
    exact Nat.le_refl _

theorem length_read_lt {cs rest : List Char} {n : Numeral} (h : read cs = .ok (n, rest)) :
    rest.length < cs.length := by
  have hs := length_sign_le cs
  simp only [read, bind, Except.bind] at h
  split at h
  · cases h
  · rename_i w hw
    split at h
    · cases h
    · rename_i f hf
      split at h
      · cases h
      · rename_i e he
        cases h
        have := length_wholePart_lt hw
        have := length_fractionPart_le hf
        have := length_exponentPart_le he
        omega

end Numeral

end Tether.Json
