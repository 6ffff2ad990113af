import Tether.Json.Token

/-! # Texts cut into tokens

A text without faults is cut into the same tokens whatever follows it, as long as no number in it goes
on into what follows. -/

namespace Tether

/-- Of two steps, the second is taken if the first succeeds. -/
theorem bind_eq_ok {ε α β : Type} {x : Except ε α} {f : α → Except ε β} {b : β} :
    x >>= f = .ok b ↔ ∃ a, x = .ok a ∧ f a = .ok b := by
  cases x <;> simp [bind, Except.bind]

namespace Json

/-- A rest of a text that no number in front of it goes on into. -/
def NumberEnds (rest : List Char) : Prop :=
  ∀ c ∈ rest.head?, c.isDigit = false ∧ c ≠ '.' ∧ c ≠ 'e' ∧ c ≠ 'E'

theorem numberEnds_nil : NumberEnds [] := by
  simp [NumberEnds]

theorem numberEnds_cons {c : Char} {cs : List Char} :
    NumberEnds (c :: cs) ↔ c.isDigit = false ∧ c ≠ '.' ∧ c ≠ 'e' ∧ c ≠ 'E' := by
  simp [NumberEnds]

variable {rest : List Char}

/-! ## Numbers -/

namespace Numeral

theorem fractionPart_of_head? {cs : List Char} (h : ∀ c ∈ cs.head?, c ≠ '.') :
    fractionPart cs = .ok (none, cs) := by
  unfold fractionPart
  split
  · simp at h
  · rfl

theorem exponentPart_of_head? {cs : List Char} (h : ∀ c ∈ cs.head?, c ≠ 'e' ∧ c ≠ 'E') :
    exponentPart cs = .ok (none, cs) := by
  unfold exponentPart
  split
  · simp at h
  · simp at h
  · rfl

theorem exponentPart_mark {c : Char} (h : c = 'e' ∨ c = 'E') (cs : List Char) :
    exponentPart (c :: cs) = (digits (exponentSign cs).2).bind fun (ds, r) =>
      .ok (some ((exponentSign cs).1, ds), r) := by
  rcases h with rfl | rfl <;> rfl

/-- A number is its sign and three parts, each read from what the one before leaves. -/
theorem read_eq_ok {cs r : List Char} {n : Numeral} : read cs = .ok (n, r) ↔ ∃ r₁ r₂,
    n.negative = (sign cs).1 ∧ wholePart (sign cs).2 = .ok (n.whole, r₁) ∧
    fractionPart r₁ = .ok (n.fraction, r₂) ∧ exponentPart r₂ = .ok (n.exponent, r) := by
  constructor
  · intro h
    obtain ⟨⟨whole, r₁⟩, hwhole, h⟩ := bind_eq_ok.mp h
    obtain ⟨⟨fraction, r₂⟩, hfraction, h⟩ := bind_eq_ok.mp h
    obtain ⟨⟨exponent, r₃⟩, hexponent, h⟩ := bind_eq_ok.mp h
    cases h
    exact ⟨r₁, r₂, rfl, hwhole, hfraction, hexponent⟩
  · rintro ⟨r₁, r₂, hsign, hwhole, hfraction, hexponent⟩
    refine bind_eq_ok.mpr ⟨(n.whole, r₁), hwhole, bind_eq_ok.mpr ⟨(n.fraction, r₂), hfraction,
      bind_eq_ok.mpr ⟨(n.exponent, r), hexponent, ?_⟩⟩⟩
    change Except.ok (Numeral.mk (sign cs).1 n.whole n.fraction n.exponent, r) = .ok (n, r)
    rw [← hsign]

/-- A sign is read off a text with digits behind it. -/
theorem exponentSign_append {cs ds r : List Char} (h : digits (exponentSign cs).2 = .ok (ds, r)) :
    exponentSign (cs ++ rest) = ((exponentSign cs).1, (exponentSign cs).2 ++ rest) := by
  cases cs with
  | nil => cases h
  | cons c cs =>
      rw [List.cons_append]
      unfold exponentSign
      split <;> simp_all

theorem sign_append {cs ds r : List Char} (h : wholePart (sign cs).2 = .ok (ds, r)) :
    sign (cs ++ rest) = ((sign cs).1, (sign cs).2 ++ rest) := by
  cases cs with
  | nil => cases h
  | cons c cs =>
      rw [List.cons_append]
      unfold sign
      split <;> simp_all

section

variable (hrest : NumberEnds rest)

include hrest

theorem takeWhile_isDigit_append (cs : List Char) :
    (cs ++ rest).takeWhile Char.isDigit = cs.takeWhile Char.isDigit ∧
      (cs ++ rest).dropWhile Char.isDigit = cs.dropWhile Char.isDigit ++ rest := by
  induction cs with
  | nil =>
      cases rest with
      | nil => exact ⟨rfl, rfl⟩
      | cons c cs => simp [(numberEnds_cons.mp hrest).1]
  | cons c cs ih =>
      by_cases hc : c.isDigit
      · simpa [hc] using ih
      · simp [hc]

theorem digits_append {cs ds r : List Char} (h : digits cs = .ok (ds, r)) :
    digits (cs ++ rest) = .ok (ds, r ++ rest) := by
  obtain ⟨htake, hdrop⟩ := takeWhile_isDigit_append hrest cs
  unfold digits at h ⊢
  rw [htake, hdrop]
  dsimp only at h ⊢
  split at h
  · rename_i hne
    cases h
    rw [if_pos hne]
  · cases h

theorem wholePart_append {cs ds r : List Char} (h : wholePart cs = .ok (ds, r)) :
    wholePart (cs ++ rest) = .ok (ds, r ++ rest) := by
  obtain ⟨⟨ds', r'⟩, hdigits, h⟩ := bind_eq_ok.mp h
  refine bind_eq_ok.mpr ⟨_, digits_append hrest hdigits, ?_⟩
  dsimp only at h ⊢
  split at h
  · cases h
  · cases h
    rfl

/-- What does not start a rest of a number, starts none in front of the rest of the text. -/
theorem forall_head?_append {P : Char → Prop} {cs : List Char} (h : ∀ c ∈ cs.head?, P c)
    (hP : ∀ c, c.isDigit = false ∧ c ≠ '.' ∧ c ≠ 'e' ∧ c ≠ 'E' → P c) :
    ∀ c ∈ (cs ++ rest).head?, P c := by
  intro c hc
  cases cs with
  | nil => exact hP c (hrest c hc)
  | cons d ds => exact h c hc

theorem fractionPart_append {cs r : List Char} {ds : Option (List Char)}
    (h : fractionPart cs = .ok (ds, r)) : fractionPart (cs ++ rest) = .ok (ds, r ++ rest) := by
  by_cases hpoint : ∀ c ∈ cs.head?, c ≠ '.'
  · rw [fractionPart_of_head? hpoint] at h
    cases h
    exact fractionPart_of_head? (forall_head?_append hrest hpoint fun c hc => hc.2.1)
  · obtain ⟨cs, rfl⟩ : ∃ after, cs = '.' :: after := by
      cases cs <;> simp_all
    obtain ⟨⟨ds', r'⟩, hdigits, h⟩ := bind_eq_ok.mp h
    cases h
    exact bind_eq_ok.mpr ⟨_, digits_append hrest hdigits, rfl⟩

theorem exponentPart_append {cs r : List Char} {e : Option (Bool × List Char)}
    (h : exponentPart cs = .ok (e, r)) : exponentPart (cs ++ rest) = .ok (e, r ++ rest) := by
  by_cases hmark : ∀ c ∈ cs.head?, c ≠ 'e' ∧ c ≠ 'E'
  · rw [exponentPart_of_head? hmark] at h
    cases h
    exact exponentPart_of_head? (forall_head?_append hrest hmark fun c hc => hc.2.2)
  · obtain ⟨c, cs, rfl, hc⟩ : ∃ c after, cs = c :: after ∧ (c = 'e' ∨ c = 'E') := by
      cases cs <;> simp_all
      grind
    rw [exponentPart_mark hc] at h
    rw [List.cons_append, exponentPart_mark hc]
    obtain ⟨⟨ds, r'⟩, hdigits, h⟩ := bind_eq_ok.mp h
    cases h
    rw [exponentSign_append hdigits]
    exact bind_eq_ok.mpr ⟨_, digits_append hrest hdigits, rfl⟩

theorem read_append {cs r : List Char} {n : Numeral} (h : read cs = .ok (n, r)) :
    read (cs ++ rest) = .ok (n, r ++ rest) := by
  obtain ⟨r₁, r₂, hsign, hwhole, hfraction, hexponent⟩ := read_eq_ok.mp h
  have hfront : sign (cs ++ rest) = ((sign cs).1, (sign cs).2 ++ rest) := sign_append hwhole
  refine read_eq_ok.mpr ⟨r₁ ++ rest, r₂ ++ rest, ?_, ?_, fractionPart_append hrest hfraction,
    exponentPart_append hrest hexponent⟩
  · rw [hfront, hsign]
  · rw [hfront]
    exact wholePart_append hrest hwhole

end

end Numeral

/-! ## Strings -/

namespace Quoted

section

variable {c : Char} (cs : List Char)

theorem read_quote : read ('"' :: cs) = (⟨[], none⟩, cs) := by
  rw [read]

theorem read_unit {a b c d : Char} {n : Nat} (h : unit? a b c d = some n) :
    read ('\\' :: 'u' :: a :: b :: c :: d :: cs) = withPiece (.unit n) (read cs) := by
  rw [read, h]

theorem read_escape {letter : Char} (h : unescape? letter = some c) :
    read ('\\' :: letter :: cs) = withPiece (.plain c) (read cs) := by
  have hu : letter ≠ 'u' := by
    rintro rfl
    cases h
  rw [read, h]
  all_goals simp_all

theorem read_plain (hquote : c ≠ '"') (hbackslash : c ≠ '\\') (hcontrol : 0x20 ≤ c.toNat) :
    read (c :: cs) = withPiece (.plain c) (read cs) := by
  rw [read, if_neg (Nat.not_lt.mpr hcontrol)]
  all_goals simp_all

end

/-- A string that is closed is read up to its closing quote, whatever follows it. -/
theorem read_append {cs : List Char} (h : (read cs).1.fault = none) :
    read (cs ++ rest) = ((read cs).1, (read cs).2 ++ rest) := by
  fun_induction read cs with
  | case2 cs => exact read_quote _
  | case3 a b c d cs n hunit ih =>
      simp only [List.cons_append]
      rw [read_unit _ hunit, ih h]
      rfl
  | case6 letter cs _ _ c hletter ih =>
      simp only [List.cons_append]
      rw [read_escape _ hletter, ih h]
      rfl
  | case10 c cs hquote _ _ hletter halone hcontrol ih =>
      have hbackslash : c ≠ '\\' := by
        rintro rfl
        cases cs with
        | nil => exact halone rfl rfl
        | cons d ds => exact hletter d ds rfl rfl
      rw [List.cons_append, read_plain _ hquote hbackslash (Nat.le_of_not_lt hcontrol), ih h]
      rfl
  | _ => cases h

end Quoted

/-! ## Tokens -/

namespace Token

/-- A token without a fault. -/
def isWhole : Token → Bool
  | .text q => q.fault.isNone
  | .cutNumber | .broken _ => false
  | _ => true

theorem literal_append {whole : Token} {es cs : List Char} (h : (literal whole es cs).1.isWhole) :
    literal whole es (cs ++ rest) =
      ((literal whole es cs).1, (literal whole es cs).2 ++ rest) := by
  fun_induction literal whole es cs with
  | case1 cs => rfl
  | case2 => cases h
  | case3 es c cs ih =>
      rw [List.cons_append, literal, if_pos rfl]
      exact ih h
  | case4 => cases h

theorem numeral_append (hrest : NumberEnds rest) {cs : List Char} (h : (numeral cs).1.isWhole) :
    numeral (cs ++ rest) = ((numeral cs).1, (numeral cs).2 ++ rest) := by
  cases hread : Numeral.read cs with
  | ok r => simp only [numeral, hread, Numeral.read_append hrest hread]
  | error f => cases f <;> simp [numeral, hread, isWhole] at h

/-- What starts a number starts nothing else. -/
theorem next_numeral {c : Char} (h : c = '-' ∨ c.isDigit) (cs : List Char) :
    next c cs = numeral (c :: cs) := by
  unfold next
  split <;> simp_all

theorem next_append (hrest : NumberEnds rest) {c : Char} {cs : List Char}
    (h : (next c cs).1.isWhole) :
    next c (cs ++ rest) = ((next c cs).1, (next c cs).2 ++ rest) := by
  by_cases hnumber : c = '-' ∨ c.isDigit
  · rw [next_numeral hnumber] at h ⊢
    rw [next_numeral hnumber]
    exact numeral_append hrest h
  · unfold next at h
    split at h
    case h_7 => exact literal_append h
    case h_8 => exact literal_append h
    case h_9 => exact literal_append h
    case h_10 =>
      have hfault : (Quoted.read cs).1.fault = none := Option.isNone_iff_eq_none.mp h
      simp only [next, Quoted.read_append hfault]
    case h_11 =>
      rw [if_neg hnumber] at h
      cases h
    all_goals rfl

section

variable {c : Char} {cs : List Char}

@[simp] theorem ofChars_nil : ofChars [] = [] := by
  rw [ofChars]

theorem ofChars_blank (h : isBlank c) : ofChars (c :: cs) = ofChars cs := by
  rw [ofChars, if_pos h]

theorem ofChars_next (h : isBlank c = false) :
    ofChars (c :: cs) = (next c cs).1 :: ofChars (next c cs).2 := by
  rw [ofChars, if_neg (Bool.not_eq_true _ ▸ h)]

theorem ofChars_last {t : Token} (h : isBlank c = false) (hnext : next c cs = (t, [])) :
    ofChars (c :: cs) = [t] := by
  rw [ofChars_next h, hnext, ofChars_nil]

end

/-- Two texts one after the other have the tokens of the first and then those of the second. -/
theorem ofChars_append (hrest : NumberEnds rest) {cs : List Char}
    (h : ∀ t ∈ ofChars cs, t.isWhole) : ofChars (cs ++ rest) = ofChars cs ++ ofChars rest := by
  induction cs using ofChars.induct with
  | case1 => rw [ofChars_nil, List.nil_append, List.nil_append]
  | case2 c cs hblank ih =>
      rw [ofChars_blank hblank] at h ⊢
      rw [List.cons_append, ofChars_blank hblank, ih h]
  | case3 c cs hblank r ih =>
      rw [Bool.not_eq_true] at hblank
      rw [ofChars_next hblank, List.forall_mem_cons] at h
      rw [List.cons_append, ofChars_next hblank, ofChars_next hblank, next_append hrest h.1, ih h.2,
        List.cons_append]

end Token

end Json

end Tether
