import Tether.Proofs.Json.Writing
import Tether.Proofs.Number.Decimal

/-! # Texts of numbers

The grammar of numbers by itself, with no regard to how large a number is. Every text of the grammar is
read to its end, and what is printed for an integer is read as that integer. -/

namespace Tether.Json

/-! ## Grammar -/

/-- One zero, or digits of which the first is not zero. -/
def WholeText (cs : List Char) : Prop :=
  AreDigits cs ∧ (cs.head? = some '0' → cs = ['0'])

inductive FractionText : List Char → Prop
  | none : FractionText []
  | some {digits : List Char} (h : AreDigits digits) : FractionText ('.' :: digits)

inductive ExponentText : List Char → Prop
  | none : ExponentText []
  | some {mark : Char} {sign digits : List Char} (hmark : mark = 'e' ∨ mark = 'E')
      (hsign : sign = [] ∨ sign = ['+'] ∨ sign = ['-']) (h : AreDigits digits) :
      ExponentText (mark :: (sign ++ digits))

inductive NumberText : List Char → Prop
  | parts {sign whole fraction exponent : List Char} (hsign : sign = [] ∨ sign = ['-'])
      (hwhole : WholeText whole) (hfraction : FractionText fraction)
      (hexponent : ExponentText exponent) :
      NumberText (sign ++ (whole ++ (fraction ++ exponent)))

/-! ## Reading numbers -/

namespace Numeral

variable {rest : List Char}

theorem digits_append_of_areDigits {ds : List Char} (h : AreDigits ds)
    (hrest : ∀ c ∈ rest.head?, c.isDigit = false) : digits (ds ++ rest) = .ok (ds, rest) := by
  have hds : ∀ c ∈ ds, c.isDigit := fun c hc => (isDigit_iff c).mpr (h.2 c hc)
  have hend : rest.takeWhile Char.isDigit = [] ∧ rest.dropWhile Char.isDigit = rest := by
    cases rest with
    | nil => exact ⟨rfl, rfl⟩
    | cons c cs => simp [hrest c rfl]
  rw [digits, List.takeWhile_append_of_pos hds, List.dropWhile_append_of_pos hds, hend.1, hend.2,
    List.append_nil]
  exact if_pos h.1

theorem wholePart_append_of_wholeText {whole : List Char} (h : WholeText whole)
    (hrest : ∀ c ∈ rest.head?, c.isDigit = false) :
    wholePart (whole ++ rest) = .ok (whole, rest) := by
  refine bind_eq_ok.mpr ⟨_, digits_append_of_areDigits h.1 hrest, ?_⟩
  dsimp only
  split
  · rename_i c ds
    cases h.2 rfl
  · rfl

/-- Digits have no sign before them. -/
theorem exponentSign_of_areDigits {ds : List Char} (h : AreDigits ds) :
    exponentSign ds = (false, ds) := by
  unfold exponentSign
  split
  · exact absurd h (not_areDigits_sign (.inr rfl) _)
  · exact absurd h (not_areDigits_sign (.inl rfl) _)
  · rfl

theorem sign_append_of_areDigits {ds : List Char} (h : AreDigits ds) :
    sign (ds ++ rest) = (false, ds ++ rest) := by
  cases ds with
  | nil => exact absurd rfl h.1
  | cons c ds =>
      have hminus : c ≠ '-' := by
        rintro rfl
        exact not_areDigits_sign (.inr rfl) ds h
      simp [sign, hminus]

theorem exists_exponentPart {exponent : List Char} (h : ExponentText exponent) :
    ∃ e, exponentPart exponent = .ok (e, []) := by
  cases h with
  | none => exact ⟨none, rfl⟩
  | @some mark sign ds hmark hsign hdigits =>
      have hread : digits (ds ++ []) = .ok (ds, []) := digits_append_of_areDigits hdigits (by simp)
      rw [List.append_nil] at hread
      have hfront : (exponentSign (sign ++ ds)).2 = ds := by
        rcases hsign with rfl | rfl | rfl
        · rw [List.nil_append, exponentSign_of_areDigits hdigits]
        · rfl
        · rfl
      refine ⟨some ((exponentSign (sign ++ ds)).1, ds), ?_⟩
      rw [exponentPart_mark hmark, hfront, hread]
      rfl

theorem exists_fractionPart {fraction exponent : List Char} (hfraction : FractionText fraction)
    (hexponent : ExponentText exponent) :
    ∃ f, fractionPart (fraction ++ exponent) = .ok (f, exponent) := by
  have hend : ∀ c ∈ exponent.head?, c.isDigit = false ∧ c ≠ '.' := by
    cases hexponent with
    | none => simp
    | some hmark => rcases hmark with rfl | rfl <;> simp
  cases hfraction with
  | none => exact ⟨none, fractionPart_of_head? fun c hc => (hend c hc).2⟩
  | some hdigits =>
      exact ⟨some _, bind_eq_ok.mpr
        ⟨_, digits_append_of_areDigits hdigits fun c hc => (hend c hc).1, rfl⟩⟩

/-- A number of the grammar is read to its end. -/
theorem exists_read {cs : List Char} (h : NumberText cs) : ∃ n, read cs = .ok (n, []) := by
  cases h with
  | @parts before whole fraction exponent hsign hwhole hfraction hexponent =>
      obtain ⟨f, hf⟩ := exists_fractionPart hfraction hexponent
      obtain ⟨e, he⟩ := exists_exponentPart hexponent
      have hend : ∀ c ∈ (fraction ++ exponent).head?, c.isDigit = false := by
        cases hfraction with
        | some => simp
        | none =>
            cases hexponent with
            | none => simp
            | some hmark => rcases hmark with rfl | rfl <;> simp
      have hfront : (sign (before ++ (whole ++ (fraction ++ exponent)))).2 =
          whole ++ (fraction ++ exponent) := by
        rcases hsign with rfl | rfl
        · rw [List.nil_append, sign_append_of_areDigits hwhole.1]
        · rfl
      refine ⟨⟨_, whole, f, e⟩, read_eq_ok.mpr ⟨fraction ++ exponent, exponent, rfl, ?_, hf, he⟩⟩
      rw [hfront]
      exact wholePart_append_of_wholeText hwhole hend

theorem head?_of_numberText {cs : List Char} (h : NumberText cs) :
    ∀ c ∈ cs.head?, c = '-' ∨ c.isDigit := by
  cases h with
  | @parts before whole fraction exponent hsign hwhole hfraction hexponent =>
      rcases hsign with rfl | rfl
      · cases whole with
        | nil => exact absurd rfl hwhole.1.1
        | cons c whole => simp [(isDigit_iff c).mpr (hwhole.1.2 c List.mem_cons_self)]
      · simp

end Numeral

/-- A text that starts like a number is that number. -/
theorem ofChars_of_read {cs : List Char} {n : Numeral} (h : Numeral.read cs = .ok (n, []))
    (hhead : ∀ c ∈ cs.head?, c = '-' ∨ c.isDigit) : Token.ofChars cs = [.number n] := by
  cases cs with
  | nil => cases h
  | cons c cs =>
      have hc : c = '-' ∨ c.isDigit := hhead c rfl
      have hblank : Token.isBlank c = false := by
        rw [Bool.eq_false_iff]
        intro hblank
        simp only [Token.isBlank, Bool.or_eq_true, beq_iff_eq] at hblank
        rcases hblank with ((rfl | rfl) | rfl) | rfl <;> exact absurd hc (by decide)
      have hnext : Token.next c cs = (.number n, []) := by
        rw [Token.next_numeral hc, Token.numeral, h]
      exact Token.ofChars_last hblank hnext

/-- Every text of the grammar writes a number. -/
theorem exists_writes_number {core cs : List Char} (hcore : NumberText core) (h : Padded core cs) :
    ∃ n, Writes cs (.number n) := by
  obtain ⟨n, hn⟩ := Numeral.exists_read hcore
  have htokens := ofChars_of_read hn (Numeral.head?_of_numberText hcore)
  exact ⟨n, Writes.padded ⟨htokens, rfl⟩ h⟩

/-! ## Printed integers -/

namespace Numeral

/-- Only the number zero starts with a zero. -/
theorem eq_zero_of_head? {k : Nat} (h : (Nat.toDigits 10 k).head? = some '0') : k = 0 := by
  induction k using Nat.strongRecOn with
  | ind k ih =>
      rw [Nat.toDigits_eq_if (by decide)] at h
      split at h
      · simpa using h
      · -- a longer number starts like the one without its last digit
        rename_i hlarge
        rw [List.head?_append_of_ne_nil _ Nat.toDigits_ne_nil] at h
        have hzero := ih (k / 10) (by omega) h
        omega

theorem wholeText_toDigits (k : Nat) : WholeText (Nat.toDigits 10 k) := by
  refine ⟨areDigits_toDigits k, fun h => ?_⟩
  rw [eq_zero_of_head? h]
  rfl

/-- The spelling of an integer. -/
def ofInt (n : Int) : Numeral :=
  ⟨n < 0, Nat.toDigits 10 n.natAbs, none, none⟩

theorem read_toString (n : Int) : read (toString n).toList = .ok (ofInt n, []) := by
  have hdigits : sign (Nat.toDigits 10 n.natAbs) = (false, Nat.toDigits 10 n.natAbs) := by
    simpa using @sign_append_of_areDigits [] _ (areDigits_toDigits n.natAbs)
  have hwhole : wholePart (Nat.toDigits 10 n.natAbs) = .ok (Nat.toDigits 10 n.natAbs, []) := by
    simpa using @wholePart_append_of_wholeText [] _ (wholeText_toDigits n.natAbs) (by simp)
  have hsign : sign (toString n).toList = (decide (n < 0), Nat.toDigits 10 n.natAbs) := by
    rw [toList_toString]
    split
    · rename_i hn
      rw [hdigits, decide_eq_false (Int.not_lt.mpr hn)]
    · rename_i hn
      rw [sign, decide_eq_true (Int.not_le.mp hn)]
  refine read_eq_ok.mpr ⟨[], [], ?_, ?_, fractionPart_of_head? (by simp),
    exponentPart_of_head? (by simp)⟩
  · rw [hsign, ofInt]
  · rw [hsign, hwhole, ofInt]

end Numeral

theorem numberText_toString (n : Int) : NumberText (toString n).toList := by
  have hwhole := Numeral.wholeText_toDigits n.natAbs
  rw [toList_toString]
  split
  · simpa using NumberText.parts (.inl rfl) hwhole .none .none
  · simpa using NumberText.parts (.inr rfl) hwhole .none .none

theorem writes_integer {n : Int} {cs : List Char} (h : Padded (toString n).toList cs) :
    Writes cs (.number (.ofInt n)) := by
  have hhead := Numeral.head?_of_numberText (numberText_toString n)
  exact Writes.padded ⟨ofChars_of_read (Numeral.read_toString n) hhead, rfl⟩ h

/-! ## Converted integers -/

namespace Number

theorem asInt64?_natural {k : Nat} (h : k < 0x8000000000000000) :
    (natural (.ofNat k)).asInt64? = some (.ofNat k) := by
  have hk : UInt64.ofNat k < 0x8000000000000000 := by
    have hsize : UInt64.size = 0x10000000000000000 := rfl
    rw [UInt64.lt_iff_toNat_lt, UInt64.toNat_ofNat_of_lt' (by omega)]
    exact h
  rw [asInt64?, if_pos hk, UInt64.toInt64_ofNat']

theorem ofNegated_ofNat {k : Nat} (hpos : 0 < k) (h : k ≤ 0x8000000000000000) :
    ofNegated (.ofNat k) = .negative (.ofInt (-k)) := by
  have hneg : ¬ 0 ≤ -Int64.ofNat k := by
    rw [Int64.le_iff_toInt_le, Int64.toInt_neg_ofNat_of_le h]
    change ¬ (0 : Int) ≤ -k
    omega
  rw [ofNegated, UInt64.toInt64_ofNat', if_neg hneg, Int64.neg_ofNat]

end Number

namespace Numeral

theorem le_ofDigitChars (ds : List Char) (k : Nat) : k ≤ Nat.ofDigitChars 10 ds k := by
  rw [Nat.ofDigitChars_eq_ofDigitChars_zero]
  have hpower : 0 < 10 ^ ds.length := Nat.pow_pos (by decide)
  have hshifted : k ≤ 10 ^ ds.length * k := Nat.le_mul_of_pos_left k hpower
  omega

/-- Digits are read to their end if their number fits 64 bits. -/
theorem gather_of_lt {k : Nat} {ds : List Char}
    (h : Nat.ofDigitChars 10 ds k < 0x10000000000000000) :
    gather k ds = (Nat.ofDigitChars 10 ds k, []) := by
  induction ds generalizing k with
  | nil => rw [gather, Nat.ofDigitChars_nil]
  | cons c ds ih =>
      rw [Nat.ofDigitChars_cons] at h ⊢
      have hnext := le_ofDigitChars ds (10 * k + (c.toNat - '0'.toNat))
      rw [gather, if_pos (Nat.lt_of_le_of_lt hnext h), ih h]

/-- The spelling of an integer of 64 bits stands for that integer. -/
theorem exists_toNumber_ofInt (n : Int64) :
    ∃ x, (ofInt n.toInt).toNumber = .ok x ∧ x.asInt64? = some n := by
  have hlo := n.le_toInt
  have hhi := n.toInt_lt
  have hdigits : gather 0 (ofInt n.toInt).whole = (n.toInt.natAbs, []) := by
    have h := @gather_of_lt 0 (Nat.toDigits 10 n.toInt.natAbs)
    rw [Nat.ofDigitChars_ten_toDigits] at h
    exact h (by omega)
  rw [toNumber, hdigits]
  by_cases hneg : n.toInt < 0
  · have hn : Int64.ofInt (-(n.toInt.natAbs : Int)) = n := by
      rw [show -(n.toInt.natAbs : Int) = n.toInt by omega, Int64.ofInt_toInt]
    refine ⟨.negative n, ?_, rfl⟩
    dsimp only
    rw [if_pos ⟨rfl, rfl⟩, ofInt, if_pos (decide_eq_true hneg),
      Number.ofNegated_ofNat (by omega) (by omega), hn]
  · have hn : Int64.ofNat n.toInt.natAbs = n := by
      rw [← Int64.ofInt_eq_ofNat, show (n.toInt.natAbs : Int) = n.toInt by omega, Int64.ofInt_toInt]
    have hvalue := Number.asInt64?_natural (show n.toInt.natAbs < 0x8000000000000000 by omega)
    rw [hn] at hvalue
    refine ⟨_, ?_, hvalue⟩
    dsimp only
    rw [if_pos ⟨rfl, rfl⟩, ofInt, if_neg (by simpa using hneg)]

end Numeral

end Tether.Json
