import Tether.Octets
import Tether.Proofs.Json.Writing

/-! # Spellings of strings and literals

Each character of a string has several spellings, a literal only one. Whatever spelling is chosen, the
token it is read as stands for what is spelled. -/

namespace Tether.Json

/-! ## Characters -/

/-- Letters and what they stand for behind a backslash. -/
def shortEscapes : List (Char × Char) :=
  [('"', '"'), ('\\', '\\'), ('/', '/'), ('b', '\x08'), ('f', '\x0c'), ('n', '\n'), ('r', '\r'),
    ('t', '\t')]

/-- A hexadecimal digit of either case. -/
def SpellsDigit (n : Nat) (c : Char) : Prop :=
  c = Octets.hexDigit n ∨ c = (Octets.hexDigit n).toUpper

/-- A code unit is spelled by four hexadecimal digits. -/
inductive SpellsUnit (n : Nat) : List Char → Prop
  | digits {a b c d : Char} (ha : SpellsDigit (n / 4096) a) (hb : SpellsDigit (n / 256 % 16) b)
      (hc : SpellsDigit (n / 16 % 16) c) (hd : SpellsDigit (n % 16) d) :
      SpellsUnit n ['\\', 'u', a, b, c, d]

def highSurrogate (c : Char) : Nat :=
  0xd800 + (c.toNat - 0x10000) / 0x400

def lowSurrogate (c : Char) : Nat :=
  0xdc00 + (c.toNat - 0x10000) % 0x400

/-- A character is spelled by itself, by a short escape, by its code unit, or by two surrogates. -/
inductive SpellsChar (c : Char) : List Char → Prop
  | raw (hquote : c ≠ '"') (hbackslash : c ≠ '\\') (hcontrol : 0x20 ≤ c.toNat) : SpellsChar c [c]
  | short {letter : Char} (h : (letter, c) ∈ shortEscapes) : SpellsChar c ['\\', letter]
  | unit {cs : List Char} (h : c.toNat < 0x10000) (hunit : SpellsUnit c.toNat cs) : SpellsChar c cs
  | pair {cs ds : List Char} (h : 0x10000 ≤ c.toNat) (hhigh : SpellsUnit (highSurrogate c) cs)
      (hlow : SpellsUnit (lowSurrogate c) ds) : SpellsChar c (cs ++ ds)

/-- The inside of a string: its characters one after another. -/
def SpellsText (s : String) (inside : List Char) : Prop :=
  ∃ texts, List.Forall₂ SpellsChar s.toList texts ∧ inside = texts.flatten

/-- A string with its quotes, and blanks around it. -/
def SpellsString (s : String) (cs : List Char) : Prop :=
  ∃ inside, SpellsText s inside ∧ Padded ('"' :: (inside ++ ['"'])) cs

theorem forall₂_spellsChar_plain {cs : List Char}
    (h : ∀ c ∈ cs, c ≠ '"' ∧ c ≠ '\\' ∧ 0x20 ≤ c.toNat) :
    List.Forall₂ SpellsChar cs (cs.map fun c => [c]) := by
  rw [List.forall₂_map_right_iff, List.forall₂_same]
  exact fun c hc => .raw (h c hc).1 (h c hc).2.1 (h c hc).2.2

/-- A string of characters that need no escape is spelled by itself. -/
theorem spellsString_plain {s : String}
    (h : ∀ c ∈ s.toList, c ≠ '"' ∧ c ≠ '\\' ∧ 0x20 ≤ c.toNat) :
    SpellsString s ('"' :: (s.toList ++ ['"'])) := by
  have hflatten : s.toList = (s.toList.map fun c => [c]).flatten := by
    rw [← List.flatMap_def, List.flatMap_singleton']
  exact ⟨s.toList, ⟨_, forall₂_spellsChar_plain h, hflatten⟩, padded_self _⟩

namespace Quoted

theorem unescape?_of_mem {letter c : Char} (h : (letter, c) ∈ shortEscapes) :
    unescape? letter = some c := by
  have hall : ∀ e ∈ shortEscapes, unescape? e.1 = some e.2 := by decide
  exact hall _ h

theorem hexValue?_of_spellsDigit {n : Nat} {c : Char} (hn : n < 16) (h : SpellsDigit n c) :
    hexValue? c = some n := by
  have hlower : ∀ n < 16, hexValue? (Octets.hexDigit n) = some n := by decide
  have hupper : ∀ n < 16, hexValue? (Octets.hexDigit n).toUpper = some n := by decide
  rcases h with rfl | rfl
  · exact hlower n hn
  · exact hupper n hn

/-- The pieces that a text in front of any other is read as. -/
def ReadsAs (cs : List Char) (pieces : List Piece) : Prop :=
  ∀ rest, read (cs ++ rest) = pieces.foldr withPiece (read rest)

theorem ReadsAs.append {cs ds : List Char} {ps qs : List Piece} (hcs : ReadsAs cs ps)
    (hds : ReadsAs ds qs) : ReadsAs (cs ++ ds) (ps ++ qs) := by
  intro rest
  rw [List.append_assoc, hcs, hds, List.foldr_append]

theorem readsAs_unit {n : Nat} (hn : n < 0x10000) {cs : List Char} (h : SpellsUnit n cs) :
    ReadsAs cs [.unit n] := by
  cases h with
  | @digits a b c d ha hb hc hd =>
      intro rest
      have hunit : unit? a b c d = some n := by
        rw [unit?, hexValue?_of_spellsDigit (by omega) ha, hexValue?_of_spellsDigit (by omega) hb,
          hexValue?_of_spellsDigit (by omega) hc, hexValue?_of_spellsDigit (by omega) hd]
        simp only [Option.pure_def, Option.bind_eq_bind, Option.bind_some, Option.some.injEq]
        omega
      exact read_unit rest hunit

/-- No character is a surrogate by itself. -/
theorem toNat_bounds (c : Char) : c.toNat < 0xd800 ∨ 0xdfff < c.toNat ∧ c.toNat < 0x110000 :=
  c.valid

theorem highSurrogate_lt (c : Char) : highSurrogate c < 0x10000 := by
  have hvalid := toNat_bounds c
  rw [highSurrogate]
  omega

theorem lowSurrogate_lt (c : Char) : lowSurrogate c < 0x10000 := by
  rw [lowSurrogate]
  omega

theorem isHighSurrogate_iff {n : Nat} : isHighSurrogate n ↔ 0xd800 ≤ n ∧ n < 0xdc00 := by
  simp [isHighSurrogate]

theorem isLowSurrogate_iff {n : Nat} : isLowSurrogate n ↔ 0xdc00 ≤ n ∧ n < 0xe000 := by
  simp [isLowSurrogate]

theorem chars_unit (c : Char) (more : List Piece) :
    chars none (.unit c.toNat :: more) = (chars none more).map (c :: ·) := by
  have hvalid := toNat_bounds c
  have hhigh : isHighSurrogate c.toNat = false := by
    rw [Bool.eq_false_iff, Ne, isHighSurrogate_iff]
    omega
  have hlow : isLowSurrogate c.toNat = false := by
    rw [Bool.eq_false_iff, Ne, isLowSurrogate_iff]
    omega
  rw [chars.eq_def]
  dsimp only
  rw [hhigh, hlow, if_neg Bool.false_ne_true, if_neg Bool.false_ne_true, Char.ofNat_toNat]
  rfl

theorem chars_pair {c : Char} (h : 0x10000 ≤ c.toNat) (more : List Piece) :
    chars none (.unit (highSurrogate c) :: .unit (lowSurrogate c) :: more) =
      (chars none more).map (c :: ·) := by
  have hvalid := toNat_bounds c
  have hhigh : isHighSurrogate (highSurrogate c) := by
    rw [isHighSurrogate_iff, highSurrogate]
    omega
  have hlow : isLowSurrogate (lowSurrogate c) := by
    rw [isLowSurrogate_iff, lowSurrogate]
    omega
  have hpair : pairChar (highSurrogate c) (lowSurrogate c) = c := by
    have hsum : 0x10000 + (highSurrogate c - 0xd800) * 0x400 + (lowSurrogate c - 0xdc00) =
        c.toNat := by
      rw [highSurrogate, lowSurrogate]
      omega
    rw [pairChar, hsum, Char.ofNat_toNat]
  rw [chars, if_pos hhigh, if_pos hlow, hpair]
  rfl

/-- Every spelling of a character is read as pieces that stand for it. -/
theorem exists_readsAs {c : Char} {cs : List Char} (h : SpellsChar c cs) :
    ∃ pieces, ReadsAs cs pieces ∧
      ∀ more, chars none (pieces ++ more) = (chars none more).map (c :: ·) := by
  cases h with
  | raw hquote hbackslash hcontrol =>
      exact ⟨[.plain c], fun rest => read_plain rest hquote hbackslash hcontrol, fun more => rfl⟩
  | short hletter =>
      exact ⟨[.plain c], fun rest => read_escape rest (unescape?_of_mem hletter), fun more => rfl⟩
  | unit hsmall hunit => exact ⟨[.unit c.toNat], readsAs_unit hsmall hunit, chars_unit c⟩
  | pair hlarge hhigh hlow =>
      exact ⟨[.unit (highSurrogate c), .unit (lowSurrogate c)],
        (readsAs_unit (highSurrogate_lt c) hhigh).append (readsAs_unit (lowSurrogate_lt c) hlow),
        chars_pair hlarge⟩

/-- Every spelling of characters is read as pieces that stand for them. -/
theorem exists_readsAs_flatten {cs : List Char} {texts : List (List Char)}
    (h : List.Forall₂ SpellsChar cs texts) :
    ∃ pieces, ReadsAs texts.flatten pieces ∧ chars none pieces = .ok cs := by
  induction h with
  | nil => exact ⟨[], fun _ => rfl, rfl⟩
  | cons hc _ ih =>
      obtain ⟨ps, hps, hchar⟩ := exists_readsAs hc
      obtain ⟨qs, hqs, hchars⟩ := ih
      refine ⟨ps ++ qs, hps.append hqs, ?_⟩
      rw [hchar, hchars]
      rfl

theorem foldr_withPiece (pieces qs : List Piece) (fault : Option Fault) (rest : List Char) :
    pieces.foldr withPiece (⟨qs, fault⟩, rest) = (⟨pieces ++ qs, fault⟩, rest) := by
  induction pieces with
  | nil => rfl
  | cons p pieces ih =>
      rw [List.foldr_cons, ih]
      rfl

/-- The inside of a string is read up to the closing quote. -/
theorem ReadsAs.read_quote {inside : List Char} {pieces : List Piece} (h : ReadsAs inside pieces)
    (rest : List Char) : read (inside ++ '"' :: rest) = (⟨pieces, none⟩, rest) := by
  rw [h, Quoted.read_quote, foldr_withPiece, List.append_nil]

end Quoted

/-- Between quotes, pieces are a string. -/
theorem writes_quoted {inside cs : List Char} {pieces : List Piece}
    (h : Quoted.ReadsAs inside pieces) (hcs : Padded ('"' :: (inside ++ ['"'])) cs) :
    Writes cs (.text ⟨pieces, none⟩) := by
  have hnext : Token.next '"' (inside ++ ['"']) = (.text ⟨pieces, none⟩, []) := by
    simp only [Token.next, h.read_quote]
  exact Writes.padded ⟨Token.ofChars_last rfl hnext, rfl⟩ hcs

theorem exists_writes_string {s : String} {cs : List Char} (h : SpellsString s cs) :
    ∃ q, Writes cs (.text q) ∧ q.text = .ok s := by
  obtain ⟨_, ⟨texts, htexts, rfl⟩, hpadded⟩ := h
  obtain ⟨pieces, hpieces, hchars⟩ := Quoted.exists_readsAs_flatten htexts
  exact ⟨⟨pieces, none⟩, writes_quoted hpieces hpadded, Quoted.text_eq_ok.mpr hchars⟩

/-! ## Literals -/

theorem writes_null : Writes ['n', 'u', 'l', 'l'] .null :=
  ⟨Token.ofChars_last rfl rfl, rfl⟩

theorem writes_bool (b : Bool) : Writes (toString b).toList (.bool b) := by
  cases b with
  | false => exact ⟨Token.ofChars_last rfl rfl, rfl⟩
  | true => exact ⟨Token.ofChars_last rfl rfl, rfl⟩

end Tether.Json
