import Tether.Proofs.Json.Numbers
import Tether.Proofs.Json.Spelling

/-! # Well-formed texts

The grammar of JSON texts by itself, with no regard to what a text means: numbers of any size, escaped
code units in any order and containers nested to any depth. Every text of the grammar writes a tree
without faults. -/

namespace Tether.Json

/-! ## Strings -/

/-- A character, or an escape of a character or of any code unit. -/
inductive CharText : List Char → Prop
  | plain {c : Char} (hquote : c ≠ '"') (hbackslash : c ≠ '\\') (hcontrol : 0x20 ≤ c.toNat) :
      CharText [c]
  | short {letter c : Char} (h : (letter, c) ∈ shortEscapes) : CharText ['\\', letter]
  | unit {n : Nat} {cs : List Char} (hn : n < 0x10000) (h : SpellsUnit n cs) : CharText cs

/-- A string with its quotes, and blanks around it. -/
def StringText (cs : List Char) : Prop :=
  ∃ texts : List (List Char), (∀ text ∈ texts, CharText text) ∧
    Padded ('"' :: (texts.flatten ++ ['"'])) cs

/-- A character is spelled by one text of the grammar, or by two that are surrogates. -/
theorem exists_charTexts {c : Char} {cs : List Char} (h : SpellsChar c cs) :
    ∃ texts : List (List Char), (∀ text ∈ texts, CharText text) ∧ cs = texts.flatten := by
  cases h with
  | raw hquote hbackslash hcontrol => exact ⟨[[c]], by simp [CharText.plain, *], rfl⟩
  | @short letter h => exact ⟨[['\\', letter]], by simp [CharText.short h], rfl⟩
  | unit h hunit => exact ⟨[cs], by simp [CharText.unit h hunit], (List.append_nil cs).symm⟩
  | @pair cs ds h hhigh hlow =>
      have hfirst : CharText cs := .unit (Quoted.highSurrogate_lt c) hhigh
      have hsecond : CharText ds := .unit (Quoted.lowSurrogate_lt c) hlow
      exact ⟨[cs, ds], by simp [hfirst, hsecond], by simp⟩

theorem exists_charTexts_flatten {cs : List Char} {spellings : List (List Char)}
    (h : List.Forall₂ SpellsChar cs spellings) :
    ∃ texts : List (List Char), (∀ text ∈ texts, CharText text) ∧
      spellings.flatten = texts.flatten := by
  induction h with
  | nil => exact ⟨[], List.forall_mem_nil _, rfl⟩
  | cons hc _ ih =>
      obtain ⟨front, hfront, hcs⟩ := exists_charTexts hc
      obtain ⟨texts, htexts, hflatten⟩ := ih
      refine ⟨front ++ texts, List.forall_mem_append.mpr ⟨hfront, htexts⟩, ?_⟩
      rw [List.flatten_cons, hcs, hflatten, List.flatten_append]

/-- Every spelling of a string is in the grammar. -/
theorem stringText_of_spellsString {s : String} {cs : List Char} (h : SpellsString s cs) :
    StringText cs := by
  obtain ⟨inside, ⟨spellings, hspellings, rfl⟩, hpadded⟩ := h
  obtain ⟨texts, htexts, hflatten⟩ := exists_charTexts_flatten hspellings
  rw [hflatten] at hpadded
  exact ⟨texts, htexts, hpadded⟩

/-! ## Values -/

/-- A value with blanks wherever they may stand. -/
inductive ValueText : List Char → Prop
  | null {cs : List Char} (h : Padded ['n', 'u', 'l', 'l'] cs) : ValueText cs
  | bool {b : Bool} {cs : List Char} (h : Padded (toString b).toList cs) : ValueText cs
  | number {core cs : List Char} (hcore : NumberText core) (h : Padded core cs) : ValueText cs
  | text {cs : List Char} (h : StringText cs) : ValueText cs
  | list {texts : List (List Char)} {cs : List Char} (hitems : ∀ text ∈ texts, ValueText text)
      (h : Encloses '[' ']' texts cs) : ValueText cs
  | object {members : List (List Char × List Char)} {cs : List Char}
      (hkeys : ∀ m ∈ members, StringText m.1) (hvalues : ∀ m ∈ members, ValueText m.2)
      (h : Encloses '{' '}' (members.map fun m => m.1 ++ ':' :: m.2) cs) : ValueText cs

/-! ## Trees of texts -/

/-- A character or an escape is read as one piece. -/
theorem exists_readsAs_of_charText {cs : List Char} (h : CharText cs) :
    ∃ pieces, Quoted.ReadsAs cs pieces := by
  cases h with
  | plain hquote hbackslash hcontrol =>
      exact ⟨[.plain _], fun rest => Quoted.read_plain rest hquote hbackslash hcontrol⟩
  | short h => exact ⟨[.plain _], fun rest => Quoted.read_escape rest (Quoted.unescape?_of_mem h)⟩
  | unit hn h => exact ⟨[.unit _], Quoted.readsAs_unit hn h⟩

theorem exists_readsAs_of_charTexts {texts : List (List Char)} (h : ∀ text ∈ texts, CharText text) :
    ∃ pieces, Quoted.ReadsAs texts.flatten pieces := by
  induction texts with
  | nil => exact ⟨[], fun rest => rfl⟩
  | cons text texts ih =>
      obtain ⟨htext, htexts⟩ := List.forall_mem_cons.mp h
      obtain ⟨ps, hps⟩ := exists_readsAs_of_charText htext
      obtain ⟨qs, hqs⟩ := ih htexts
      exact ⟨ps ++ qs, hps.append hqs⟩

theorem exists_writes_of_stringText {cs : List Char} (h : StringText cs) :
    ∃ q, Writes cs (.text q) := by
  obtain ⟨texts, htexts, hpadded⟩ := h
  obtain ⟨pieces, hpieces⟩ := exists_readsAs_of_charTexts htexts
  exact ⟨⟨pieces, none⟩, writes_quoted hpieces hpadded⟩

/-- Every text of the grammar writes a tree. -/
theorem exists_writes_of_valueText {cs : List Char} (h : ValueText cs) : ∃ t, Writes cs t := by
  induction h with
  | null h => exact ⟨_, writes_null.padded h⟩
  | bool h => exact ⟨_, (writes_bool _).padded h⟩
  | number hcore h =>
      obtain ⟨n, hn⟩ := exists_writes_number hcore h
      exact ⟨.number n, hn⟩
  | text h =>
      obtain ⟨q, hq⟩ := exists_writes_of_stringText h
      exact ⟨.text q, hq⟩
  | list _ h ih =>
      obtain ⟨ts, hts⟩ := exists_forall₂ ih
      exact ⟨.list ts none, writes_list hts h⟩
  | @object members cs hkeys _ h ih =>
      have hmembers : ∀ m ∈ members, ∃ field, WritesMember (m.1 ++ ':' :: m.2) field := by
        intro m hm
        obtain ⟨q, hq⟩ := exists_writes_of_stringText (hkeys m hm)
        obtain ⟨t, ht⟩ := ih m hm
        exact ⟨(q, t), writesMember_of_writes hq ht⟩
      obtain ⟨fields, hfields⟩ := exists_forall₂ hmembers
      exact ⟨.object fields none, writes_object (List.forall₂_map_left_iff.mpr hfields) h⟩

end Tether.Json
