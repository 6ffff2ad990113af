import Tether.Config
import Tether.Proofs.Json.Records

/-! # Texts of configurations

The layout of a configuration, what it leaves out because it is the default and what it says beside the
settings are of no account. A setting that is given twice is refused. -/

namespace Tether.Config

open Json

/-! ## Settings as they are written -/

def SpellsBool (b : Bool) (cs : List Char) : Prop :=
  Padded (toString b).toList cs

/-- A string, or `null` for none. -/
inductive SpellsOptionalText : Option String → List Char → Prop
  | none {cs : List Char} (h : Padded ['n', 'u', 'l', 'l'] cs) : SpellsOptionalText none cs
  | some {s : String} {cs : List Char} (h : SpellsString s cs) : SpellsOptionalText (some s) cs

def General.texts : List (FieldText General) :=
  [.of "trace" General.trace SpellsBool]

def Firmware.texts : List (FieldText Firmware) :=
  [.of "image" Firmware.image SpellsOptionalText, .of "watch" Firmware.watch SpellsBool]

def General.Spells (g : General) (cs : List Char) : Prop :=
  SpellsRecord texts ⟨false⟩ g cs

def Firmware.Spells (f : Firmware) (cs : List Char) : Prop :=
  SpellsRecord texts ⟨none, true⟩ f cs

def texts : List (FieldText Config) :=
  [.of "general" Config.general General.Spells, .of "firmware" Config.firmware Firmware.Spells]

/-- The texts of a configuration: objects or lists of its sections, which are objects or lists of their
settings. -/
def Spells (c : Config) (cs : List Char) : Prop :=
  SpellsRecord texts ⟨⟨false⟩, ⟨none, true⟩⟩ c cs

/-- An object that gives a section twice, or has a section that gives a setting twice. -/
inductive Conflicts (cs : List Char) : Prop
  | sections (h : RepeatsField ["general", "firmware"] cs)
  | settings {members : List (String × List Char)} {text : List Char} (h : ListsMembers members cs)
      (hvalues : ∀ m ∈ members, ValueText m.2)
      (hrepeats : ("general", text) ∈ members ∧ RepeatsField ["trace"] text ∨
        ("firmware", text) ∈ members ∧ RepeatsField ["image", "watch"] text)

/-! ## Reading what is written -/

theorem exists_toBool {b : Bool} {cs : List Char} (h : SpellsBool b cs) :
    ∃ t, Writes cs t ∧ t.toBool = .ok b :=
  ⟨.bool b, (writes_bool b).padded h, rfl⟩

theorem exists_toOptionalText {image : Option String} {cs : List Char}
    (h : SpellsOptionalText image cs) : ∃ t, Writes cs t ∧ t.toOptionalText = .ok image := by
  cases h with
  | none h => exact ⟨.null, writes_null.padded h, rfl⟩
  | some h =>
      obtain ⟨q, hq, htext⟩ := exists_writes_string h
      refine ⟨.text q, hq, ?_⟩
      rw [Tree.toOptionalText, Tree.toText, htext]
      · rfl
      · exact nofun

theorem General.readAsWritten : ReadAsWritten texts fields where
  readBy := by
    refine .cons (FieldText.readBy_of (fun _ _ => exists_toBool) (fun _ _ => rfl) ?_) .nil
    simp [texts, FieldText.of]
  names := by decide
  ext := by
    intro g g' h
    cases g
    cases g'
    simpa [texts, FieldText.of] using h

theorem Firmware.readAsWritten : ReadAsWritten texts fields where
  readBy := by
    refine .cons (FieldText.readBy_of (fun _ _ => exists_toOptionalText) (fun _ _ => rfl) ?_)
      (.cons (FieldText.readBy_of (fun _ _ => exists_toBool) (fun _ _ => rfl) ?_) .nil)
    · simp [texts, FieldText.of]
    · simp [texts, FieldText.of]
  names := by decide
  ext := by
    intro f f' h
    cases f
    cases f'
    simpa [texts, FieldText.of] using h

theorem readAsWritten : ReadAsWritten texts fields where
  readBy := by
    refine .cons (FieldText.readBy_of (fun _ _ => General.readAsWritten.exists_readRecord)
        (fun _ _ => rfl) ?_)
      (.cons (FieldText.readBy_of (fun _ _ => Firmware.readAsWritten.exists_readRecord)
        (fun _ _ => rfl) ?_) .nil)
    · simp [texts, FieldText.of]
    · simp [texts, FieldText.of]
  names := by decide
  ext := by
    intro c c' h
    cases c
    cases c'
    simpa [texts, FieldText.of] using h

/-! ## Configurations -/

section

variable {s : String} {t : Tree}

theorem ofText_of_readRecord {c : Config} (ht : Writes s.toList t)
    (h : t.readRecord fields {} = .ok c) : ofText s = .ok c := by
  rw [ofText, ht.interpret_eq, h]
  rfl

theorem ofText_of_readRecord_ne_ok (ht : Writes s.toList t)
    (h : ∀ c, t.readRecord fields {} ≠ .ok c) : ∃ fault, ofText s = .error (.parse fault) := by
  rw [ofText, ht.interpret_eq]
  cases hread : t.readRecord fields {} with
  | error fault => exact ⟨fault, rfl⟩
  | ok c => exact absurd hread (h c)

end

/-- A text with a conflict writes a tree, and no configuration is read from it. -/
theorem Conflicts.readRecord_ne_ok {cs : List Char} (h : Conflicts cs) :
    ∃ t, Writes cs t ∧ ∀ c, t.readRecord fields {} ≠ .ok c := by
  cases h with
  | sections h =>
      obtain ⟨t, ht⟩ := h.exists_writes
      exact ⟨t, ht, fun c => h.readRecord_ne_ok ht (by decide) {} c⟩
  | @settings members text hlists hvalues hrepeats =>
      obtain ⟨ms, ht, -⟩ :=
        exists_writes_members hlists fun m hm => exists_writes_of_valueText (hvalues m hm)
      refine ⟨_, ht, fun c hread => ?_⟩
      obtain ⟨ms, hms, hread⟩ := readMembers_of_readRecord hlists hvalues ht hread
      -- the section with the conflict would have been read by itself
      rcases hrepeats with ⟨hm, hrepeats⟩ | ⟨hm, hrepeats⟩
      · obtain ⟨u, hu, c₁, c₂, hsection⟩ := Tree.exists_read_of_readMembers hms hread hm rfl
        obtain ⟨g, hg, -⟩ := bind_eq_ok.mp hsection
        exact hrepeats.readRecord_ne_ok hu (by decide) {} g hg
      · obtain ⟨u, hu, c₁, c₂, hsection⟩ := Tree.exists_read_of_readMembers hms hread hm rfl
        obtain ⟨f, hf, -⟩ := bind_eq_ok.mp hsection
        exact hrepeats.readRecord_ne_ok hu (by decide) {} f hf

/-- Every text of a configuration is read as that configuration, and a text with a conflict is
refused. -/
theorem reads_spelled_config (s : String) :
    (∀ c, Spells c s.toList → ofText s = .ok c) ∧
      (Conflicts s.toList → ∃ fault, ofText s = .error (.parse fault)) := by
  constructor
  · intro c h
    obtain ⟨t, ht, hread⟩ := readAsWritten.exists_readRecord h
    exact ofText_of_readRecord ht hread
  · intro h
    obtain ⟨t, ht, hrefused⟩ := h.readRecord_ne_ok
    exact ofText_of_readRecord_ne_ok ht hrefused

/-- Sections in the other order, one with an escaped name and one with a setting left out, and strange
members at both levels; and a section given twice, with the same settings. -/
theorem reads_spelled_config_reordered :
    let general := "\x7b\"trace\":true\x7d"
    let firmware := "\x7b\"general\":[1e400,\"\\ud800\"],\"watch\":false\x7d"
    let once := "\x7b\"firmware\":" ++ firmware ++ ",\"image\":" ++ general ++ ",\"image\":null" ++
      ",\"\\u0067eneral\":" ++ general ++ "\x7d\n"
    let twice := "\x7b\"general\":" ++ general ++ ",\"general\":" ++ general ++ "\x7d"
    (Spells ⟨⟨true⟩, ⟨none, false⟩⟩ once.toList ∧ ofText once = .ok ⟨⟨true⟩, ⟨none, false⟩⟩) ∧
      Conflicts twice.toList ∧ ∃ fault, ofText twice = .error (.parse fault) := by
  intro general firmware once twice
  have htrace : SpellsString "trace" "\"trace\"".toList := spellsString_plain (by simp)
  have hgeneral : General.Spells ⟨true⟩ general.toList := by
    have hlists : ListsMembers [("trace", "true".toList)] general.toList :=
      ⟨_, .cons ⟨_, htrace, rfl⟩ .nil, _, padded_self _, [], [], by simp, by simp, by decide⟩
    refine .object hlists (List.forall_mem_singleton.mpr (.once rfl (padded_self _))) ?_
    simp [General.texts, FieldText.of]
  have hvalue : ValueText general.toList := by
    have htrue : ValueText "true".toList := .bool (b := true) (padded_self _)
    have hencloses : Encloses '{' '}' ["\"trace\"".toList ++ ':' :: "true".toList] general.toList :=
      ⟨_, padded_self _, [], [], by simp, by simp, by decide⟩
    exact @ValueText.object [("\"trace\"".toList, "true".toList)] _
      (List.forall_mem_singleton.mpr (stringText_of_spellsString htrace))
      (List.forall_mem_singleton.mpr htrue) hencloses
  have hlist : ValueText "[1e400,\"\\ud800\"]".toList := by
    have hlarge : NumberText ([] ++ (['1'] ++ ([] ++ 'e' :: ([] ++ ['4', '0', '0'])))) :=
      .parts (.inl rfl) ⟨⟨by simp, by simp⟩, by simp⟩ .none
        (.some (.inl rfl) (.inl rfl) ⟨by simp, by simp⟩)
    have hunit : SpellsUnit 0xd800 ['\\', 'u', 'd', '8', '0', '0'] :=
      .digits (.inl (by decide)) (.inl (by decide)) (.inl (by decide)) (.inl (by decide))
    have hsurrogate : StringText ['"', '\\', 'u', 'd', '8', '0', '0', '"'] :=
      ⟨[_], List.forall_mem_singleton.mpr (.unit (by decide) hunit), padded_self _⟩
    exact .list (List.forall_mem_cons.mpr ⟨.number hlarge (padded_self _),
      List.forall_mem_singleton.mpr (.text hsurrogate)⟩) ⟨_, padded_self _, padded_self _⟩
  have hfirmware : Firmware.Spells ⟨none, false⟩ firmware.toList := by
    have hlists : ListsMembers [("general", "[1e400,\"\\ud800\"]".toList), ("watch", "false".toList)]
        firmware.toList :=
      ⟨_, .cons ⟨_, spellsString_plain (by simp), rfl⟩
        (.cons ⟨_, spellsString_plain (by simp), rfl⟩ .nil),
        _, padded_self _, [], [], by simp, by simp, by decide⟩
    refine .object hlists (List.forall_mem_cons.mpr ⟨.leftOut rfl rfl,
      List.forall_mem_singleton.mpr (.once rfl (padded_self _))⟩) ?_
    simpa [Firmware.texts, FieldText.of] using hlist
  have honce : Spells ⟨⟨true⟩, ⟨none, false⟩⟩ once.toList := by
    have hescaped : SpellsString "general" "\"\\u0067eneral\"".toList := by
      have hunit : SpellsUnit 'g'.toNat ['\\', 'u', '0', '0', '6', '7'] :=
        .digits (.inl (by decide)) (.inl (by decide)) (.inl (by decide)) (.inl (by decide))
      have hplain := @forall₂_spellsChar_plain ['e', 'n', 'e', 'r', 'a', 'l'] (by simp)
      exact ⟨_, ⟨_, .cons (.unit (by decide) hunit) hplain, rfl⟩, padded_self _⟩
    have hlists : ListsMembers [("firmware", firmware.toList), ("image", general.toList),
        ("image", "null".toList), ("general", general.toList)] once.toList :=
      ⟨_, .cons ⟨_, spellsString_plain (by simp), rfl⟩
        (.cons ⟨_, spellsString_plain (by simp), rfl⟩
        (.cons ⟨_, spellsString_plain (by simp), rfl⟩ (.cons ⟨_, hescaped, rfl⟩ .nil))),
        _, padded_self _, [], ['\n'], by simp, by simp [blanks], by decide +kernel⟩
    refine .object hlists (List.forall_mem_cons.mpr ⟨.once rfl hgeneral,
      List.forall_mem_singleton.mpr (.once rfl hfirmware)⟩) ?_
    have hnull : ValueText "null".toList := .null (padded_self _)
    simpa [texts, FieldText.of] using ⟨hvalue, hnull⟩
  have htwice : Conflicts twice.toList := by
    have hlists : ListsMembers [("general", general.toList), ("general", general.toList)]
        twice.toList :=
      ⟨_, .cons ⟨_, spellsString_plain (by simp), rfl⟩
        (.cons ⟨_, spellsString_plain (by simp), rfl⟩ .nil),
        _, padded_self _, [], [], by simp, by simp, by decide⟩
    exact .sections ⟨_, hlists, by simpa using hvalue, "general", by simp, by decide⟩
  exact ⟨⟨honce, (reads_spelled_config once).1 _ honce⟩, htwice,
    (reads_spelled_config twice).2 htwice⟩

end Tether.Config
