import Tether.CommandLine.Run
import Tether.Proofs.Json.Spelling

/-! # Commands that encode

The commands that encode agree: hexadecimal output stands for the octets that are otherwise written as
they are, and a signal is written like the document that lists its name and its arguments. -/

namespace Tether

/-! ## Hexadecimal text -/

namespace Octets

def hexDigits : List Char :=
  ['0', '1', '2', '3', '4', '5', '6', '7', '8', '9', 'a', 'b', 'c', 'd', 'e', 'f']

/-- The octets that lowercase hexadecimal text stands for, if it has two digits for each. -/
def ofHex? : List Char → Option Octets
  | [] => some []
  | [_] => none
  | high :: low :: cs => do
    let octet := 16 * (← hexDigits.idxOf? high) + (← hexDigits.idxOf? low)
    return UInt8.ofNat octet :: (← ofHex? cs)

theorem idxOf?_hexDigit {n : Nat} (h : n < 16) : hexDigits.idxOf? (hexDigit n) = some n := by
  revert n
  decide

theorem ofHex?_hexChars (data : Octets) : ofHex? (hexChars data) = some data := by
  induction data with
  | nil => rfl
  | cons b data ih =>
      have hhigh : b.toNat / 16 < 16 := Nat.div_lt_of_lt_mul b.toNat_lt
      have hlow : b.toNat % 16 < 16 := Nat.mod_lt _ (by decide)
      have hchars : hexChars (b :: data) =
          hexDigit (b.toNat / 16) :: hexDigit (b.toNat % 16) :: hexChars data := rfl
      rw [hchars, ofHex?, idxOf?_hexDigit hhigh, idxOf?_hexDigit hlow, ih]
      have hoctet : UInt8.ofNat (16 * (b.toNat / 16) + b.toNat % 16) = b := by
        rw [Nat.div_add_mod, UInt8.ofNat_toNat]
      exact congrArg (fun octet => some (octet :: data)) hoctet

end Octets

namespace CommandLine

variable {m : Type → Type} [Monad m]

/-- The host gives this text where a document is read: in a file, or as standard input. -/
def Host.Gives (host : Host m) : Option String → String → Prop
  | some path, text => host.readFile path = pure (.ok (Octets.ofText text))
  | none, text => host.readInput = pure (.ok (Octets.ofText text))

/-! ## One document -/

section

variable {host : Host m} {input : Option String} {text : String}

theorem run_encode [LawfulMonad m] (h : host.Gives input text) (config : Config) (hex : Bool) :
    Command.run host config (.encode input hex) =
      pure (encodeDocument hex (.ok (Octets.ofText text))) := by
  cases input with
  | none =>
      have hread : host.readInput = pure (.ok (Octets.ofText text)) := h
      rw [Command.run, hread, pure_bind]
  | some path =>
      have hread : host.readFile path = pure (.ok (Octets.ofText text)) := h
      rw [Command.run, hread, pure_bind]

theorem encodeDocument_of_value {v : Value} (h : Json.value? text = .ok v) (hex : Bool) :
    encodeDocument hex (.ok (Octets.ofText text)) = emit hex v.encode := by
  simp only [encodeDocument, Except.bind, FileFault.text, Octets.text?_ofText, h]

theorem encodeDocument_of_fault {f : Json.Fault} (h : Json.value? text = .error f) (hex : Bool) :
    encodeDocument hex (.ok (Octets.ofText text)) = .failure f.message := by
  simp only [encodeDocument, Except.bind, FileFault.text, Octets.text?_ofText, h]

end

/-! ## Arguments of a signal -/

/-- The text lists a name, in any spelling, and the list of the arguments, with any blanks. -/
def SpellsCall (name : String) (args : List String) (text : String) : Prop :=
  ∃ key items inner, Json.SpellsString name key ∧
    List.Forall₂ (fun arg item => Json.Padded arg.toList item) args items ∧
    Json.Encloses '[' ']' items inner ∧ Json.Encloses '[' ']' [key, inner] text.toList

/-- A document that lists a name and arguments has the value that a guest receives for the signal. The
two lists take two levels of the room for containers. -/
theorem value?_of_spellsCall {name : String} {args : List String} {text : String}
    {values : List Value} (h : SpellsCall name args text)
    (hvalues : List.Forall₂ (fun arg v => Json.value? arg = .ok v) args values)
    (hnested : ∀ arg ∈ args, (Json.Document.ofText arg).tree.NestedAtMost 125) :
    Json.value? text = .ok (Signal.wrap ⟨name, values⟩) := by
  obtain ⟨key, items, inner, hkey, hitems, hinner, htext⟩ := h
  obtain ⟨q, hq, hname⟩ := Json.exists_writes_string hkey
  let trees := args.map fun arg => (Json.Document.ofText arg).tree
  have hwrites : List.Forall₂ Json.Writes items trees := by
    refine List.forall₂_map_right_iff.mpr (Json.forall₂_mono ?_ hitems).flip
    intro arg harg item hitem
    obtain ⟨v, -, hv⟩ := Json.exists_of_mem_left hvalues arg harg
    exact (Json.writes_of_value? hv).1.padded hitem
  have htrees : List.Forall₂ (fun t v => t.toValue 125 = .ok v) trees values := by
    refine List.forall₂_map_left_iff.mpr (Json.forall₂_mono ?_ hvalues)
    intro arg harg v hv
    exact Json.Tree.toValue_of_nestedAtMost (Json.writes_of_value? hv).2 (hnested arg harg)
  have hcall := Json.writes_list (.cons hq (.cons (Json.writes_list hwrites hinner) .nil)) htext
  refine Json.value?_eq_ok.mpr ⟨_, hcall.1, ?_⟩
  have hinside : (Json.Tree.list trees none).toValue 126 = .ok (.list values) :=
    Json.Tree.toValue_list_eq_ok.mpr ⟨125, values, rfl, rfl, htrees, rfl⟩
  have hfirst : (Json.Tree.text q).toValue 126 = .ok (.string name) :=
    Json.Tree.toValue_text_eq_ok.mpr ⟨name, hname, rfl⟩
  exact Json.Tree.toValue_list_eq_ok.mpr
    ⟨126, [.string name, .list values], rfl, rfl, .cons hfirst (.cons hinside .nil), rfl⟩

theorem encodeSignal_of_values {name : String} {args : List String} {values : List Value}
    (h : List.Forall₂ (fun arg v => Json.value? arg = .ok v) args values) :
    encodeSignal name args = emit true (Signal.encode ⟨name, values⟩) := by
  rw [encodeSignal, Json.mapM_eq_ok.mpr h]

/-- A signal is refused for an argument without a value. -/
theorem encodeSignal_of_fault {args : List String} {arg : String} {f : Json.Fault}
    (harg : arg ∈ args) (h : Json.value? arg = .error f) (name : String) :
    ∃ complaint, encodeSignal name args = ⟨1, [], some complaint⟩ := by
  rw [encodeSignal]
  cases hvalues : args.mapM Json.value? with
  | error f => exact ⟨_, rfl⟩
  | ok values =>
      obtain ⟨v, -, hv⟩ := Json.exists_of_mem_left (Json.mapM_eq_ok.mp hvalues) arg harg
      rw [h] at hv
      cases hv

/-- The commands that encode agree on every document that is given to them. Hexadecimal output is a line
that stands for the octets written otherwise, a signal is written like the document that lists its
name and its arguments, and where no value is read nothing is written. -/
theorem encoding_commands_agree [LawfulMonad m] {host : Host m} {input : Option String}
    {text : String} (h : host.Gives input text) (config : Config) :
    (∀ v data, Json.value? text = .ok v → v.encode = .ok data →
      Command.run host config (.encode input false) = pure (.success data) ∧
      ∃ line, Octets.ofHex? line.toList = some data ∧
        Command.run host config (.encode input true) =
          pure (.success (Octets.ofText (line ++ "\n")))) ∧
    (∀ hex f, Json.value? text = .error f → ∃ complaint,
      Command.run host config (.encode input hex) = pure ⟨1, [], some complaint⟩) ∧
    ∀ name args,
      ((∀ arg ∈ args, (∃ v, Json.value? arg = .ok v) ∧
          (Json.Document.ofText arg).tree.NestedAtMost 125) →
        SpellsCall name args text →
        Command.run host config (.signal name args) =
          Command.run host config (.encode input true)) ∧
      ((∃ arg ∈ args, ∃ f, Json.value? arg = .error f) → ∃ complaint,
        Command.run host config (.signal name args) = pure ⟨1, [], some complaint⟩) := by
  refine ⟨?_, ?_, ?_⟩
  · intro v data hv hdata
    rw [run_encode h, run_encode h, encodeDocument_of_value hv, encodeDocument_of_value hv, hdata]
    refine ⟨rfl, Octets.hex data, ?_, rfl⟩
    rw [Octets.hex, String.toList_ofList]
    exact Octets.ofHex?_hexChars data
  · intro hex f hf
    rw [run_encode h, encodeDocument_of_fault hf]
    exact ⟨_, rfl⟩
  · intro name args
    constructor
    · intro hargs hcall
      obtain ⟨values, hvalues⟩ := Json.exists_forall₂ fun arg harg => (hargs arg harg).1
      have hvalue := value?_of_spellsCall hcall hvalues fun arg harg => (hargs arg harg).2
      rw [run_encode h, encodeDocument_of_value hvalue, Command.run, encodeSignal_of_values hvalues]
      rfl
    · rintro ⟨arg, harg, f, hf⟩
      obtain ⟨complaint, hrefused⟩ := encodeSignal_of_fault harg hf name
      exact ⟨complaint, congrArg pure hrefused⟩

/-- A name with a quote, an argument that ends in a number, and one with two containers. -/
theorem encoding_commands_agree_quoted_name :
    let args := ["-0", "\x7b\"k\":[null]\x7d"]
    let text := "[\"a\\\"\", [-0 ,\x7b\"k\":[null]\x7d]]"
    let host : Host Id := ⟨fun _ => .error .notFound, fun _ => none, .ok (Octets.ofText text)⟩
    host.Gives none text ∧ SpellsCall "a\"" args text ∧
      (∀ arg ∈ args, (∃ v, Json.value? arg = .ok v) ∧
        (Json.Document.ofText arg).tree.NestedAtMost 125) ∧
      Command.run host {} (.signal "a\"" args) = Command.run host {} (.encode none true) := by
  intro args text host
  have hgives : host.Gives none text := rfl
  have hname : Json.SpellsString "a\"" ['"', 'a', '\\', '"', '"'] :=
    ⟨_, ⟨_, .cons (.raw (by decide) (by decide) (by decide)) (.cons (.short (by decide)) .nil), rfl⟩,
      Json.padded_self _⟩
  have hcall : SpellsCall "a\"" args text :=
    ⟨_, _, _, hname,
      .cons ⟨[], [' '], by simp, by simp [Json.blanks], rfl⟩ (.cons (Json.padded_self _) .nil),
      ⟨_, Json.padded_self _, [' '], [], by simp [Json.blanks], by simp, rfl⟩,
      ⟨_, Json.padded_self _, [], [], by simp, by simp, by decide⟩⟩
  have hargs : ∀ arg ∈ args, (∃ v, Json.value? arg = .ok v) ∧
      (Json.Document.ofText arg).tree.NestedAtMost 125 := by
    refine List.forall_mem_cons.mpr ⟨⟨⟨.double ⟨0x8000000000000000⟩, ?_⟩, by decide +kernel⟩,
      List.forall_mem_singleton.mpr
        ⟨⟨.map [(.string "k", .list [.nil])], ?_⟩, by decide +kernel⟩⟩
    · exact Json.value?_eq_ok.mpr ⟨.number ⟨true, ['0'], none, none⟩, by decide +kernel, rfl⟩
    · exact Json.value?_eq_ok.mpr
        ⟨.object [(⟨[.plain 'k'], none⟩, .list [.null] none)] none, by decide +kernel, rfl⟩
  exact ⟨hgives, hcall, hargs, ((encoding_commands_agree hgives {}).2.2 _ _).1 hargs hcall⟩

end CommandLine

end Tether
