import Tether.Proofs.Json.Fields
import Tether.Proofs.Json.Numbers
import Tether.Proofs.Json.Spelling

/-! # Documents and the values they denote

Blanks, the spelling of characters, the order of members and overwritten members are of no account:
a text has the value that the document it spells denotes. -/

namespace Tether.Json

/-- A document without numbers other than integers. The members of an object are kept in the order
they are written in, with repeated keys. -/
inductive Datum where
  | null
  | bool (b : Bool)
  | integer (n : Int64)
  | text (s : String)
  | list (items : List Datum)
  | object (members : List (String × Datum))

/-! ## Spellings -/

/-- The texts of a document, with blanks wherever they may stand and each character spelled in any
way. -/
inductive Spells : Datum → List Char → Prop
  | null {cs : List Char} (h : Padded ['n', 'u', 'l', 'l'] cs) : Spells .null cs
  | bool {b : Bool} {cs : List Char} (h : Padded (toString b).toList cs) : Spells (.bool b) cs
  | integer {n : Int64} {cs : List Char} (h : Padded (toString n.toInt).toList cs) :
      Spells (.integer n) cs
  | text {s : String} {cs : List Char} (h : SpellsString s cs) : Spells (.text s) cs
  | list {items : List Datum} {texts : List (List Char)} {cs : List Char}
      (hitems : List.Forall₂ Spells items texts) (h : Encloses '[' ']' texts cs) :
      Spells (.list items) cs
  | object {members : List (String × Datum)} {keys values : List (List Char)} {cs : List Char}
      (hkeys : List.Forall₂ SpellsString (members.map Prod.fst) keys)
      (hvalues : List.Forall₂ Spells (members.map Prod.snd) values)
      (h : Encloses '{' '}' (keys.zipWith (fun key value => key ++ ':' :: value) values) cs) :
      Spells (.object members) cs

namespace Datum

/-! ## Parts -/

/-- The documents that stand directly inside one. -/
def parts : Datum → List Datum
  | .list items => items
  | .object members => members.map Prod.snd
  | _ => []

def isContainer : Datum → Bool
  | .list _ | .object _ => true
  | _ => false

/-- At most so many containers of a document stand inside one another. -/
def NestedAtMost (d : Datum) (depth : Nat) : Prop :=
  Json.NestedAtMost isContainer parts depth d

instance (d : Datum) (depth : Nat) : Decidable (d.NestedAtMost depth) :=
  decidableNestedAtMost isContainer parts depth d

/-! ## Denotation -/

/-- An integer of 64 bits in the narrower type it fits. -/
def narrow (n : Int64) : Value :=
  if -0x80000000 ≤ n.toInt ∧ n.toInt < 0x80000000 then .int n.toInt32 else .long n

mutual

/-- The value that a document denotes. The last member of each key counts, and the keys are in order.
-/
def norm : Datum → Value
  | .null => .nil
  | .bool b => .bool b
  | .integer n => narrow n
  | .text s => .string s
  | .list items => .list (normItems items)
  | .object members => .ofFields (lastFields (normMembers members))

def normItems : List Datum → List Value
  | [] => []
  | d :: ds => norm d :: normItems ds

def normMembers : List (String × Datum) → List (String × Value)
  | [] => []
  | (key, d) :: ms => (key, norm d) :: normMembers ms

end

@[simp] theorem normItems_eq (ds : List Datum) : normItems ds = ds.map norm := by
  induction ds with
  | nil => rfl
  | cons d ds ih => rw [normItems, ih, List.map_cons]

@[simp] theorem normMembers_eq (ms : List (String × Datum)) :
    normMembers ms = ms.map fun m => (m.1, m.2.norm) := by
  induction ms with
  | nil => rfl
  | cons m ms ih => rw [normMembers, ih, List.map_cons]

theorem ofNumber_eq_narrow {x : Number} {n : Int64} (h : x.asInt64? = some n) :
    Value.ofNumber x = narrow n := by
  have hint : Int32.ofInt n.toInt = n.toInt32 := by
    rw [← Int32.toInt_inj, Int32.toInt_ofInt, Int64.toInt_toInt32]
  rw [Value.ofNumber, h, narrow, ← hint]
  rfl

end Datum

/-! ## Reading what is spelled -/

theorem forall₂_zipWith {α β γ δ : Type} {R : α → γ → Prop} {S : β → δ → Prop} {ms : List (α × β)}
    {xs : List γ} {ys : List δ} {ε : Type} (f : γ → δ → ε) (hx : List.Forall₂ R (ms.map Prod.fst) xs)
    (hy : List.Forall₂ S (ms.map Prod.snd) ys) :
    List.Forall₂ (fun m z => ∃ x y, R m.1 x ∧ S m.2 y ∧ z = f x y) ms (xs.zipWith f ys) := by
  induction ms generalizing xs ys with
  | nil =>
      cases hx
      exact .nil
  | cons m ms ih =>
      cases hx with
      | cons hx hxs =>
          cases hy with
          | cons hy hys => exact .cons ⟨_, _, hx, hy, rfl⟩ (ih hxs hys)

/-- A tree that a text writes, and the value it has. -/
def Means (room : Nat) (d : Datum) (cs : List Char) : Prop :=
  ∃ t, Writes cs t ∧ t.toValue room = .ok d.norm

section

variable {room : Nat} {cs : List Char}

theorem means_list {items : List Datum} {texts : List (List Char)}
    (hitems : List.Forall₂ (Means room) items texts) (h : Encloses '[' ']' texts cs) :
    Means (room + 1) (.list items) cs := by
  obtain ⟨ts, hwrites, hvalues⟩ := exists_between hitems
  refine ⟨.list ts none, writes_list hwrites h, ?_⟩
  refine Tree.toValue_list_eq_ok.mpr ⟨room, items.map Datum.norm, rfl, rfl, ?_, ?_⟩
  · exact List.forall₂_map_right_iff.mpr hvalues
  · rw [Datum.norm, Datum.normItems_eq]

theorem means_object {members : List (String × Datum)} {texts : List (List Char)}
    (hmembers : List.Forall₂ (fun m cs => ∃ key value, SpellsString m.1 key ∧
      Means room m.2 value ∧ cs = key ++ ':' :: value) members texts)
    (h : Encloses '{' '}' texts cs) : Means (room + 1) (.object members) cs := by
  have hpairs : List.Forall₂ (fun m cs => ∃ field : Quoted × Tree, WritesMember cs field ∧
      field.1.text = .ok m.1 ∧ field.2.toValue room = .ok m.2.norm) members texts := by
    refine hmembers.imp ?_
    rintro m cs ⟨key, value, hkey, ⟨t, hvalue, ht⟩, rfl⟩
    obtain ⟨q, hq, htext⟩ := exists_writes_string hkey
    exact ⟨(q, t), writesMember_of_writes hq hvalue, htext, ht⟩
  obtain ⟨ms, hwrites, hvalues⟩ := exists_between hpairs
  refine ⟨.object ms none, writes_object hwrites h, ?_⟩
  refine Tree.toValue_object_eq_ok.mpr
    ⟨room, members.map fun m => (m.1, m.2.norm), rfl, rfl, ?_, ?_⟩
  · exact List.forall₂_map_right_iff.mpr hvalues
  · rw [Datum.norm, Datum.normMembers_eq, sortFields_eq]

end

/-- What is no container has its value with any room. -/
theorem means_of_not_isContainer {d : Datum} {cs : List Char} (h : Spells d cs)
    (hd : d.isContainer = false) (room : Nat) : Means room d cs := by
  cases h with
  | null h => exact ⟨.null, writes_null.padded h, rfl⟩
  | bool h => exact ⟨.bool _, (writes_bool _).padded h, rfl⟩
  | @integer n _ h =>
      obtain ⟨x, hx, hn⟩ := Numeral.exists_toNumber_ofInt n
      refine ⟨_, writes_integer h, Tree.toValue_number_eq_ok.mpr ⟨x, hx, ?_⟩⟩
      rw [Datum.ofNumber_eq_narrow hn, Datum.norm]
  | text h =>
      obtain ⟨q, hq, htext⟩ := exists_writes_string h
      exact ⟨.text q, hq, Tree.toValue_text_eq_ok.mpr ⟨_, htext, rfl⟩⟩
  | list | object => cases hd

/-- A spelled document has the value it denotes, with room for the containers in it. -/
theorem means_of_spells {d : Datum} {room : Nat} {cs : List Char} (h : Spells d cs)
    (hd : d.NestedAtMost room) : Means room d cs := by
  -- the parts of a container have one level of room less, so the induction is on the room
  induction room generalizing d cs with
  | zero => exact means_of_not_isContainer h hd 0
  | succ room ih =>
      cases hcontainer : d.isContainer with
      | false => exact means_of_not_isContainer h hcontainer _
      | true =>
          cases h with
          | list hitems h =>
              exact means_list (forall₂_mono (fun d hd' cs hcs => ih hcs (hd d hd')) hitems) h
          | @object members _ _ _ hkeys hvalues h =>
              have hmembers := forall₂_zipWith (fun key value => key ++ ':' :: value) hkeys hvalues
              refine means_object (forall₂_mono ?_ hmembers) h
              rintro m hm _ ⟨key, value, hkey, hvalue, rfl⟩
              have hm' : m.2 ∈ (Datum.object members).parts := List.mem_map_of_mem hm
              exact ⟨key, value, hkey, ih hvalue (hd m.2 hm'), rfl⟩
          | _ => cases hcontainer

/-! ## Documents that say the same -/

namespace Datum

theorem sizeOf_lt_of_mem_parts {d e : Datum} (h : e ∈ d.parts) : sizeOf e < sizeOf d := by
  cases d with
  | list items =>
      have he : sizeOf e < sizeOf items := List.sizeOf_lt_of_mem h
      rw [list.sizeOf_spec]
      omega
  | object members =>
      obtain ⟨⟨key, value⟩, hm, rfl⟩ := List.mem_map.mp h
      have hsize : sizeOf (key, value) < sizeOf members := List.sizeOf_lt_of_mem hm
      rw [Prod.mk.sizeOf_spec] at hsize
      rw [object.sizeOf_spec]
      change sizeOf value < _
      omega
  | _ => cases h

/-- A property holds of every document if it holds of each one whose parts all have it. -/
@[elab_as_elim]
theorem induction {P : Datum → Prop} (whole : ∀ d : Datum, (∀ e ∈ d.parts, P e) → P d)
    (d : Datum) : P d :=
  whole d fun e he =>
    have : sizeOf e < sizeOf d := sizeOf_lt_of_mem_parts he
    induction whole e
termination_by sizeOf d

/-- The documents differ, at whatever depth, only in the order of members and in members that are
overwritten. -/
inductive Agrees : Datum → Datum → Prop
  | refl (d : Datum) : Agrees d d
  | list {xs ys : List Datum} (h : List.Forall₂ Agrees xs ys) : Agrees (.list xs) (.list ys)
  | object {xs ys : List (String × Datum)}
      (h : ∀ key, Option.Rel Agrees (xs.reverse.lookup key) (ys.reverse.lookup key)) :
      Agrees (.object xs) (.object ys)

theorem map_norm_of_rel {x y : Option Datum} (h : Option.Rel Agrees x y)
    (hnorm : ∀ d ∈ x, ∀ e, Agrees d e → d.norm = e.norm) : x.map norm = y.map norm := by
  cases h with
  | some hde => exact congrArg some (hnorm _ rfl _ hde)
  | none => rfl

/-- Documents that say the same denote the same value. -/
theorem norm_eq_of_agrees {d e : Datum} (h : Agrees d e) : d.norm = e.norm := by
  induction d using Datum.induction generalizing e with
  | whole d ih =>
      cases h with
      | refl => rfl
      | @list xs ys h =>
          have hitems : List.Forall₂ (fun x y => x.norm = y.norm) xs ys :=
            forall₂_mono (fun x hx y hxy => ih x hx hxy) h
          rw [norm, norm, normItems_eq, normItems_eq, map_eq_map (fun _ _ hxy => hxy) hitems]
      | @object xs ys h =>
          rw [norm, norm, normMembers_eq, normMembers_eq]
          refine congrArg Value.ofFields (lastFields_congr ?_)
          intro key
          rw [← List.map_reverse, ← List.map_reverse, lookup_map, lookup_map]
          refine map_norm_of_rel (h key) ?_
          intro x hx y hxy
          have hmem : (key, x) ∈ xs := List.mem_reverse.mp (mem_of_lookup hx)
          have hpart : x ∈ (object xs).parts := List.mem_map.mpr ⟨(key, x), hmem, rfl⟩
          exact ih x hpart hxy

end Datum

/-- A text has the value that the document it spells denotes, and so has any text of a document that
says the same. -/
theorem reads_spelled_document {d : Datum} {s : String} (h : Spells d s.toList)
    (hd : d.NestedAtMost 127) : value? s = .ok d.norm ∧
      ∀ (e : Datum) (t : String), d.Agrees e → Spells e t.toList → e.NestedAtMost 127 →
        value? t = value? s := by
  have hvalue {d : Datum} {s : String} (h : Spells d s.toList) (hd : d.NestedAtMost 127) :
      value? s = .ok d.norm := by
    obtain ⟨t, hwrites, ht⟩ := means_of_spells h hd
    exact value?_eq_ok.mpr ⟨t, hwrites.1, ht⟩
  refine ⟨hvalue h hd, ?_⟩
  intro e t hagrees he hnested
  rw [hvalue h hd, hvalue he hnested, Datum.norm_eq_of_agrees hagrees]

/-- The key `b` is given twice, in two spellings, around a key with two surrogates. -/
theorem reads_spelled_document_repeated_key :
    let d : Datum := .object
      [("b", .null), ("😀", .text "/"), ("b", .list [.integer (-2147483649), .integer 7])]
    let s := "\x7b\"b\":null , \"\\uD83d\\ude00\":\"\\/\",\"\\u0062\":[ -2147483649,7\t] \x7d\n"
    Spells d s.toList ∧ d.NestedAtMost 127 ∧ value? s = .ok (.map
      [(.string "b", .list [.long (-2147483649), .int 7]), (.string "😀", .string "/")]) := by
  intro d s
  have hplain : SpellsString "b" ['"', 'b', '"'] :=
    ⟨['b'], ⟨[['b']], .cons (.raw (by decide) (by decide) (by decide)) .nil, rfl⟩, padded_self _⟩
  have hescaped : SpellsString "b" ['"', '\\', 'u', '0', '0', '6', '2', '"'] := by
    have hunit : SpellsUnit 'b'.toNat ['\\', 'u', '0', '0', '6', '2'] :=
      .digits (.inl (by decide)) (.inl (by decide)) (.inl (by decide)) (.inl (by decide))
    exact ⟨_, ⟨_, .cons (.unit (by decide) hunit) .nil, rfl⟩, padded_self _⟩
  have hpair : SpellsString "😀"
      [' ', '"', '\\', 'u', 'D', '8', '3', 'd', '\\', 'u', 'd', 'e', '0', '0', '"'] := by
    have hhigh : SpellsUnit (highSurrogate '😀') ['\\', 'u', 'D', '8', '3', 'd'] :=
      .digits (.inr (by decide)) (.inl (by decide)) (.inl (by decide)) (.inl (by decide))
    have hlow : SpellsUnit (lowSurrogate '😀') ['\\', 'u', 'd', 'e', '0', '0'] :=
      .digits (.inl (by decide)) (.inl (by decide)) (.inl (by decide)) (.inl (by decide))
    exact ⟨_, ⟨_, .cons (.pair (by decide) hhigh hlow) .nil, rfl⟩,
      [' '], [], by simp [blanks], by simp, rfl⟩
  have hshort : Spells (.text "/") ['"', '\\', '/', '"'] :=
    .text ⟨_, ⟨_, .cons (.short (by decide)) .nil, rfl⟩, padded_self _⟩
  have hlist : Spells (.list [.integer (-2147483649), .integer 7])
      ['[', ' ', '-', '2', '1', '4', '7', '4', '8', '3', '6', '4', '9', ',', '7', '\t', ']', ' '] :=
    .list (.cons (.integer ⟨[' '], [], by simp [blanks], by simp, rfl⟩)
      (.cons (.integer ⟨[], ['\t'], by simp, by simp [blanks], rfl⟩) .nil))
      ⟨_, padded_self _, [], [' '], by simp, by simp [blanks], rfl⟩
  have hnull : Spells .null ['n', 'u', 'l', 'l', ' '] :=
    .null ⟨[], [' '], by simp, by simp [blanks], rfl⟩
  have hspells : Spells d s.toList :=
    .object (.cons hplain (.cons hpair (.cons hescaped .nil)))
      (.cons hnull (.cons hshort (.cons hlist .nil)))
      ⟨_, padded_self _, [], ['\n'], by simp, by simp [blanks], by decide⟩
  have hnested : d.NestedAtMost 127 := by decide
  have hnorm : d.norm = .map
      [(.string "b", .list [.long (-2147483649), .int 7]), (.string "😀", .string "/")] := by
    rw [Datum.norm, Datum.normMembers_eq, ← sortFields_eq]
    rfl
  refine ⟨hspells, hnested, ?_⟩
  rw [← hnorm]
  exact (reads_spelled_document hspells hnested).1

end Tether.Json
