import Tether.Proofs.Json.Fields
import Tether.Proofs.Json.Values
import Tether.Proofs.Wire.Plain
import Tether.Proofs.Wire.Refusal

/-! # The values of texts are canonical

Whatever text has a value, the value is made of few shapes, each in its one form, and can be encoded.
-/

namespace Tether

/-! ## Lengths -/

theorem Octets.ofText_eq (s : String) : ofText s = s.toList.flatMap String.utf8EncodeChar := by
  rw [ofText, String.toUTF8_eq_toByteArray, ← String.utf8Encode_toList, List.utf8Encode,
    List.data_toByteArray, List.toList_toArray]

/-- A text has at least one octet for each character. -/
theorem Octets.length_toList_le (s : String) : s.toList.length ≤ (ofText s).length := by
  rw [ofText_eq]
  induction s.toList with
  | nil => exact Nat.le_refl _
  | cons c cs ih =>
      have hc := c.utf8Size_pos
      rw [List.flatMap_cons, List.length_append, List.length_cons, String.length_utf8EncodeChar]
      omega

namespace Json

theorem Token.length_ofChars_le (cs : List Char) : (ofChars cs).length ≤ cs.length := by
  induction cs using ofChars.induct with
  | case1 =>
      rw [ofChars_nil]
      exact Nat.le_refl _
  | case2 c cs hblank ih =>
      rw [ofChars_blank hblank, List.length_cons]
      exact Nat.le_succ_of_le ih
  | case3 c cs hblank r ih =>
      have hrest := length_next_le c cs
      rw [ofChars_next (Bool.eq_false_iff.mpr hblank), List.length_cons, List.length_cons]
      exact Nat.succ_le_succ (Nat.le_trans ih hrest)

namespace Tree

section

variable {runs : List (List Token)}

theorem length_add_le_intercalate (run : List Token) (runs : List (List Token)) :
    run.length + ([Token.comma].intercalate runs).length ≤
      ([Token.comma].intercalate (run :: runs)).length := by
  cases runs with
  | nil => exact Nat.le_of_eq (congrArg List.length List.intercalate_singleton.symm)
  | cons next runs =>
      rw [List.intercalate_cons_cons, List.length_append, List.length_append]
      omega

theorem length_le_intercalate (h : ∀ run ∈ runs, run ≠ []) :
    runs.length ≤ ([Token.comma].intercalate runs).length := by
  induction runs with
  | nil => exact Nat.zero_le _
  | cons run runs ih =>
      obtain ⟨hrun, hruns⟩ := List.forall_mem_cons.mp h
      have hpos : 0 < run.length := List.length_pos_iff.mpr hrun
      have hsum := length_add_le_intercalate run runs
      have hrest := ih hruns
      rw [List.length_cons]
      omega

theorem length_le_intercalate_of_mem {run : List Token} (h : run ∈ runs) :
    run.length ≤ ([Token.comma].intercalate runs).length := by
  induction runs with
  | nil => cases h
  | cons other runs ih =>
      have hsum := length_add_le_intercalate other runs
      rcases List.mem_cons.mp h with rfl | h
      · omega
      · have hrest := ih h
        omega

end

theorem tokens_ne_nil (t : Tree) : t.tokens ≠ [] := by
  obtain ⟨tok, more, htok, -⟩ := t.tokens_eq_cons
  rw [htok]
  exact List.cons_ne_nil _ _

/-- A tree has at least one token for each of its parts. -/
theorem length_parts_le (t : Tree) : t.parts.length ≤ t.tokens.length := by
  cases t with
  | list items stop =>
      have hne : ∀ run ∈ items.map tokens, run ≠ [] :=
        List.forall_mem_map.mpr fun t _ => t.tokens_ne_nil
      have hinside := length_le_intercalate hne
      rw [List.length_map] at hinside
      rw [parts, tokens, tokensOfItems_eq, List.length_cons, List.length_append]
      omega
  | object members stop =>
      have hne : ∀ run ∈ members.map tokensOfMember, run ≠ [] :=
        List.forall_mem_map.mpr fun m _ => List.cons_ne_nil _ _
      have hinside := length_le_intercalate hne
      rw [List.length_map] at hinside
      rw [parts, tokens, tokensOfMembers_eq, List.length_map, List.length_cons, List.length_append]
      omega
  | _ => exact Nat.zero_le _

theorem length_tokens_le_of_mem_parts {t u : Tree} (h : u ∈ t.parts) :
    u.tokens.length ≤ t.tokens.length := by
  cases t with
  | list items stop =>
      have hinside := length_le_intercalate_of_mem
        (List.mem_map_of_mem h : u.tokens ∈ items.map tokens)
      rw [tokens, tokensOfItems_eq, List.length_cons, List.length_append]
      omega
  | object members stop =>
      obtain ⟨m, hm, rfl⟩ := List.mem_map.mp h
      have hinside := length_le_intercalate_of_mem
        (List.mem_map_of_mem hm : tokensOfMember m ∈ members.map tokensOfMember)
      rw [tokensOfMember, List.length_cons, List.length_cons] at hinside
      rw [tokens, tokensOfMembers_eq, List.length_cons, List.length_append]
      omega
  | _ => cases h

end Tree

end Json

/-! ## Canonical values -/

namespace Value

/-- What a canonical value is by itself, its parts left out: a long integer does not fit 32 bits, and
the keys of a map are texts in strict order. -/
def OwnCanonical : Value → Prop
  | .nil | .bool _ | .int _ | .double _ | .string _ | .list _ => True
  | .long n => ¬(-0x80000000 ≤ n.toInt ∧ n.toInt < 0x80000000)
  | .map entries => ∃ fields, Json.InKeyOrder fields ∧
      entries = fields.map fun field : String × Value => (.string field.1, field.2)
  | _ => False

def isContainer : Value → Bool
  | .array _ | .list _ | .map _ | .signal _ _ => true
  | _ => false

/-- At most so many containers of a value stand inside one another. -/
def NestedAtMost (v : Value) (depth : Nat) : Prop :=
  Json.NestedAtMost isContainer parts depth v

theorem nestedAtMost_of_not_isContainer {v : Value} (h : v.isContainer = false) (depth : Nat) :
    v.NestedAtMost depth := by
  cases depth with
  | zero => exact h
  | succ depth =>
      intro w hw
      cases v with
      | array | list | map | signal => cases h
      | _ => cases hw

theorem mem_parts_ofFields {fields : List (String × Value)} {w : Value} :
    w ∈ (ofFields fields).parts ↔ ∃ field ∈ fields, w = .string field.1 ∨ w = field.2 := by
  simp only [ofFields, parts, List.flatMap_map, List.mem_flatMap, List.mem_cons, List.not_mem_nil,
    or_false]

theorem exists_encode_of_canonical {v : Value} (h : v.All OwnCanonical) (fits : v.LengthsFit) :
    ∃ data, v.encode = .ok data := by
  have hhandles : v.handles = [] := by
    rw [handles, List.flatMap_eq_nil_iff]
    intro w hw
    have hown := h w hw
    cases w with
    | handle => cases hown
    | _ => rfl
  rw [← fault?_eq_none, fault?_encode v fits, hhandles]
  rfl

end Value

namespace Json

namespace Tree

variable {t : Tree} {room : Nat} {v : Value}

/-- A value has the shape of its tree: it is a container if the tree is one, and `nil` if the tree is
`null`. -/
theorem shape_of_toValue (h : t.toValue room = .ok v) :
    v.isContainer = t.isContainer ∧ (v = .nil ↔ t = .null) := by
  cases t with
  | null =>
      cases h
      exact ⟨rfl, iff_of_true rfl rfl⟩
  | bool b =>
      cases h
      exact ⟨rfl, iff_of_false nofun nofun⟩
  | number n =>
      rcases toValue_number_cases h with ⟨_, rfl⟩ | ⟨_, rfl⟩ | ⟨_, rfl, -⟩ <;> exact ⟨rfl, by simp⟩
  | text q =>
      obtain ⟨s, -, rfl⟩ := toValue_text_eq_ok.mp h
      exact ⟨rfl, by simp⟩
  | list items stop =>
      obtain ⟨_, values, -, -, -, rfl⟩ := toValue_list_eq_ok.mp h
      exact ⟨rfl, by simp⟩
  | object members stop =>
      obtain ⟨_, fields, -, -, -, rfl⟩ := toValue_object_eq_ok.mp h
      exact ⟨rfl, by simp [Value.ofFields]⟩
  | cutNumber | broken f => cases h

/-- What stands inside the value of a tree is the key of a field, or the value of a part. -/
theorem part_of_toValue (h : t.toValue room = .ok v) {w : Value} (hw : w ∈ v.parts) :
    (∃ s, w = .string s) ∨ ∃ inner, room = inner + 1 ∧ ∃ u ∈ t.parts, u.toValue inner = .ok w := by
  cases t with
  | null | bool b => cases h; cases hw
  | number n =>
      rcases toValue_number_cases h with ⟨_, rfl⟩ | ⟨_, rfl⟩ | ⟨_, rfl, -⟩ <;> cases hw
  | text q =>
      obtain ⟨s, -, rfl⟩ := toValue_text_eq_ok.mp h
      cases hw
  | list items stop =>
      obtain ⟨inner, values, rfl, -, hvalues, rfl⟩ := toValue_list_eq_ok.mp h
      obtain ⟨u, hu, huw⟩ := exists_of_mem_right hvalues w hw
      exact .inr ⟨inner, rfl, u, hu, huw⟩
  | object members stop =>
      obtain ⟨inner, fields, rfl, -, hfields, rfl⟩ := toValue_object_eq_ok.mp h
      obtain ⟨field, hfield, rfl | rfl⟩ := Value.mem_parts_ofFields.mp hw
      · exact .inl ⟨field.1, rfl⟩
      · obtain ⟨m, hm, -, hmw⟩ := exists_of_mem_right hfields field (mem_of_mem_sortFields hfield)
        exact .inr ⟨inner, rfl, m.2, List.mem_map_of_mem hm, hmw⟩
  | cutNumber | broken f => cases h

/-- The value of a tree is nested no deeper than there was room for. -/
theorem nestedAtMost_value (h : t.toValue room = .ok v) : v.NestedAtMost room := by
  induction room generalizing t v with
  | zero =>
      have ht : t.isContainer = false := nestedAtMost_of_toValue h
      exact (shape_of_toValue h).1.trans ht
  | succ room ih =>
      intro w hw
      rcases part_of_toValue h hw with ⟨s, rfl⟩ | ⟨inner, hroom, u, -, hu⟩
      · exact Value.nestedAtMost_of_not_isContainer rfl room
      · cases hroom
        exact ih hu

/-- The value of a tree is canonical by itself, and no longer than the tokens of the tree. -/
theorem ownCanonical_of_toValue (h : t.toValue room = .ok v) :
    v.OwnCanonical ∧ ∀ length ∈ v.ownLengths, length ≤ t.tokens.length := by
  have hparts := t.length_parts_le
  cases t with
  | null | bool b =>
      cases h
      exact ⟨trivial, List.forall_mem_nil _⟩
  | number n =>
      rcases toValue_number_cases h with ⟨_, rfl⟩ | ⟨_, rfl⟩ | ⟨_, rfl, hwide⟩
      · exact ⟨trivial, List.forall_mem_nil _⟩
      · exact ⟨trivial, List.forall_mem_nil _⟩
      · exact ⟨hwide, List.forall_mem_nil _⟩
  | text q =>
      obtain ⟨s, -, rfl⟩ := toValue_text_eq_ok.mp h
      exact ⟨trivial, List.forall_mem_nil _⟩
  | list items stop =>
      obtain ⟨inner, values, -, -, hvalues, rfl⟩ := toValue_list_eq_ok.mp h
      refine ⟨trivial, List.forall_mem_singleton.mpr ?_⟩
      rw [← hvalues.length_eq]
      exact hparts
  | object members stop =>
      obtain ⟨inner, fields, -, -, hfields, rfl⟩ := toValue_object_eq_ok.mp h
      refine ⟨⟨sortFields fields, inKeyOrder_sortFields fields, rfl⟩,
        List.forall_mem_singleton.mpr ?_⟩
      have hsorted := length_sortFields_le fields
      have hlength := hfields.length_eq
      rw [parts, List.length_map] at hparts
      rw [List.length_map]
      omega
  | cutNumber | broken f => cases h

/-- Every part of the value of a tree is canonical, and no longer than the tokens of the tree. -/
theorem all_canonical_of_toValue (h : t.toValue room = .ok v) {bound : Nat}
    (hbound : t.tokens.length ≤ bound) :
    v.All fun w => w.OwnCanonical ∧ ∀ length ∈ w.ownLengths, length ≤ bound := by
  induction t using Tree.induction generalizing room v with
  | whole t ih =>
      obtain ⟨hown, hlengths⟩ := ownCanonical_of_toValue h
      refine Value.all_iff.mpr
        ⟨⟨hown, fun length hl => Nat.le_trans (hlengths length hl) hbound⟩, ?_⟩
      intro w hw
      rcases part_of_toValue h hw with ⟨s, rfl⟩ | ⟨inner, -, u, hu, huw⟩
      · exact Value.all_of_no_parts ⟨trivial, List.forall_mem_nil _⟩ rfl
      · exact ih u hu huw (Nat.le_trans (length_tokens_le_of_mem_parts hu) hbound)

end Tree

/-! ## Places -/

/-- A step from a container to what stands inside it: an item by its position, or the value of a key. -/
inductive Step where
  | item (n : Nat)
  | key (k : String)

/-- The last member whose key is `k`, if there is one. -/
def lastMember? (members : List (Quoted × Tree)) (k : String) : Option Tree :=
  members.reverse.findSome? fun m => if m.1.text = .ok k then some m.2 else none

namespace Tree

def child? : Tree → Step → Option Tree
  | .list items _, .item n => items[n]?
  | .object members _, .key k => lastMember? members k
  | _, _ => none

/-- What stands at the end of a path. -/
def at? (t : Tree) (path : List Step) : Option Tree :=
  path.foldlM child? t

end Tree

end Json

namespace Value

/-- The value of the first entry with the key `k`, if there is one. -/
def atKey? (entries : List (Value × Value)) (k : String) : Option Value :=
  entries.findSome? fun entry =>
    match entry.1 with
    | .string name => if name = k then some entry.2 else none
    | _ => none

def child? : Value → Json.Step → Option Value
  | .list items, .item n => items[n]?
  | .map entries, .key k => atKey? entries k
  | _, _ => none

/-- What stands at the end of a path. -/
def at? (v : Value) (path : List Json.Step) : Option Value :=
  path.foldlM child? v

theorem atKey?_ofFields (fields : List (String × Value)) (k : String) :
    atKey? (fields.map fun field => (.string field.1, field.2)) k = fields.lookup k := by
  induction fields with
  | nil => rfl
  | cons field fields ih =>
      obtain ⟨name, v⟩ := field
      rw [Json.lookup_cons_eq, ← ih]
      by_cases h : k = name
      · simp [atKey?, h]
      · simp [atKey?, h, Ne.symm h]

end Value

namespace Json

namespace Tree

variable {t : Tree} {room : Nat} {v : Value}

/-- The value is that of the tree, with some room for containers. -/
def HasValue (t : Tree) (v : Value) : Prop :=
  ∃ room, t.toValue room = .ok v

theorem rel_getElem? {α β : Type} {R : α → β → Prop} {xs : List α} {ys : List β}
    (h : List.Forall₂ R xs ys) (n : Nat) : Option.Rel R xs[n]? ys[n]? := by
  induction h generalizing n with
  | nil => exact .none
  | cons hxy _ ih =>
      cases n with
      | zero => exact .some hxy
      | succ n => exact ih n

theorem rel_lastMember? {members : List (Quoted × Tree)} {fields : List (String × Value)}
    (h : List.Forall₂ (fun m f => m.1.text = .ok f.1 ∧ m.2.toValue room = .ok f.2) members fields)
    (k : String) : Option.Rel HasValue (lastMember? members k) (fields.reverse.lookup k) := by
  have hreverse := List.forall₂_reverse_iff.mpr h
  rw [lastMember?]
  generalize members.reverse = ms at hreverse ⊢
  generalize fields.reverse = fs at hreverse ⊢
  induction hreverse with
  | nil => exact .none
  | @cons m field _ _ hm _ ih =>
      obtain ⟨name, v⟩ := field
      rw [List.findSome?_cons, lookup_cons_eq, hm.1]
      by_cases hk : k = name
      · rw [if_pos hk, if_pos (congrArg Except.ok hk.symm)]
        exact .some ⟨room, hm.2⟩
      · have hne : ¬(Except.ok name : Except Fault String) = .ok k :=
          fun heq => hk (Except.ok.inj heq).symm
        rw [if_neg hk, if_neg hne]
        exact ih

/-- The value of a tree and the tree have the same places inside them. -/
theorem rel_child? (h : t.HasValue v) (step : Step) :
    Option.Rel HasValue (t.child? step) (v.child? step) := by
  obtain ⟨room, h⟩ := h
  cases t with
  | null | bool b =>
      cases h
      exact .none
  | number n =>
      rcases toValue_number_cases h with ⟨_, rfl⟩ | ⟨_, rfl⟩ | ⟨_, rfl, -⟩ <;> exact .none
  | text q =>
      obtain ⟨s, -, rfl⟩ := toValue_text_eq_ok.mp h
      exact .none
  | list items stop =>
      obtain ⟨inner, values, -, -, hvalues, rfl⟩ := toValue_list_eq_ok.mp h
      cases step with
      | item n => exact rel_getElem? (hvalues.imp fun _ _ hu => ⟨inner, hu⟩) n
      | key k => exact .none
  | object members stop =>
      obtain ⟨inner, fields, -, -, hfields, rfl⟩ := toValue_object_eq_ok.mp h
      cases step with
      | item n => exact .none
      | key k =>
          rw [Value.ofFields, Value.child?, Value.atKey?_ofFields, lookup_sortFields]
          exact rel_lastMember? hfields k
  | cutNumber | broken f => cases h

theorem rel_at? (h : t.HasValue v) (path : List Step) :
    Option.Rel HasValue (t.at? path) (v.at? path) := by
  induction path generalizing t v with
  | nil => exact .some h
  | cons step path ih =>
      have hstep := rel_child? h step
      rw [at?, Value.at?, List.foldlM_cons, List.foldlM_cons]
      generalize t.child? step = x at hstep ⊢
      generalize v.child? step = y at hstep ⊢
      cases hstep with
      | none => exact .none
      | some hchild => exact ih hchild

/-- The places of `nil` in the value of a tree are those of `null` in the tree. -/
theorem at?_eq_nil (h : t.HasValue v) (path : List Step) :
    v.at? path = some .nil ↔ t.at? path = some .null := by
  have hpath := rel_at? h path
  generalize t.at? path = x at hpath ⊢
  generalize v.at? path = y at hpath ⊢
  cases hpath with
  | none => exact ⟨nofun, nofun⟩
  | some hplace =>
      obtain ⟨room, hplace⟩ := hplace
      rw [Option.some.injEq, Option.some.injEq]
      exact (shape_of_toValue hplace).2

end Tree

/-- The value of a text is canonical, has `nil` where the text has `null` and nowhere else, and can be
encoded. -/
theorem accepted_value_canonical {s : String} {v : Value}
    (hlength : (Octets.ofText s).length < 0x100000000) (h : value? s = .ok v) :
    v.All Value.OwnCanonical ∧ v.NestedAtMost 127 ∧
      (∃ t : Tree, Token.ofChars s.toList = t.tokens ∧
        ∀ path, v.at? path = some .nil ↔ t.at? path = some .null) ∧
      ∃ data, v.encode = .ok data := by
  obtain ⟨t, htokens, ht⟩ := value?_eq_ok.mp h
  have hbound : t.tokens.length ≤ Wire.maxLength := by
    have hchars := Octets.length_toList_le s
    have htokenCount := Token.length_ofChars_le s.toList
    rw [htokens] at htokenCount
    rw [Wire.maxLength]
    omega
  have hall := Tree.all_canonical_of_toValue ht hbound
  have hcanonical : v.All Value.OwnCanonical := fun w hw => (hall w hw).1
  have hfits : v.LengthsFit := fun w hw => (hall w hw).2
  exact ⟨hcanonical, Tree.nestedAtMost_value ht, ⟨t, htokens, Tree.at?_eq_nil ⟨maxDepth, ht⟩⟩,
    Value.exists_encode_of_canonical hcanonical hfits⟩

/-- One of the nulls is overwritten, and has no place in the value. -/
theorem accepted_value_canonical_overwritten :
    let s := "\x7b\"b\":null,\"a\":[-0,null,[null]],\"b\":true\x7d"
    let v : Value := .map [(.string "a", .list [.double ⟨0x8000000000000000⟩, .nil, .list [.nil]]),
      (.string "b", .bool true)]
    (Octets.ofText s).length < 0x100000000 ∧ value? s = .ok v ∧
      v.All Value.OwnCanonical ∧ v.NestedAtMost 127 ∧ ∃ data, v.encode = .ok data := by
  intro s v
  have hlength : (Octets.ofText s).length < 0x100000000 := by decide
  have h : value? s = .ok v := by
    let key (c : Char) : Quoted := ⟨[.plain c], none⟩
    refine value?_eq_ok.mpr ⟨.object [(key 'b', .null), (key 'a', .list
      [.number ⟨true, ['0'], none, none⟩, .null, .list [.null] none] none),
      (key 'b', .bool true)] none, ?_, rfl⟩
    decide +kernel
  obtain ⟨hcanonical, hnested, -, hencoded⟩ := accepted_value_canonical hlength h
  exact ⟨hlength, h, hcanonical, hnested, hencoded⟩

end Json

end Tether
