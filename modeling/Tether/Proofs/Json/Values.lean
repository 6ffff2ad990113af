import Tether.Json.Conversion
import Tether.Proofs.Json.Contents
import Tether.Proofs.Number.Finite

/-! # Values of trees

The value of a tree is that of what it says. Numbers are finite as far as any are accepted, so none of
them is lost: the value of a number is a number. -/

namespace Tether

/-- A function is applied to what a step gives if it succeeds. -/
theorem map_eq_ok {ε α β : Type} {x : Except ε α} {f : α → β} {b : β} :
    x.map f = .ok b ↔ ∃ a, x = .ok a ∧ f a = b := by
  cases x with
  | error e => exact ⟨nofun, nofun⟩
  | ok a =>
      constructor
      · intro h
        exact ⟨a, rfl, Except.ok.inj h⟩
      · rintro ⟨_, hx, rfl⟩
        cases hx
        rfl

namespace Json

/-! ## Finite numbers -/

/-- A finite number is not scaled to an infinite one: a product is looked at, and a quotient is not
greater. -/
theorem isFinite_of_scale {x y : Binary64} {exponent : Int} (hx : x.isFinite)
    (h : scale x exponent = .ok y) : y.isFinite := by
  fun_induction scale x exponent with
  | case1 => cases h
  | case2 x exponent _ _ product hinfinite =>
      have hproduct : product = y := Except.ok.inj h
      rw [← hproduct]
      exact Binary64.isFinite_of_not_isInfinite (Bool.eq_false_iff.mpr hinfinite)
  | case3 x exponent =>
      cases h
      exact Binary64.isFinite_div_powerOfTen hx exponent.natAbs
  | case4 =>
      cases h
      exact hx
  | case5 => cases h
  | case6 x exponent _ _ _ ih => exact ih (Binary64.isFinite_div_powerOfTen hx 308) h

theorem Number.isFinite_of_ofNegated {n : UInt64} {x : Binary64} (h : ofNegated n = .float x) :
    x.isFinite := by
  unfold ofNegated at h
  dsimp only at h
  split at h
  · cases h
    rw [Binary64.isFinite_neg]
    exact Binary64.isFinite_ofNat n.toNat_lt
  · cases h

namespace Numeral

theorem gather_lt {k : Nat} (h : k < 0x10000000000000000) (cs : List Char) :
    (gather k cs).1 < 0x10000000000000000 := by
  fun_induction gather k cs with
  | case1 => exact h
  | case2 k c cs next hnext ih => exact ih hnext
  | case3 => exact h

theorem significand_lt (n : Numeral) : n.significand.1 < 0x10000000000000000 :=
  gather_lt (gather_lt (by decide) n.whole) (n.fraction.getD [])

theorem isFinite_of_toBinary64 {n : Numeral} {x : Binary64} (h : n.toBinary64 = .ok x) :
    x.isFinite := by
  have hdigits := Binary64.isFinite_ofNat n.significand_lt
  unfold toBinary64 at h
  dsimp only at h
  split at h
  · exact isFinite_of_scale hdigits h
  · split at h
    · exact isFinite_of_scale hdigits h
    · split at h
      · cases h
        rfl
      · cases h

/-- No spelling stands for a NaN or an infinity. -/
theorem isFinite_of_toNumber {n : Numeral} {x : Binary64} (h : n.toNumber = .ok (.float x)) :
    x.isFinite := by
  unfold toNumber at h
  dsimp only at h
  split at h
  · split at h
    · exact Number.isFinite_of_ofNegated (Except.ok.inj h)
    · cases h
  · obtain ⟨y, hy, hx⟩ := map_eq_ok.mp h
    have hfinite := isFinite_of_toBinary64 hy
    cases hx
    split
    · rwa [Binary64.isFinite_neg]
    · exact hfinite

/-- Digits are rounded before they are scaled: a number is accepted that lies beyond the largest one,
though a lesser one is out of range. -/
example :
    let beyond : Numeral := ⟨false, "179769313486231581".toList, none, some (false, "291".toList)⟩
    let lesser : Numeral := ⟨false, ['1'], some "7976931348623158".toList, some (false, "308".toList)⟩
    beyond.toNumber = .ok (.float ⟨0x7fefffffffffffff⟩) ∧ lesser.toNumber = .error .malformed := by
  decide +kernel

example : Numeral.toNumber ⟨true, ['5', '1'], some "248178375505404".toList, none⟩ =
    .ok (.float ⟨0xc0499fc44f1b2f61⟩) := by
  decide +kernel

end Numeral

/-! ## Values of numbers -/

/-- A number that is spelled is said as it is. -/
theorem Content.ofNumber_of_toNumber {n : Numeral} {x : Number} (h : n.toNumber = .ok x) :
    ofNumber x = .number x := by
  cases x with
  | natural | negative => rfl
  | float x => rw [ofNumber, if_pos (Numeral.isFinite_of_toNumber h)]

theorem Number.exists_asBinary64? (n : Number) : ∃ x, n.asBinary64? = some x := by
  cases n <;> exact ⟨_, rfl⟩

end Json

namespace Value

/-- The value of a number is an integer in the narrower type it fits, or a double. -/
theorem ofNumber_cases (n : Json.Number) : (∃ i, ofNumber n = .int i) ∨
    (∃ x, ofNumber n = .double x) ∨
      ∃ i, ofNumber n = .long i ∧ ¬(-0x80000000 ≤ i.toInt ∧ i.toInt < 0x80000000) := by
  obtain ⟨x, hx⟩ := n.exists_asBinary64?
  rw [ofNumber, hx]
  cases n.asInt64? with
  | none => exact .inr (.inl ⟨x, rfl⟩)
  | some i =>
      by_cases hi : -0x80000000 ≤ i.toInt ∧ i.toInt < 0x80000000
      · exact .inl ⟨_, if_pos hi⟩
      · exact .inr (.inr ⟨i, if_neg hi, hi⟩)

/-! ## Values of contents -/

theorem ofItems_eq (cs : List Json.Content) : ofItems cs = cs.map ofContent := by
  induction cs with
  | nil => rfl
  | cons c cs ih => rw [ofItems, ih, List.map_cons]

theorem ofMembers_eq (fields : List (String × Json.Content)) :
    ofMembers fields = fields.map fun field => (field.1, ofContent field.2) := by
  induction fields with
  | nil => rfl
  | cons field fields ih => rw [ofMembers, ih, List.map_cons]

/-- The fields of a value are sorted as those of what it is the value of. -/
theorem ofContent_object (fields : List (String × Json.Content)) :
    ofContent (.object (Json.sortFields fields)) =
      ofFields (Json.sortFields (fields.map fun field => (field.1, ofContent field.2))) := by
  rw [ofContent, ofMembers_eq, Json.sortFields_map]

end Value

namespace Json

/-- Related lists, the right one through a function, are related to a list in between. -/
theorem forall₂_exists_map {α β γ : Type} {R : α → β → Prop} {f : β → γ} {xs : List α} {zs : List γ} :
    List.Forall₂ (fun x z => ∃ y, R x y ∧ f y = z) xs zs ↔
      ∃ ys, List.Forall₂ R xs ys ∧ ys.map f = zs := by
  constructor
  · intro h
    induction h with
    | nil => exact ⟨[], .nil, rfl⟩
    | cons hxz _ ih =>
        obtain ⟨y, hR, rfl⟩ := hxz
        obtain ⟨ys, hys, rfl⟩ := ih
        exact ⟨y :: ys, .cons hR hys, rfl⟩
  · rintro ⟨ys, h, rfl⟩
    exact List.forall₂_map_right_iff.mpr (h.imp fun _ y hy => ⟨y, hy, rfl⟩)

namespace Tree

/-- The value of what a tree says. -/
def toValue (room : Nat) (t : Tree) : Except Fault Value :=
  (t.toContent room).map Value.ofContent

section

variable {t : Tree} {room : Nat} {v : Value}

theorem toValue_eq_ok :
    t.toValue room = .ok v ↔ ∃ c, t.toContent room = .ok c ∧ Value.ofContent c = v :=
  map_eq_ok

theorem toValue_number_eq_ok {n : Numeral} :
    (number n).toValue room = .ok v ↔ ∃ x, n.toNumber = .ok x ∧ v = Value.ofNumber x := by
  rw [toValue_eq_ok]
  constructor
  · rintro ⟨c, hc, rfl⟩
    rw [toContent] at hc
    obtain ⟨x, hx, hc⟩ := bind_eq_ok.mp hc
    cases hc
    rw [Content.ofNumber_of_toNumber hx]
    exact ⟨x, hx, rfl⟩
  · rintro ⟨x, hx, rfl⟩
    refine ⟨.number x, ?_, rfl⟩
    rw [toContent, hx, ← Content.ofNumber_of_toNumber hx]
    rfl

/-- The value of a number is an integer in the narrower type it fits, or a double. -/
theorem toValue_number_cases {n : Numeral} (h : (number n).toValue room = .ok v) :
    (∃ i, v = .int i) ∨ (∃ x, v = .double x) ∨
      ∃ i, v = .long i ∧ ¬(-0x80000000 ≤ i.toInt ∧ i.toInt < 0x80000000) := by
  obtain ⟨x, -, rfl⟩ := toValue_number_eq_ok.mp h
  exact Value.ofNumber_cases x

theorem toValue_text_eq_ok {q : Quoted} :
    (text q).toValue room = .ok v ↔ ∃ s, q.text = .ok s ∧ v = .string s := by
  simp only [toValue_eq_ok, toContent_text_eq_ok]
  constructor
  · rintro ⟨_, ⟨s, hs, rfl⟩, rfl⟩
    exact ⟨s, hs, rfl⟩
  · rintro ⟨s, hs, rfl⟩
    exact ⟨.text s, ⟨s, hs, rfl⟩, rfl⟩

theorem toValue_list_eq_ok {items : List Tree} {stop : Option Fault} :
    (list items stop).toValue room = .ok v ↔ ∃ inner values, room = inner + 1 ∧ stop = none ∧
      List.Forall₂ (fun t w => t.toValue inner = .ok w) items values ∧ v = .list values := by
  simp only [toValue_eq_ok, toContent_list_eq_ok, forall₂_exists_map]
  constructor
  · rintro ⟨_, ⟨inner, contents, hroom, hstop, hcontents, rfl⟩, rfl⟩
    rw [Value.ofContent, Value.ofItems_eq]
    exact ⟨inner, _, hroom, hstop, ⟨contents, hcontents, rfl⟩, rfl⟩
  · rintro ⟨inner, _, hroom, hstop, ⟨contents, hcontents, rfl⟩, rfl⟩
    refine ⟨.list contents, ⟨inner, contents, hroom, hstop, hcontents, rfl⟩, ?_⟩
    rw [Value.ofContent, Value.ofItems_eq]

/-- The fields of a tree, with their contents or with the values of these. -/
theorem forall₂_toValue {members : List (Quoted × Tree)} {fields : List (String × Value)} :
    List.Forall₂ (fun m f => m.1.text = .ok f.1 ∧ m.2.toValue room = .ok f.2) members fields ↔
      ∃ contents : List (String × Content),
        List.Forall₂ (fun m f => m.1.text = .ok f.1 ∧ m.2.toContent room = .ok f.2) members contents ∧
          contents.map (fun f => (f.1, Value.ofContent f.2)) = fields := by
  rw [← forall₂_exists_map]
  have hfield (m : Quoted × Tree) (f : String × Value) :
      (m.1.text = .ok f.1 ∧ m.2.toValue room = .ok f.2) ↔
        ∃ g : String × Content, (m.1.text = .ok g.1 ∧ m.2.toContent room = .ok g.2) ∧
          (g.1, Value.ofContent g.2) = f := by
    rw [toValue_eq_ok]
    constructor
    · rintro ⟨hkey, c, hc, hf⟩
      exact ⟨(f.1, c), ⟨hkey, hc⟩, Prod.ext rfl hf⟩
    · rintro ⟨g, ⟨hkey, hc⟩, rfl⟩
      exact ⟨hkey, g.2, hc, rfl⟩
  simp only [hfield]

theorem toValue_object_eq_ok {members : List (Quoted × Tree)} {stop : Option Fault} :
    (object members stop).toValue room = .ok v ↔ ∃ inner fields, room = inner + 1 ∧ stop = none ∧
      List.Forall₂ (fun m f => m.1.text = .ok f.1 ∧ m.2.toValue inner = .ok f.2) members fields ∧
      v = .ofFields (sortFields fields) := by
  rw [toValue_eq_ok]
  simp only [toContent_object_eq_ok, forall₂_toValue]
  constructor
  · rintro ⟨_, ⟨inner, contents, hroom, hstop, hcontents, rfl⟩, rfl⟩
    exact ⟨inner, _, hroom, hstop, ⟨contents, hcontents, rfl⟩, Value.ofContent_object contents⟩
  · rintro ⟨inner, _, hroom, hstop, ⟨contents, hcontents, rfl⟩, rfl⟩
    exact ⟨_, ⟨inner, contents, hroom, hstop, hcontents, rfl⟩, Value.ofContent_object contents⟩

/-- A tree has a value only with room for the containers in it. -/
theorem nestedAtMost_of_toValue (h : t.toValue room = .ok v) : t.NestedAtMost room := by
  obtain ⟨c, hc, -⟩ := toValue_eq_ok.mp h
  exact nestedAtMost_of_toContent hc

/-- With room enough, a tree has the value it has with any other room. -/
theorem toValue_of_nestedAtMost {other : Nat} (h : t.toValue room = .ok v)
    (hother : t.NestedAtMost other) : t.toValue other = .ok v := by
  obtain ⟨c, hc, hv⟩ := toValue_eq_ok.mp h
  exact toValue_eq_ok.mpr ⟨c, toContent_of_nestedAtMost hc hother, hv⟩

/-- A tree with a fault has no value. -/
theorem firstFault_of_toValue (h : t.toValue room = .ok v) : t.firstFault = none := by
  obtain ⟨c, hc, -⟩ := toValue_eq_ok.mp h
  exact firstFault_of_toContent hc

end

end Tree

/-- A text has a value if and only if its tokens are those of a tree that has it. -/
theorem value?_eq_ok {s : String} {v : Value} : value? s = .ok v ↔
    ∃ t : Tree, Token.ofChars s.toList = t.tokens ∧ t.toValue maxDepth = .ok v := by
  rw [value?, map_eq_ok]
  simp only [content?_eq_ok, Tree.toValue_eq_ok]
  constructor
  · rintro ⟨c, ⟨t, htokens, hc⟩, hv⟩
    exact ⟨t, htokens, c, hc, hv⟩
  · rintro ⟨t, htokens, c, hc, hv⟩
    exact ⟨c, ⟨t, htokens, hc⟩, hv⟩

end Json

end Tether
