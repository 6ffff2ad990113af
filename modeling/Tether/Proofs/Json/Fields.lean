import Mathlib.Data.List.Dedup
import Mathlib.Data.List.Induction
import Tether.Json.Meaning

/-! # Fields in key order

Sorting fields puts their keys in strict order and keeps the last value of each. Fields in order are
known by their values alone. -/

namespace Tether

theorem Octets.ofText_injective {s t : String} (h : ofText s = ofText t) : s = t := by
  have hs := text?_ofText s
  rw [h, text?_ofText] at hs
  exact (Option.some.inj hs).symm

namespace Json

/-! ## The order of keys -/

theorem keyBefore_irrefl (a : String) : keyBefore a a = false := by
  simp [keyBefore, List.lt_irrefl]

theorem keyBefore_trans {a b c : String} (hab : keyBefore a b) (hbc : keyBefore b c) :
    keyBefore a c := by
  simp only [keyBefore, decide_eq_true_eq] at hab hbc ⊢
  exact List.lt_trans hab hbc

theorem keyBefore_ne {a b : String} (h : keyBefore a b) : a ≠ b := by
  rintro rfl
  rw [keyBefore_irrefl] at h
  cases h

theorem eq_of_not_keyBefore {a b : String} (hab : keyBefore a b = false)
    (hba : keyBefore b a = false) : a = b := by
  simp only [keyBefore, decide_eq_false_iff_not] at hab hba
  exact Octets.ofText_injective (List.le_antisymm hba hab)

theorem keyBefore_trichotomy (a b : String) : keyBefore a b ∨ a = b ∨ keyBefore b a := by
  cases hab : keyBefore a b with
  | true => exact .inl rfl
  | false =>
      cases hba : keyBefore b a with
      | true => exact .inr (.inr rfl)
      | false => exact .inr (.inl (eq_of_not_keyBefore hab hba))

theorem keyBefore_asymm {a b : String} (h : keyBefore a b) : keyBefore b a = false := by
  rw [Bool.eq_false_iff]
  intro hba
  exact keyBefore_ne (keyBefore_trans h hba) rfl

/-! ## Fields in order -/

section

variable {α : Type}

theorem lookup_cons_eq (k name : String) (a : α) (fields : List (String × α)) :
    ((name, a) :: fields).lookup k = if k = name then some a else fields.lookup k := by
  by_cases h : k = name
  · rw [if_pos h, h, List.lookup_cons_self]
  · rw [if_neg h, List.lookup_cons, beq_false_of_ne h]

theorem lookup_map {β : Type} (f : α → β) (fields : List (String × α)) (k : String) :
    (fields.map fun field => (field.1, f field.2)).lookup k = (fields.lookup k).map f := by
  induction fields with
  | nil => rfl
  | cons field fields ih =>
      obtain ⟨name, a⟩ := field
      rw [List.map_cons, lookup_cons_eq, lookup_cons_eq, ih]
      split <;> rfl

theorem mem_of_lookup {k : String} {a : α} {fields : List (String × α)}
    (h : fields.lookup k = some a) : (k, a) ∈ fields := by
  obtain ⟨before, after, rfl, -⟩ := List.lookup_eq_some_iff.mp h
  exact List.mem_append_cons_self

/-- The key of each field stands before the keys of all later ones. -/
def InKeyOrder (fields : List (String × α)) : Prop :=
  fields.Pairwise fun a b => keyBefore a.1 b.1

theorem inKeyOrder_cons {name : String} {a : α} {fields : List (String × α)} :
    InKeyOrder ((name, a) :: fields) ↔
      (∀ field ∈ fields, keyBefore name field.1) ∧ InKeyOrder fields :=
  List.pairwise_cons

/-- What stands before the first key stands before all of them. -/
theorem InKeyOrder.keyBefore_of_head {k name : String} {a : α} {fields : List (String × α)}
    (h : InKeyOrder ((name, a) :: fields)) (hk : keyBefore k name) :
    ∀ field ∈ (name, a) :: fields, keyBefore k field.1 := by
  refine List.forall_mem_cons.mpr ⟨hk, ?_⟩
  intro field hfield
  exact keyBefore_trans hk ((inKeyOrder_cons.mp h).1 field hfield)

/-- A key that stands before all others is none of them. -/
theorem lookup_eq_none {k : String} {fields : List (String × α)}
    (h : ∀ field ∈ fields, keyBefore k field.1) : fields.lookup k = none := by
  rw [List.lookup_eq_none_iff]
  intro field hfield
  exact bne_iff_ne.mpr (keyBefore_ne (h field hfield))

/-- Fields in order are known by their values. -/
theorem eq_of_lookup_eq {xs ys : List (String × α)} (hx : InKeyOrder xs) (hy : InKeyOrder ys)
    (h : ∀ k, xs.lookup k = ys.lookup k) : xs = ys := by
  induction xs generalizing ys with
  | nil =>
      cases ys with
      | nil => rfl
      | cons y ys =>
          have hfirst := h y.1
          rw [List.lookup_cons_self] at hfirst
          cases hfirst
  | cons x xs ih =>
      obtain ⟨name, a⟩ := x
      have hname := h name
      rw [List.lookup_cons_self] at hname
      cases ys with
      | nil => cases hname
      | cons y ys =>
          -- of two different first keys, the lesser one would be missing on the other side
          obtain ⟨other, b⟩ := y
          have hother := h other
          rw [List.lookup_cons_self] at hother
          rcases keyBefore_trichotomy name other with hbefore | rfl | hafter
          · rw [lookup_eq_none (hy.keyBefore_of_head hbefore)] at hname
            cases hname
          · rw [List.lookup_cons_self] at hname
            cases hname
            obtain ⟨hkeys, hxs⟩ := inKeyOrder_cons.mp hx
            obtain ⟨hkeys', hys⟩ := inKeyOrder_cons.mp hy
            rw [ih hxs hys]
            intro k
            have hk := h k
            rw [lookup_cons_eq, lookup_cons_eq] at hk
            by_cases hne : k = name
            · rw [hne, lookup_eq_none hkeys, lookup_eq_none hkeys']
            · rwa [if_neg hne, if_neg hne] at hk
          · rw [lookup_eq_none (hx.keyBefore_of_head hafter)] at hother
            cases hother

end

/-! ## Sorting -/

section

variable {α : Type} {key name : String} {v w : α} {fields : List (String × α)}

theorem insertField_of_before (h : keyBefore key name) :
    insertField key v ((name, w) :: fields) = (key, v) :: (name, w) :: fields := by
  rw [insertField, if_pos h]

theorem insertField_of_after (h : keyBefore name key) :
    insertField key v ((name, w) :: fields) = (name, w) :: insertField key v fields := by
  rw [insertField, keyBefore_asymm h, if_neg Bool.false_ne_true, if_pos h]

theorem insertField_same : insertField key v ((key, w) :: fields) = (key, v) :: fields := by
  rw [insertField, keyBefore_irrefl, if_neg Bool.false_ne_true, if_neg Bool.false_ne_true]

end

section

variable {α : Type}

theorem lookup_insertField (key : String) (v : α) (fields : List (String × α)) (k : String) :
    (insertField key v fields).lookup k = if k = key then some v else fields.lookup k := by
  induction fields with
  | nil => exact lookup_cons_eq k key v []
  | cons field fields ih =>
      obtain ⟨name, w⟩ := field
      rcases keyBefore_trichotomy key name with hbefore | rfl | hafter
      · rw [insertField_of_before hbefore, lookup_cons_eq]
      · rw [insertField_same, lookup_cons_eq, lookup_cons_eq]
        by_cases hk : k = key <;> simp [hk]
      · rw [insertField_of_after hafter, lookup_cons_eq, lookup_cons_eq, ih]
        by_cases hk : k = name
        · simp [hk, keyBefore_ne hafter]
        · simp [hk]

theorem mem_insertField {key : String} {v : α} {fields : List (String × α)}
    {field : String × α} (h : field ∈ insertField key v fields) :
    field = (key, v) ∨ field ∈ fields := by
  induction fields with
  | nil => exact .inl (List.mem_singleton.mp h)
  | cons other fields ih =>
      obtain ⟨name, w⟩ := other
      rcases keyBefore_trichotomy key name with hbefore | rfl | hafter
      · rw [insertField_of_before hbefore] at h
        exact List.mem_cons.mp h
      · rw [insertField_same] at h
        rcases List.mem_cons.mp h with h | h
        · exact .inl h
        · exact .inr (List.mem_cons_of_mem _ h)
      · rw [insertField_of_after hafter] at h
        rcases List.mem_cons.mp h with rfl | h
        · exact .inr List.mem_cons_self
        · exact (ih h).imp_right (List.mem_cons_of_mem _)

theorem inKeyOrder_insertField {fields : List (String × α)} (h : InKeyOrder fields)
    (key : String) (v : α) : InKeyOrder (insertField key v fields) := by
  induction fields with
  | nil => exact List.pairwise_singleton _ _
  | cons field fields ih =>
      obtain ⟨name, w⟩ := field
      obtain ⟨hname, hfields⟩ := inKeyOrder_cons.mp h
      rcases keyBefore_trichotomy key name with hbefore | rfl | hafter
      · rw [insertField_of_before hbefore]
        exact inKeyOrder_cons.mpr ⟨h.keyBefore_of_head hbefore, h⟩
      · rw [insertField_same]
        exact inKeyOrder_cons.mpr ⟨hname, hfields⟩
      · rw [insertField_of_after hafter]
        refine inKeyOrder_cons.mpr ⟨?_, ih hfields⟩
        intro field hfield
        rcases mem_insertField hfield with rfl | hfield
        · exact hafter
        · exact hname field hfield

theorem length_insertField_le (key : String) (v : α) (fields : List (String × α)) :
    (insertField key v fields).length ≤ fields.length + 1 := by
  induction fields with
  | nil => exact Nat.le_refl _
  | cons field fields ih =>
      rw [insertField]
      split
      · exact Nat.le_refl _
      · split
        · exact Nat.succ_le_succ ih
        · exact Nat.le_succ _

theorem sortFields_concat (fields : List (String × α)) (field : String × α) :
    sortFields (fields ++ [field]) = insertField field.1 field.2 (sortFields fields) := by
  rw [sortFields, List.foldl_concat]
  rfl

/-- The value of a key is the last one given. -/
theorem lookup_sortFields (fields : List (String × α)) (k : String) :
    (sortFields fields).lookup k = fields.reverse.lookup k := by
  induction fields using List.reverseRecOn with
  | nil => rfl
  | append_singleton fields field ih =>
      rw [sortFields_concat, lookup_insertField, ih, List.reverse_concat, lookup_cons_eq]

theorem inKeyOrder_sortFields (fields : List (String × α)) : InKeyOrder (sortFields fields) := by
  induction fields using List.reverseRecOn with
  | nil => exact .nil
  | append_singleton fields field ih =>
      rw [sortFields_concat]
      exact inKeyOrder_insertField ih field.1 field.2

theorem mem_of_mem_sortFields {fields : List (String × α)} {field : String × α}
    (h : field ∈ sortFields fields) : field ∈ fields := by
  induction fields using List.reverseRecOn with
  | nil => exact h
  | append_singleton fields other ih =>
      rw [sortFields_concat] at h
      rw [List.mem_append, List.mem_singleton]
      exact (mem_insertField h).symm.imp_left ih

theorem length_sortFields_le (fields : List (String × α)) :
    (sortFields fields).length ≤ fields.length := by
  induction fields using List.reverseRecOn with
  | nil => exact Nat.le_refl _
  | append_singleton fields field ih =>
      have hinsert := length_insertField_le field.1 field.2 (sortFields fields)
      rw [sortFields_concat, List.length_append, List.length_singleton]
      omega

/-- Sorting looks at the keys alone, whatever is done to what stands behind them. -/
theorem sortFields_map {β : Type} (f : α → β) (fields : List (String × α)) :
    sortFields (fields.map fun field => (field.1, f field.2)) =
      (sortFields fields).map fun field => (field.1, f field.2) := by
  apply eq_of_lookup_eq (inKeyOrder_sortFields _)
  · exact List.pairwise_map.mpr (inKeyOrder_sortFields fields)
  · intro k
    rw [lookup_sortFields, lookup_map, lookup_sortFields, ← List.map_reverse, lookup_map]

end

/-! ## Last values of distinct keys -/

section

variable {α : Type}

/-- The distinct keys of fields, in order. -/
def distinctKeys (fields : List (String × α)) : List String :=
  (fields.map Prod.fst).dedup.mergeSort fun a b => !keyBefore b a

/-- One field for each key, with the last value given to it, in the order of the keys. -/
def lastFields (fields : List (String × α)) : List (String × α) :=
  (distinctKeys fields).filterMap fun key => (fields.reverse.lookup key).map (key, ·)

theorem mem_distinctKeys {fields : List (String × α)} {key : String} :
    key ∈ distinctKeys fields ↔ key ∈ fields.map Prod.fst := by
  rw [distinctKeys, (List.mergeSort_perm _ _).mem_iff, List.mem_dedup]

theorem not_keyBefore_trans {a b c : String} (hba : keyBefore b a = false)
    (hcb : keyBefore c b = false) : keyBefore c a = false := by
  rw [Bool.eq_false_iff]
  intro hca
  rcases keyBefore_trichotomy a b with h | rfl | h
  · exact Bool.eq_false_iff.mp hcb (keyBefore_trans hca h)
  · exact Bool.eq_false_iff.mp hcb hca
  · exact Bool.eq_false_iff.mp hba h

theorem pairwise_distinctKeys (fields : List (String × α)) :
    (distinctKeys fields).Pairwise fun a b => keyBefore a b := by
  have hnodup : (distinctKeys fields).Pairwise (· ≠ ·) :=
    (List.mergeSort_perm _ _).nodup_iff.mpr (List.nodup_dedup _)
  have hsorted : (distinctKeys fields).Pairwise fun a b => !keyBefore b a := by
    apply List.pairwise_mergeSort
    · intro a b c hab hbc
      rw [Bool.not_eq_true'] at hab hbc ⊢
      exact not_keyBefore_trans hab hbc
    · intro a b
      cases hab : keyBefore a b with
      | true => rw [keyBefore_asymm hab, Bool.not_false, Bool.true_or]
      | false => rw [Bool.not_false, Bool.or_true]
  refine (hsorted.and hnodup).imp ?_
  rintro a b ⟨hba, hne⟩
  rw [Bool.not_eq_true'] at hba
  rcases keyBefore_trichotomy a b with h | h | h
  · exact h
  · exact absurd h hne
  · exact absurd h (Bool.eq_false_iff.mp hba)

theorem inKeyOrder_lastFields (fields : List (String × α)) : InKeyOrder (lastFields fields) := by
  refine (pairwise_distinctKeys fields).filterMap _ ?_
  intro key key' hkeys field hfield field' hfield'
  obtain ⟨a, -, rfl⟩ := Option.map_eq_some_iff.mp hfield
  obtain ⟨b, -, rfl⟩ := Option.map_eq_some_iff.mp hfield'
  exact hkeys

theorem lookup_filterMap (keys : List String) (value? : String → Option α) (k : String) :
    (keys.filterMap fun key => (value? key).map (key, ·)).lookup k =
      if k ∈ keys then value? k else none := by
  induction keys with
  | nil => rfl
  | cons key keys ih =>
      rw [List.filterMap_cons]
      cases hvalue : value? key with
      | none =>
          rw [Option.map_none, ih]
          by_cases hk : k = key
          · simp [hk, hvalue]
          · simp [hk]
      | some a =>
          rw [Option.map_some, lookup_cons_eq, ih]
          by_cases hk : k = key
          · simp [hk, hvalue]
          · simp [hk]

theorem lookup_lastFields (fields : List (String × α)) (k : String) :
    (lastFields fields).lookup k = fields.reverse.lookup k := by
  rw [lastFields, lookup_filterMap]
  split
  · rfl
  · rename_i hk
    rw [mem_distinctKeys, List.mem_map] at hk
    symm
    rw [List.lookup_eq_none_iff]
    intro field hfield
    rw [bne_iff_ne]
    rintro rfl
    exact hk ⟨field, List.mem_reverse.mp hfield, rfl⟩

/-- Sorting keeps the last value of each key, and puts the keys in order. -/
theorem sortFields_eq (fields : List (String × α)) : sortFields fields = lastFields fields := by
  apply eq_of_lookup_eq (inKeyOrder_sortFields fields) (inKeyOrder_lastFields fields)
  intro k
  rw [lookup_sortFields, lookup_lastFields]

/-- Fields that give each key the same last value are the same in order. -/
theorem lastFields_congr {xs ys : List (String × α)}
    (h : ∀ k, xs.reverse.lookup k = ys.reverse.lookup k) : lastFields xs = lastFields ys := by
  apply eq_of_lookup_eq (inKeyOrder_lastFields xs) (inKeyOrder_lastFields ys)
  intro k
  rw [lookup_lastFields, lookup_lastFields, h]

end

end Json

end Tether
