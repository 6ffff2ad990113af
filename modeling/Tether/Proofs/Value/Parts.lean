import Tether.Value.Basic

/-! # Parts of values: induction and properties of every part

A value is nested through lists of items, of entries and of arguments. All proofs about whole values
go through their direct parts, so that there is one induction for the three of them. -/

namespace Tether.Value

/-- What stands directly inside a value, in writing order: a key before its value. -/
def parts : Value → List Value
  | .array items | .list items => items
  | .map entries => entries.flatMap fun entry => [entry.1, entry.2]
  | .signal _ args => args
  | _ => []

theorem sizeOf_lt_of_mem_parts {v w : Value} (h : w ∈ v.parts) : sizeOf w < sizeOf v := by
  cases v with
  | array items =>
      have hw : sizeOf w < sizeOf items := List.sizeOf_lt_of_mem h
      rw [array.sizeOf_spec]
      omega
  | list items =>
      have hw : sizeOf w < sizeOf items := List.sizeOf_lt_of_mem h
      rw [list.sizeOf_spec]
      omega
  | map entries =>
      obtain ⟨⟨key, value⟩, he, hw⟩ := List.mem_flatMap.mp h
      have hsize : sizeOf (key, value) < sizeOf entries := List.sizeOf_lt_of_mem he
      simp only [Prod.mk.sizeOf_spec] at hsize
      rw [map.sizeOf_spec]
      simp only [List.mem_cons, List.not_mem_nil, or_false] at hw
      rcases hw with rfl | rfl <;> omega
  | signal name args =>
      have hw : sizeOf w < sizeOf args := List.sizeOf_lt_of_mem h
      rw [signal.sizeOf_spec]
      omega
  | _ => simp [parts] at h

/-- A property holds of every value if it holds of each one whose parts all have it. -/
@[elab_as_elim]
theorem induction {P : Value → Prop} (whole : ∀ v : Value, (∀ w ∈ v.parts, P w) → P v)
    (v : Value) : P v :=
  whole v fun w hw =>
    have : sizeOf w < sizeOf v := sizeOf_lt_of_mem_parts hw
    induction whole w
termination_by sizeOf v

mutual

/-- A value and everything inside it, at every depth, in writing order. -/
def nodes : Value → List Value
  | .array items => .array items :: nodesOfItems items
  | .list items => .list items :: nodesOfItems items
  | .map entries => .map entries :: nodesOfEntries entries
  | .signal name args => .signal name args :: nodesOfItems args
  | v => [v]

def nodesOfItems : List Value → List Value
  | [] => []
  | v :: vs => nodes v ++ nodesOfItems vs

def nodesOfEntries : List (Value × Value) → List Value
  | [] => []
  | (k, v) :: es => nodes k ++ (nodes v ++ nodesOfEntries es)

end

theorem nodesOfItems_eq (vs : List Value) : nodesOfItems vs = vs.flatMap nodes := by
  induction vs with
  | nil => rfl
  | cons v vs ih => rw [nodesOfItems, ih, List.flatMap_cons]

theorem nodesOfEntries_eq (es : List (Value × Value)) :
    nodesOfEntries es = (map es).parts.flatMap nodes := by
  induction es with
  | nil => rfl
  | cons e es ih =>
      have hparts : (map (e :: es)).parts = e.1 :: e.2 :: (map es).parts := rfl
      rw [nodesOfEntries, ih, hparts, List.flatMap_cons, List.flatMap_cons]

theorem nodes_eq (v : Value) : v.nodes = v :: v.parts.flatMap nodes := by
  cases v with
  | array items => rw [nodes, nodesOfItems_eq, parts]
  | list items => rw [nodes, nodesOfItems_eq, parts]
  | map entries => rw [nodes, nodesOfEntries_eq]
  | signal name args => rw [nodes, nodesOfItems_eq, parts]
  | _ => rfl

/-- A property of a value and of everything inside it. -/
def All (P : Value → Prop) (v : Value) : Prop :=
  ∀ w ∈ v.nodes, P w

instance decidableAll (P : Value → Prop) [DecidablePred P] (v : Value) : Decidable (v.All P) :=
  inferInstanceAs (Decidable (∀ w ∈ v.nodes, P w))

theorem all_iff {P : Value → Prop} {v : Value} : v.All P ↔ P v ∧ ∀ w ∈ v.parts, w.All P := by
  unfold All
  rw [nodes_eq, List.forall_mem_cons]
  simp only [List.mem_flatMap]
  constructor
  · rintro ⟨hv, h⟩
    exact ⟨hv, fun w hw u hu => h u ⟨w, hw, hu⟩⟩
  · rintro ⟨hv, h⟩
    refine ⟨hv, ?_⟩
    rintro u ⟨w, hw, hu⟩
    exact h w hw u hu

end Tether.Value
