import Tether.Error
import Tether.Number.Signed
import Tether.Proofs.Value.Parts
import Tether.Wire.Format

/-! # What wire forms denote

On the wire there are fewer shapes than values have: a wire form denotes a tree whose integers have
no width and whose sequences are all alike. -/

namespace Tether

namespace Wire

/-- What a wire form denotes. -/
inductive Tree where
  | nil
  | bool (b : Bool)
  | integer (n : Int)
  | float32 (x : Binary32)
  | float64 (x : Binary64)
  | text (s : String)
  | binary (data : Octets)
  | array (items : List Tree)
  | map (entries : List (Tree × Tree))
  deriving Inhabited

end Wire

/-- The integer that the printed form of a handle denotes. A handle that denotes none is never
written, and what stands for it here does not matter. -/
def Handle.number (h : Handle) : Int :=
  (Signed.integer? h.display.toList).getD 0

namespace Value

open Wire (Tree)

mutual

/-- The tree that is written for a value: a signal as its name and the array of its arguments, a
failure as its type name and its line. -/
def wire : Value → Tree
  | .nil => .nil
  | .bool b => .bool b
  | .int n => .integer n.toInt
  | .long n => .integer n.toInt
  | .float x => .float32 x
  | .double x => .float64 x
  | .string s => .text s
  | .bytes data => .binary data
  | .array items | .list items => .array (wireItems items)
  | .map entries => .map (wireEntries entries)
  | .signal name args => .array [.text name, .array (wireItems args)]
  | .failure f => .array [.text f.typeName, .text (f.typeName ++ ": " ++ f.message)]
  | .handle h => .integer h.number

def wireItems : List Value → List Tree
  | [] => []
  | v :: vs => wire v :: wireItems vs

def wireEntries : List (Value × Value) → List (Tree × Tree)
  | [] => []
  | (k, v) :: es => (wire k, wire v) :: wireEntries es

end

@[simp] theorem wireItems_eq (vs : List Value) : wireItems vs = vs.map wire := by
  induction vs with
  | nil => rfl
  | cons v vs ih => rw [wireItems, ih, List.map_cons]

@[simp] theorem wireEntries_eq (es : List (Value × Value)) :
    wireEntries es = es.map fun e => (wire e.1, wire e.2) := by
  induction es with
  | nil => rfl
  | cons e es ih => rw [wireEntries, ih, List.map_cons]

/-! ## Texts that are written -/

/-- The texts written for a value itself, those of its parts left out. -/
def ownTexts : Value → List String
  | .string s => [s]
  | .signal name _ => [name]
  | .failure f => [f.typeName, f.typeName ++ ": " ++ f.message]
  | _ => []

/-- Every text written for a value, at whatever depth, has a length that fits 32 bits. -/
def TextsFit (v : Value) : Prop :=
  v.All fun w => ∀ s ∈ w.ownTexts, (Octets.ofText s).length ≤ Wire.maxLength

instance (v : Value) : Decidable v.TextsFit :=
  decidableAll _ v

end Value

end Tether
