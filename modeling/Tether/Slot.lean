/-! # Take-once slots

A slot carries one value from whoever puts it there to whoever takes it first. -/

namespace Tether

/-- A place for at most one value. -/
structure Slot (α : Type) where
  content : Option α
  deriving DecidableEq

namespace Slot

variable {α : Type}

def empty : Slot α :=
  ⟨none⟩

/-- Stores a value. The answer is the value it displaces. -/
def put (a : α) (s : Slot α) : Option α × Slot α :=
  (s.content, ⟨some a⟩)

def take (s : Slot α) : Option α × Slot α :=
  (s.content, empty)

/-- The value, which stays where it is. -/
def peek (s : Slot α) : Option α :=
  s.content

def isEmpty (s : Slot α) : Bool :=
  s.content.isNone

/-! ## What the operations do to the value -/

@[simp] theorem peek_empty : (empty : Slot α).peek = none := rfl

@[simp] theorem peek_put (a : α) (s : Slot α) : (s.put a).2.peek = some a := rfl

@[simp] theorem put_displaced (a : α) (s : Slot α) : (s.put a).1 = s.peek := rfl

@[simp] theorem peek_take (s : Slot α) : s.take.2.peek = none := rfl

@[simp] theorem take_taken (s : Slot α) : s.take.1 = s.peek := rfl

theorem isEmpty_iff (s : Slot α) : s.isEmpty ↔ s.peek = none := by
  simp [isEmpty, peek]

end Slot

end Tether
