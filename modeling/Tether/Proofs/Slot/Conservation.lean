import Mathlib.Data.List.Basic
import Tether.Slot

/-! # Slots lose nothing

Whatever is put into a slot comes out of it once and in order, displaced by the next value or taken;
what has not come out yet is what the slot holds. -/

namespace Tether.Slot

variable {α : Type}

/-! ## Calls in sequence -/

inductive Call (α : Type) where
  | put (a : α)
  | take
  | peek

inductive Answer (α : Type) where
  | displaced (a : Option α)
  | taken (a : Option α)
  | peeked (a : Option α)

def call (s : Slot α) : Call α → Answer α × Slot α
  | .put a => (s.put a).map .displaced id
  | .take => s.take.map .taken id
  | .peek => (.peeked s.peek, s)

def run (s : Slot α) : List (Call α) → List (Answer α) × Slot α
  | [] => ([], s)
  | c :: cs =>
    let (answer, s) := s.call c
    let (answers, s) := s.run cs
    (answer :: answers, s)

@[simp] theorem run_nil (s : Slot α) : s.run [] = ([], s) := rfl

theorem run_cons (s : Slot α) (c : Call α) (cs : List (Call α)) :
    s.run (c :: cs) = ((s.call c).1 :: ((s.call c).2.run cs).1, ((s.call c).2.run cs).2) := rfl

/-! ## What goes in and what comes out -/

def Call.given? : Call α → Option α
  | .put a => some a
  | .take | .peek => none

/-- The value that leaves the slot with an answer. One that is only looked at stays. -/
def Answer.returned? : Answer α → Option α
  | .displaced a | .taken a => a
  | .peeked _ => none

/-- What a slot that held this holds after a call. -/
def Call.leaves (held : Option α) : Call α → Option α
  | .put a => some a
  | .take => none
  | .peek => held

theorem peek_call (s : Slot α) (c : Call α) : (s.call c).2.peek = c.leaves s.peek := by
  cases c <;> rfl

/-- What a call returns and leaves is what was there before it, and what it gives. -/
theorem call_conserves (s : Slot α) (c : Call α) :
    (s.call c).1.returned?.toList ++ (s.call c).2.peek.toList =
      s.peek.toList ++ c.given?.toList := by
  cases c with
  | put | take => rfl
  | peek => exact (List.append_nil _).symm

/-- What a slot holds at first comes out before anything that is put into it. -/
theorem run_conserves (s : Slot α) (cs : List (Call α)) :
    (s.run cs).1.filterMap Answer.returned? ++ (s.run cs).2.peek.toList =
      s.peek.toList ++ cs.filterMap Call.given? := by
  simp only [List.filterMap_eq_flatMap_toList]
  induction cs generalizing s with
  | nil => exact (List.append_nil _).symm
  | cons c cs ih =>
      rw [run_cons, List.flatMap_cons, List.append_assoc, ih, List.flatMap_cons]
      rw [← List.append_assoc, call_conserves, List.append_assoc]

end Tether.Slot
