import Tether.Proofs.Session.Calls
import Tether.Proofs.Slot.Conservation

/-! # Results that a session keeps

Of all calls on a session only stores and takes reach its slot. What holds of every run of a slot
therefore holds of the results that pass through a session, whatever its guests do meanwhile. -/

namespace Tether

namespace Session

/-! ## A session seen through its slot -/

/-- What a call on a session asks of its slot. -/
def Call.onSlot? : Call → Option (Slot.Call StepResult)
  | .store r => some (.put r)
  | .take => some .take
  | .boot | .tryBoot | .close | .step _ | .signal _ => none

/-- The answer of its slot that a session passes on. -/
def Answer.ofSlot? : Answer → Option (Slot.Answer StepResult)
  | .displaced r => some (.displaced r)
  | .taken r => some (.taken r)
  | .started _ | .attempted _ | .done | .stepped _ | .delivered _ => none

section

variable {c : Call}

theorem call_reaches_slot {k : Slot.Call StepResult} (h : c.onSlot? = some k) (s : Session) :
    (s.call c).1.ofSlot? = some (s.pending.call k).1 ∧
      (s.call c).2.pending = (s.pending.call k).2 := by
  cases c with
  | store | take =>
      cases h
      exact ⟨rfl, rfl⟩
  | boot | tryBoot | close | step | signal => cases h

theorem call_passes_slot (h : c.onSlot? = none) (s : Session) :
    (s.call c).1.ofSlot? = none ∧ (s.call c).2.pending = s.pending := by
  cases c with
  | boot => exact ⟨rfl, pending_tryBoot s⟩
  | tryBoot => exact ⟨rfl, pending_tryBoot s⟩
  | close => exact ⟨rfl, pending_close s⟩
  | step synchronized => exact ⟨rfl, pending_step s synchronized⟩
  | signal sig => exact ⟨rfl, pending_signal s sig⟩
  | store | take => cases h

end

/-- A run of a session is a run of its slot: what the slot is asked, what it answers, and what it
holds in the end. -/
theorem slot_run (s : Session) (cs : List Call) : s.pending.run (cs.filterMap Call.onSlot?) =
    ((s.run cs).1.filterMap Answer.ofSlot?, (s.run cs).2.pending) := by
  induction cs generalizing s with
  | nil => rfl
  | cons c cs ih =>
      rw [run_cons]
      -- a call that passes the slot by is missing on both sides, any other is the next on both
      cases hcall : c.onSlot? with
      | none =>
          obtain ⟨hanswer, hpending⟩ := call_passes_slot hcall s
          rw [List.filterMap_cons_none hcall, List.filterMap_cons_none hanswer, ← ih, hpending]
      | some k =>
          obtain ⟨hanswer, hpending⟩ := call_reaches_slot hcall s
          rw [List.filterMap_cons_some hcall, List.filterMap_cons_some hanswer, Slot.run_cons,
            ← hpending, ih]

/-! ## What is stored and what comes back -/

def Call.stored? : Call → Option StepResult
  | .store r => some r
  | .boot | .tryBoot | .close | .step _ | .signal _ | .take => none

/-- The result that leaves a session for good: one that a store displaced, or one that was taken. -/
def Answer.returned? : Answer → Option StepResult
  | .displaced r | .taken r => r
  | .started _ | .attempted _ | .done | .stepped _ | .delivered _ => none

/-- What is pending after a call when this was pending before it. -/
def Call.leaves (pending : Option StepResult) : Call → Option StepResult
  | .store r => some r
  | .take => none
  | .boot | .tryBoot | .close | .step _ | .signal _ => pending

theorem Call.stored?_eq : Call.stored? = fun c => c.onSlot?.bind Slot.Call.given? := by
  funext c
  cases c <;> rfl

theorem Answer.returned?_eq :
    Answer.returned? = fun a => a.ofSlot?.bind Slot.Answer.returned? := by
  funext a
  cases a <;> rfl

theorem pending_call (s : Session) (c : Call) :
    (s.call c).2.pending.peek = c.leaves s.pending.peek := by
  cases c with
  | store | take => rfl
  | boot | tryBoot | close | step | signal => exact congrArg Slot.peek (call_passes_slot rfl s).2

/-- What was pending at first comes back before any result that is stored. -/
theorem run_conserves_results (s : Session) (cs : List Call) :
    (s.run cs).1.filterMap Answer.returned? ++ (s.run cs).2.pending.peek.toList =
      s.pending.peek.toList ++ cs.filterMap Call.stored? := by
  have hslot := Slot.run_conserves s.pending (cs.filterMap Call.onSlot?)
  rw [slot_run] at hslot
  rw [Answer.returned?_eq, ← List.filterMap_filterMap, Call.stored?_eq, ← List.filterMap_filterMap]
  exact hslot

end Session

/-- After any calls on a session, the results that have come back from stores and takes, followed by
the one that is pending, are the results that were stored, in order. A store leaves its result
pending, a take leaves nothing, and no other call makes a difference, whatever becomes of the guest. A
slot by itself loses nothing in the same way. -/
theorem stored_results_come_back (scripts : List Script) (disk : Disk) :
    (∀ past : List Session.Call,
      let start : Session := { world := { scripts, disk } }
      let s := (start.run past).2
      (start.run past).1.filterMap Session.Answer.returned? ++ s.pending.peek.toList =
        past.filterMap Session.Call.stored? ∧
      ∀ c : Session.Call, (s.call c).2.pending.peek = c.leaves s.pending.peek) ∧
    ∀ (α : Type) (past : List (Slot.Call α)),
      let s := (Slot.empty.run past).2
      (Slot.empty.run past).1.filterMap Slot.Answer.returned? ++ s.peek.toList =
        past.filterMap Slot.Call.given? ∧
      ∀ c : Slot.Call α, (s.call c).2.peek = c.leaves s.peek := by
  constructor
  · intro past start s
    exact ⟨start.run_conserves_results past, s.pending_call⟩
  · intro α past s
    exact ⟨Slot.empty.run_conserves past, s.peek_call⟩

example :
    let script : Script := { steps := [⟨[], .panicked .other⟩], close := .panicked .other }
    let calls := [.boot, .store .proceed, .step true, .store (.sleep 5), .close, .take, .take]
    let start : Session := { world := { scripts := [script] } }
    (start.run calls).1.filterMap Session.Answer.returned? = [.proceed, .sleep 5] := by
  rfl

end Tether
