import Mathlib.Data.List.Induction
import Tether.Controller
import Tether.Proofs.Session.Calls

/-! # What calls on a controller do

A controller reaches its session through the operations of the session alone, and someone else may
change the disk in between. -/

namespace Tether.Controller

/-! ## Calls -/

theorem call_boot (c : Controller) : c.call .boot = (.started c.boot.1, c.boot.2) := rfl

theorem call_close (c : Controller) : c.call .close = (.done, c.close) := rfl

theorem call_runSynchronized (c : Controller) :
    c.call .runSynchronized = (.done, c.runSynchronized) := rfl

theorem call_drain (c : Controller) :
    c.call (.runThreaded true) = (.result c.drain.1, c.drain.2) := rfl

theorem call_stepThreaded (c : Controller) :
    c.call (.runThreaded false) = (.result (some c.stepThreaded.1), c.stepThreaded.2) := rfl

theorem call_signal (c : Controller) (sig : Signal) :
    c.call (.signal sig) = (.delivered (c.signal sig).1, (c.signal sig).2) := rfl

/-! ## Runs -/

@[simp] theorem run_nil (c : Controller) : c.run [] = ([], c) := rfl

theorem run_cons (c : Controller) (k : Call) (ks : List Call) :
    c.run (k :: ks) = ((c.call k).1 :: ((c.call k).2.run ks).1, ((c.call k).2.run ks).2) := rfl

/-- A run in two parts: the second starts where the first ends. -/
theorem run_append (c : Controller) (ks js : List Call) : c.run (ks ++ js) =
    ((c.run ks).1 ++ ((c.run ks).2.run js).1, ((c.run ks).2.run js).2) := by
  induction ks generalizing c with
  | nil => rfl
  | cons k ks ih => rw [List.cons_append, run_cons, ih, run_cons, List.cons_append]

/-- The state after one more call. -/
theorem run_concat (c : Controller) (ks : List Call) (k : Call) :
    (c.run (ks ++ [k])).2 = ((c.run ks).2.call k).2 := by
  rw [run_append]
  rfl

theorem length_answers (c : Controller) (ks : List Call) : (c.run ks).1.length = ks.length := by
  induction ks generalizing c with
  | nil => rfl
  | cons k ks ih => rw [run_cons, List.length_cons, ih, List.length_cons]

/-- What a call in the middle of a run returns. -/
theorem getElem?_answers (c : Controller) (past future : List Call) (k : Call) :
    (c.run (past ++ k :: future)).1[past.length]? = some ((c.run past).2.call k).1 := by
  have hlength := length_answers c past
  rw [run_append, List.getElem?_append_right (Nat.le_of_eq hlength), hlength, Nat.sub_self]
  rfl

/-- What every call keeps holds after a run. -/
theorem run_keeps (P : Controller → Prop) {c : Controller}
    (hcall : ∀ c k, P c → P (c.call k).2) (h : P c) (ks : List Call) : P (c.run ks).2 := by
  induction ks generalizing c with
  | nil => exact h
  | cons k ks ih =>
      rw [run_cons]
      exact ih (hcall c k h)

/-- A call among these is the last of them, or comes before the last. -/
theorem concat_eq_append_cons {past before after : List Call} {k j : Call} :
    past ++ [k] = before ++ j :: after ↔
      (j = k ∧ before = past ∧ after = []) ∨
        ∃ rest, past = before ++ j :: rest ∧ after = rest ++ [k] := by
  constructor
  · intro h
    induction after using List.reverseRecOn with
    | nil =>
        obtain ⟨hbefore, hk⟩ := List.append_inj' h rfl
        exact .inl ⟨(List.head_eq_of_cons_eq hk).symm, hbefore.symm, rfl⟩
    | append_singleton rest i _ =>
        rw [← List.cons_append, ← List.append_assoc] at h
        obtain ⟨hbefore, hk⟩ := List.append_inj' h rfl
        rw [List.head_eq_of_cons_eq hk]
        exact .inr ⟨rest, hbefore, rfl⟩
  · rintro (⟨rfl, rfl, rfl⟩ | ⟨rest, rfl, rfl⟩)
    · rfl
    · rw [List.append_assoc, List.cons_append]

/-! ## The session of a controller -/

/-- What every call on a session keeps, and every change of the disk, is kept by calls on a
controller. -/
theorem session_call_keeps (P : Session → Prop) (hcall : ∀ s c, P s → P (s.call c).2)
    (hdisk : ∀ s d, P s → P { s with world := { s.world with disk := d } }) (c : Controller) (k : Call)
    (h : P c.session) : P (c.call k).2.session := by
  cases k with
  | boot => exact hcall _ .boot (hcall _ .take h)
  | close => exact hcall _ .close h
  | runSynchronized => exact hcall _ (.store _) (hcall _ (.step true) h)
  | runThreaded drain =>
      cases drain with
      | true => exact hcall _ .take h
      | false => exact hcall _ (.step false) h
  | signal sig => exact hcall _ (.signal sig) h
  | change change => exact hdisk _ _ h

end Tether.Controller
