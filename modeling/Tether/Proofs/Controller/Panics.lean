import Tether.Proofs.Controller.Calls
import Tether.Proofs.Session.Panics

/-! # A panic makes no difference to a host

Whether a guest panics or returns the error it would be caught as, a host sees the same, whatever
calls it makes. -/

namespace Tether

namespace Controller

/-- The controller over guests that do not panic. -/
def settled (c : Controller) : Controller :=
  { c with session := c.session.settled }

section

variable (c : Controller)

theorem session_settled : c.settled.session = c.session.settled := rfl

theorem boot_settled : c.settled.boot = (c.boot.1, c.boot.2.settled) := by
  simp only [boot, session_settled, Session.take_settled, Session.boot, Session.tryBoot_settled]
  rfl

theorem close_settled : c.settled.close = c.close.settled := by
  simp only [close, session_settled, Session.close_settled]
  rfl

theorem runSynchronized_settled : c.settled.runSynchronized = c.runSynchronized.settled := by
  simp only [runSynchronized, session_settled, Session.step_settled]
  rfl

theorem stepThreaded_settled : c.settled.stepThreaded = (c.stepThreaded.1, c.stepThreaded.2.settled) := by
  simp only [stepThreaded, session_settled, Session.step_settled]
  rfl

theorem signal_settled (sig : Signal) :
    c.settled.signal sig = ((c.signal sig).1, (c.signal sig).2.settled) := by
  simp only [signal, session_settled, Session.signal_settled]
  rfl

theorem call_settled (k : Call) : c.settled.call k = ((c.call k).1, (c.call k).2.settled) := by
  cases k with
  | boot => rw [call_boot, call_boot, boot_settled]
  | close => rw [call_close, call_close, close_settled]
  | runSynchronized => rw [call_runSynchronized, call_runSynchronized, runSynchronized_settled]
  | runThreaded drain =>
      cases drain with
      | true => rfl
      | false => rw [call_stepThreaded, call_stepThreaded, stepThreaded_settled]
  | signal sig => rw [call_signal, call_signal, signal_settled]
  | change change => rfl

theorem run_settled (ks : List Call) :
    c.settled.run ks = ((c.run ks).1, (c.run ks).2.settled) := by
  induction ks generalizing c with
  | nil => rfl
  | cons k ks ih => rw [run_cons, run_cons, call_settled, ih]

end

end Controller

/-- What a session shows of itself and of the world it lives in, the guests' scripts left out. -/
structure Session.SameSight (s t : Session) : Prop where
  state_eq : t.state = s.state
  pending_eq : t.pending = s.pending
  disk_eq : t.world.disk = s.world.disk
  log_eq : t.world.log = s.world.log
  dropped_eq : t.close.world.log = s.close.world.log

theorem Session.sameSight_settled (s : Session) : s.SameSight s.settled where
  state_eq := rfl
  pending_eq := rfl
  disk_eq := rfl
  log_eq := rfl
  dropped_eq := by
    rw [close_settled]
    rfl

/-- Guests that panic are told from guests that return the errors by nobody: after any calls on a
session or on a controller, all answers are the same, and the states, the kept results, the disks, the
statistics and the calls that reached the guests, those of dropping it included. -/
theorem panics_are_errors (scripts : List Script) (disk : Disk) :
    (∀ script : Script, script.settled.Calm) ∧
    (∀ cs : List Session.Call,
      let s := Session.run { world := { scripts, disk } } cs
      let t := Session.run { world := { scripts := scripts.map Script.settled, disk } } cs
      t.1 = s.1 ∧ s.2.SameSight t.2) ∧
    ∀ (watch : Watch) (ks : List Controller.Call),
      let c := (Controller.ofWorld { scripts, disk } watch).run ks
      let d := (Controller.ofWorld { scripts := scripts.map Script.settled, disk } watch).run ks
      d.1 = c.1 ∧ c.2.session.SameSight d.2.session ∧ d.2.stats = c.2.stats := by
  refine ⟨Script.calm_settled, ?_, ?_⟩
  · intro cs s t
    have ht : t = (s.1, s.2.settled) := Session.run_settled { world := { scripts, disk } } cs
    rw [ht]
    exact ⟨rfl, s.2.sameSight_settled⟩
  · intro watch ks c d
    have hd : d = (c.1, c.2.settled) :=
      Controller.run_settled (Controller.ofWorld { scripts, disk } watch) ks
    rw [hd]
    exact ⟨rfl, c.2.session.sameSight_settled, rfl⟩

example :
    let script : Script := { steps := [⟨[], .panicked (.text "stop")⟩], close := .panicked .other }
    let calls := [.boot, .runThreaded false, .close, .boot]
    script.settled = { steps := [⟨[], .failed (.panic "stop")⟩] } ∧
      ((Controller.ofWorld { scripts := [script] } .disabled).run calls).1 =
        [.started true,
          .result (some (.error "guestlink_core::common::error::GuestError: guest panicked: stop")),
          .done, .started false] := by
  exact ⟨rfl, rfl⟩

end Tether
