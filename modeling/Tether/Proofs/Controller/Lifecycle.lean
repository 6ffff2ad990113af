import Tether.Proofs.Controller.Calls
import Tether.Proofs.Session.Lifecycle

/-! # The life of guests over whole runs -/

namespace Tether

namespace Controller

/-- A call that calls for a guest. -/
def Call.boots : Call → Bool
  | .boot => true
  | _ => false

theorem created_call (c : Controller) (k : Call) :
    (c.call k).2.session.world.created = c.session.world.created + k.boots.toNat := by
  cases k with
  | boot => exact Session.created_tryBoot c.session.take.2
  | close => exact Session.created_close c.session
  | runSynchronized => exact Session.created_step c.session true
  | runThreaded drain =>
      cases drain with
      | true => rfl
      | false => exact Session.created_step c.session false
  | signal sig => exact Session.created_signal c.session sig
  | change change => rfl

theorem created_run (c : Controller) (ks : List Call) :
    (c.run ks).2.session.world.created = c.session.world.created + ks.countP Call.boots := by
  induction ks generalizing c with
  | nil => rfl
  | cons k ks ih => rw [run_cons, ih, created_call, countP_cons_toNat, Nat.add_assoc]

theorem logged_run {scripts : List Script} {c : Controller} (h : c.session.Logged scripts)
    (ks : List Call) : (c.run ks).2.session.Logged scripts := by
  apply run_keeps (fun c => c.session.Logged scripts) _ h
  intro c k
  apply session_call_keeps (Session.Logged scripts)
  · intro s c hs
    exact Session.logged_call hs c
  · intro s d hs
    exact Session.logged_disk hs d

end Controller

/-- After any calls on a session or on a controller, dropping it leaves a log that is made of one
block for every guest that was called for. -/
theorem log_orderly (scripts : List Script) (disk : Disk) :
    (∀ cs : List Session.Call,
      Orderly scripts (cs.countP Session.Call.boots)
        (Session.run { world := { scripts, disk } } cs).2.close.world.log) ∧
    (∀ (watch : Watch) (ks : List Controller.Call),
      Orderly scripts (ks.countP Controller.Call.boots)
        ((Controller.ofWorld { scripts, disk } watch).run ks).2.close.session.world.log) := by
  have hstart := Session.logged_start scripts disk
  constructor
  · intro cs
    have hblocks := Session.blocks_of_logged (Session.logged_run hstart cs)
    rw [Session.created_run, Nat.zero_add] at hblocks
    exact hblocks.orderly
  · intro watch ks
    let c := Controller.ofWorld { scripts, disk } watch
    have hblocks := Session.blocks_of_logged (Controller.logged_run (c := c) hstart ks)
    have hcount : (c.run ks).2.session.world.created = ks.countP Controller.Call.boots := by
      rw [Controller.created_run]
      exact Nat.zero_add _
    rw [hcount] at hblocks
    exact hblocks.orderly

end Tether
