import Tether.Proofs.Controller.Calls
import Tether.Proofs.Session.Signals

/-! # Signals over whole runs

A controller hands signals to its session as they come, and counts each once, as delivered or as
failed. What its guests receive is told by the calls it makes on the session. -/

namespace Tether

/-- The statistics after one more push. -/
def Stats.afterPush (stats : Stats) : Except SessionError Unit → Stats
  | .ok () => { stats with signalsDelivered := stats.signalsDelivered + 1 }
  | .error _ => { stats with signalFailures := stats.signalFailures + 1 }

namespace Controller

/-- What a call on a controller asks of its session, the kept result left out. -/
def Call.onSession? : Call → Option Session.Call
  | .boot => some .boot
  | .close => some .close
  | .runSynchronized => some (.step true)
  | .runThreaded drain => if drain then none else some (.step false)
  | .signal sig => some (.signal sig)
  | .change _ => none

theorem stats_signal (c : Controller) (sig : Signal) :
    (c.signal sig).2.stats = c.stats.afterPush (c.signal sig).1 := by
  simp only [signal]
  cases (c.session.signal sig).1 <;> rfl

section

variable {scripts : List Script} {past : List Session.Call} {c : Controller}

theorem accounted_call (h : c.session.Accounted scripts past) (k : Call) :
    (c.call k).2.session.Accounted scripts (past ++ k.onSession?.toList) := by
  cases k with
  | boot => exact Session.accounted_call (Session.accounted_pending h .empty) .boot
  | close => exact Session.accounted_call h .close
  | runSynchronized =>
      have hstep := Session.accounted_call h (.step true)
      exact Session.accounted_pending hstep _
  | runThreaded drain =>
      cases drain with
      | true =>
          have hnone : (Call.runThreaded true).onSession?.toList = [] := rfl
          rw [hnone, List.append_nil]
          exact Session.accounted_pending h .empty
      | false => exact Session.accounted_call h (.step false)
  | signal sig => exact Session.accounted_call h (.signal sig)
  | change change =>
      have hnone : (Call.change change).onSession?.toList = [] := rfl
      rw [hnone, List.append_nil]
      exact Session.accounted_disk h _

theorem accounted_run (h : c.session.Accounted scripts past) (ks : List Call) :
    (c.run ks).2.session.Accounted scripts (past ++ ks.filterMap Call.onSession?) := by
  induction ks generalizing c past with
  | nil => simpa using h
  | cons k ks ih =>
      have hsplit : (k :: ks).filterMap Call.onSession? =
          k.onSession?.toList ++ ks.filterMap Call.onSession? := by
        cases hk : k.onSession? <;> simp [hk]
      rw [run_cons, hsplit, ← List.append_assoc]
      exact ih (accounted_call h k)

end

end Controller

/-- After any calls on a session or on a controller, every guest has received the encodings of the
signals pushed while it was live, once each and in order, but for those that have none. A push is
answered for the missing guest, for the error of the encoding, or by the guest, in this order; it
changes nothing but what the guest receives, and a controller counts it once. -/
theorem pushes_are_delivered (scripts : List Script) (disk : Disk) :
    (∀ past : List Session.Call,
      let s := (Session.run { world := { scripts, disk } } past).2
      (∀ i, received i s.world.log =
        (Session.pushedTo scripts i past).filterMap Signal.payload?) ∧
      ∀ sig, Session.Pushed scripts past sig s (s.signal sig).1 (s.signal sig).2) ∧
    ∀ (watch : Watch) (calls : List Controller.Call),
      let past := calls.filterMap Controller.Call.onSession?
      let c := ((Controller.ofWorld { scripts, disk } watch).run calls).2
      (∀ i, received i c.session.world.log =
        (Session.pushedTo scripts i past).filterMap Signal.payload?) ∧
      ∀ sig, Session.Pushed scripts past sig c.session (c.signal sig).1 (c.signal sig).2.session ∧
        (c.signal sig).2.stats = c.stats.afterPush (c.signal sig).1 := by
  have hstart := Session.accounted_start scripts disk
  constructor
  · intro past
    have h := Session.accounted_run hstart past
    exact ⟨h.received_eq, h.pushed⟩
  · intro watch calls past c
    have h : c.session.Accounted scripts past :=
      Controller.accounted_run (c := Controller.ofWorld { scripts, disk } watch) hstart calls
    refine ⟨h.received_eq, ?_⟩
    intro sig
    exact ⟨h.pushed sig, c.stats_signal sig⟩

example :
    let unsendable : Signal := ⟨"late", [.handle ⟨"Port", "none"⟩]⟩
    let calls := [.signal unsendable, .boot, .signal ⟨"a", []⟩, .signal unsendable, .signal ⟨"b", [.nil]⟩]
    let script : Script := { signals := [.done (), .panicked (.text "stop")] }
    let c := ((Controller.ofWorld { scripts := [script] } .disabled).run calls).2
    received 0 c.session.world.log = [[0x92, 0xa1, 0x61, 0x90], [0x92, 0xa1, 0x62, 0x91, 0xc0]] ∧
      (c.stats.signalsDelivered, c.stats.signalFailures) = (1, 3) := by
  exact ⟨rfl, rfl⟩

end Tether
