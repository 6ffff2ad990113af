import Tether.Proofs.Session.Calls

/-! # Panics of guests are errors

Every script has a settled form, in which each panic is the error it is caught as, and a release that
panics is one that does not. A session over the settled forms is the settled form of the session, call
by call. -/

namespace Tether

/-! ## Settled forms -/

namespace Reply

variable {α : Type}

def IsPanic : Reply α → Prop
  | .panicked _ => True
  | .done _ | .failed _ => False

/-- The reply with a panic turned into the error that carries its text. -/
def settled : Reply α → Reply α
  | .done a => .done a
  | .failed e => .failed e
  | .panicked (.text s) => .failed (.panic s)
  | .panicked .other => .failed (.panic "non-string panic payload")

/-- The reply of a release, which cannot fail, with a panic left out. -/
def calmed : Reply Unit → Reply Unit
  | .panicked _ => .done ()
  | .done () => .done ()
  | .failed e => .failed e

@[simp] theorem guarded_settled (r : Reply α) : r.settled.guarded = r.guarded := by
  cases r with
  | panicked p => cases p <;> rfl
  | done a => rfl
  | failed e => rfl

theorem not_isPanic_settled (r : Reply α) : ¬ r.settled.IsPanic := by
  cases r with
  | panicked p => cases p <;> exact id
  | done a => exact id
  | failed e => exact id

theorem not_isPanic_calmed (r : Reply Unit) : ¬ r.calmed.IsPanic := by
  cases r <;> exact id

end Reply

def StepPlan.settled (plan : StepPlan) : StepPlan :=
  { plan with reply := plan.reply.settled }

namespace Script

/-- The script without panics. What is done to the disk before a panic is still done. -/
def settled (script : Script) : Script where
  create := script.create.settled
  start := script.start.settled
  steps := script.steps.map StepPlan.settled
  signals := script.signals.map Reply.settled
  close := script.close.calmed

/-- No call ends in a panic. -/
structure Calm (script : Script) : Prop where
  create : ¬ script.create.IsPanic
  start : ¬ script.start.IsPanic
  steps : ∀ plan ∈ script.steps, ¬ plan.reply.IsPanic
  signals : ∀ reply ∈ script.signals, ¬ reply.IsPanic
  close : ¬ script.close.IsPanic

theorem calm_settled (script : Script) : script.settled.Calm where
  create := script.create.not_isPanic_settled
  start := script.start.not_isPanic_settled
  steps := by
    intro plan hplan
    obtain ⟨original, -, rfl⟩ := List.mem_map.mp hplan
    exact original.reply.not_isPanic_settled
  signals := by
    intro reply hreply
    obtain ⟨original, -, rfl⟩ := List.mem_map.mp hreply
    exact original.not_isPanic_settled
  close := script.close.not_isPanic_calmed

end Script

namespace Guest

def settled (g : Guest) : Guest :=
  { g with script := g.script.settled }

theorem nextStep_settled (g : Guest) :
    g.settled.nextStep = (g.nextStep.1.settled, g.nextStep.2.settled) := by
  unfold nextStep settled
  cases hsteps : g.script.steps with
  | nil => simp [Script.settled, hsteps, StepPlan.settled, Reply.settled]
  | cons plan steps => simp [Script.settled, hsteps]

theorem nextSignal_settled (g : Guest) :
    g.settled.nextSignal = (g.nextSignal.1.settled, g.nextSignal.2.settled) := by
  unfold nextSignal settled
  cases hsignals : g.script.signals with
  | nil => simp [Script.settled, hsignals, Reply.settled]
  | cons reply signals => simp [Script.settled, hsignals]

end Guest

/-- What becomes of a guest whose script is settled. -/
def Fate.settled : Fate → Fate
  | .unconstructed e => .unconstructed e
  | .unready e => .unready e
  | .ready script => .ready script.settled

theorem fate_settled (scripts : List Script) (i : Nat) :
    fate (scripts.map Script.settled) i = (fate scripts i).settled := by
  unfold fate
  rw [List.getElem?_map]
  cases scripts[i]? with
  | none => rfl
  | some script =>
      simp only [Option.map_some, Script.settled, Reply.guarded_settled]
      split <;> rfl

/-- The world in which no guest panics. -/
def World.settled (w : World) : World :=
  { w with scripts := w.scripts.map Script.settled }

namespace Session

/-- The session over guests that do not panic. -/
def settled (s : Session) : Session :=
  { s with world := s.world.settled, guest := s.guest.map Guest.settled }

theorem guest_settled_of_none {s : Session} (h : s.guest = none) : s.settled.guest = none :=
  congrArg (Option.map Guest.settled) h

theorem guest_settled_of_some {s : Session} {g : Guest} (h : s.guest = some g) :
    s.settled.guest = some g.settled :=
  congrArg (Option.map Guest.settled) h

/-! ## Calls on the settled form -/

theorem take_settled (s : Session) : s.settled.take = (s.take.1, s.take.2.settled) := rfl

theorem close_settled (s : Session) : s.settled.close = s.close.settled := by
  cases hguest : s.guest with
  | none =>
      have hnone := guest_settled_of_none hguest
      rw [close_of_none hguest, close_of_none hnone]
  | some g =>
      have hsome := guest_settled_of_some hguest
      rw [close_of_some hguest, close_of_some hsome]
      rfl

theorem tryBoot_settled (s : Session) : s.settled.tryBoot = (s.tryBoot.1, s.tryBoot.2.settled) := by
  have hscripts : s.close.settled.world.scripts = s.close.world.scripts.map Script.settled := rfl
  have hcreated : s.close.settled.world.created = s.close.world.created := rfl
  rw [tryBoot_eq, tryBoot_eq, close_settled]
  dsimp only
  rw [hscripts, hcreated, fate_settled]
  cases fate s.close.world.scripts s.close.world.created with
  | unconstructed e => rfl
  | unready e => rfl
  | ready script => rfl

theorem step_settled (s : Session) (synchronized : Bool) :
    s.settled.step synchronized = ((s.step synchronized).1, (s.step synchronized).2.settled) := by
  cases hguest : s.guest with
  | none =>
      have hnone := guest_settled_of_none hguest
      rw [step_of_none hguest, step_of_none hnone]
  | some g =>
      have hsome := guest_settled_of_some hguest
      rw [step_of_some hguest, step_of_some hsome, Guest.nextStep_settled]
      simp only [StepPlan.settled, Reply.guarded_settled]
      rfl

theorem signal_settled (s : Session) (sig : Signal) :
    s.settled.signal sig = ((s.signal sig).1, (s.signal sig).2.settled) := by
  cases hguest : s.guest with
  | none =>
      have hnone := guest_settled_of_none hguest
      rw [signal_of_none hguest, signal_of_none hnone]
  | some g =>
      have hsome := guest_settled_of_some hguest
      cases hsig : sig.encode with
      | error e => rw [signal_of_error hguest hsig, signal_of_error hsome hsig]
      | ok payload =>
          rw [signal_of_ok hguest hsig, signal_of_ok hsome hsig, Guest.nextSignal_settled,
            Reply.guarded_settled]
          rfl

theorem call_settled (s : Session) (c : Call) :
    s.settled.call c = ((s.call c).1, (s.call c).2.settled) := by
  cases c with
  | boot => rw [call_boot, call_boot, tryBoot_settled]
  | tryBoot => rw [call_tryBoot, call_tryBoot, tryBoot_settled]
  | close => rw [call_close, call_close, close_settled]
  | step synchronized => rw [call_step, call_step, step_settled]
  | signal sig => rw [call_signal, call_signal, signal_settled]
  | store r => rfl
  | take => rfl

/-- A run over the settled scripts gives the same answers and ends in the settled form of the
session. -/
theorem run_settled (s : Session) (cs : List Call) :
    s.settled.run cs = ((s.run cs).1, (s.run cs).2.settled) := by
  induction cs generalizing s with
  | nil => rfl
  | cons c cs ih => rw [run_cons, run_cons, call_settled, ih]

end Session

end Tether
