import Tether.Guest.Script

/-! # The world around a session

Guests are constructed one after another, each from the next script, and act on one disk. Every call
into a guest is logged when it is made, before its outcome is known. -/

namespace Tether

/-- A call that reached the maker of guests or the guest of this number. -/
inductive Event where
  | create (guest : Nat)
  | start (guest : Nat)
  | step (guest : Nat) (synchronized : Bool)
  | signal (guest : Nat) (payload : Octets)
  | close (guest : Nat)
  deriving DecidableEq

def Event.guest : Event → Nat
  | .create guest | .start guest | .step guest _ | .signal guest _ | .close guest => guest

/-- The scripts of all guests, how many of them have been called for, the disk, and the calls so
far. -/
structure World where
  scripts : List Script := []
  created : Nat := 0
  disk : Disk := .empty
  log : List Event := []

namespace World

/-- The world after one more logged call. -/
def record (e : Event) (w : World) : World :=
  { w with log := w.log ++ [e] }

def create (w : World) : Except GuestError Guest × World :=
  let outcome := match w.scripts[w.created]? with
    | some script => script.create.guarded.map fun () => ⟨w.created, script⟩
    | none => .error (.image "no more guests")
  (outcome, { w.record (.create w.created) with created := w.created + 1 })

/-- Starts a guest, which tells whether it is ready. -/
def start (g : Guest) (w : World) : Except GuestError Bool × World :=
  (g.script.start.guarded, w.record (.start g.number))

/-- Advances a guest by one step. What it does to the disk is done even if it fails. -/
def step (synchronized : Bool) (g : Guest) (w : World) :
    Except GuestError StepResult × Guest × World :=
  let (plan, next) := g.nextStep
  (plan.reply.guarded, next,
    { w.record (.step g.number synchronized) with disk := plan.changes.foldl Disk.apply w.disk })

def signal (payload : Octets) (g : Guest) (w : World) : Except GuestError Unit × Guest × World :=
  let (reply, next) := g.nextSignal
  (reply.guarded, next, w.record (.signal g.number payload))

/-- Releases a guest. Whatever goes wrong with that is dropped. -/
def close (g : Guest) (w : World) : World :=
  match g.script.close.guarded with
  | .ok () | .error _ => w.record (.close g.number)

end World

end Tether
