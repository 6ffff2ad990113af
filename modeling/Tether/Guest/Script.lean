import Tether.Disk
import Tether.Error
import Tether.Guest.Result

/-! # Scripted guests

A guest is known by how it answers: to its construction, its startup, each step, each signal and its
release. Any answer may be a panic, which is caught and reported like any other error. -/

namespace Tether

/-- What a guest panics with. -/
inductive Panic where
  | text (s : String)
  /-- A payload that is no text. -/
  | other
  deriving DecidableEq

def Panic.message : Panic → String
  | .text s => s
  | .other => "non-string panic payload"

/-- How a guest answers one call. -/
inductive Reply (α : Type) where
  | done (a : α)
  | failed (e : GuestError)
  | panicked (p : Panic)

/-- The outcome of a call under guard: a panic counts as an error. -/
def Reply.guarded {α : Type} : Reply α → Except GuestError α
  | .done a => .ok a
  | .failed e => .error e
  | .panicked p => .error (.panic p.message)

/-- One step of a guest: what it does to the disk, and then how it answers. -/
structure StepPlan where
  changes : List Disk.Change := []
  reply : Reply StepResult := .done .proceed

/-- How a guest behaves. Steps and signals beyond those listed succeed. -/
structure Script where
  create : Reply Unit := .done ()
  /-- Startup tells whether the guest is ready to run. -/
  start : Reply Bool := .done true
  steps : List StepPlan := []
  signals : List (Reply Unit) := []
  close : Reply Unit := .done ()

/-- A guest that has been constructed: its number, and the script of what is left of its life. -/
structure Guest where
  number : Nat
  script : Script

namespace Guest

/-- The plan of the next step, and the guest after it. -/
def nextStep (g : Guest) : StepPlan × Guest :=
  match g.script.steps with
  | [] => (⟨[], .done .proceed⟩, g)
  | plan :: steps => (plan, { g with script := { g.script with steps } })

/-- The answer to the next signal, and the guest after it. -/
def nextSignal (g : Guest) : Reply Unit × Guest :=
  match g.script.signals with
  | [] => (.done (), g)
  | reply :: signals => (reply, { g with script := { g.script with signals } })

end Guest

end Tether
