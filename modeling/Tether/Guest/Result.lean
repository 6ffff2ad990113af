import Tether.Failure
import Tether.Text.Printed

/-! # Results of guest steps -/

namespace Tether

/-- What one step of a guest tells the host. -/
inductive StepResult where
  /-- The guest wants to run again as soon as possible. -/
  | proceed
  /-- The guest is idle for a number of host ticks, or until a signal arrives. -/
  | sleep (ticks : UInt32)
  /-- The guest needs its next step in the host's synchronized phase. -/
  | synchronizedCall
  /-- The guest stopped, and perhaps asks to be started again. -/
  | shutdown (reboot : Bool)
  | error (message : String)
  deriving DecidableEq, Inhabited

namespace StepResult

/-- The result of a step that failed with a recorded failure. -/
def ofFailure (f : Failure) : StepResult :=
  .error f.text

def ofError {ε : Type} [Reportable ε] (e : ε) : StepResult :=
  ofFailure (.capture e)

/-- The result of a step that may have ended in a reportable error. -/
def ofOutcome {ε : Type} [Reportable ε] : Except ε StepResult → StepResult
  | .ok r => r
  | .error e => ofError e

def isError : StepResult → Bool
  | .error _ => true
  | _ => false

def print : StepResult → String
  | .proceed => "Continue"
  | .sleep ticks => "Sleep \x7b ticks: " ++ toString ticks.toNat ++ " \x7d"
  | .synchronizedCall => "SynchronizedCall"
  | .shutdown reboot => "Shutdown \x7b reboot: " ++ Text.printBool reboot ++ " \x7d"
  | .error message => "Error(" ++ Text.print message ++ ")"

end StepResult

end Tether
