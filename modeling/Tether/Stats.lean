import Tether.Number.Binary64

/-! # Statistics of a controller -/

namespace Tether

/-- What a controller has done so far. The counters stand for counters of 64 bits, as which they can be
read as long as fewer than `2 ^ 64` calls have been made. -/
structure Stats where
  initializations : Nat := 0
  initFailures : Nat := 0
  threadedSteps : Nat := 0
  synchronizedSteps : Nat := 0
  /-- Requests for a kept result. -/
  drains : Nat := 0
  /-- Requests that found none. -/
  emptyDrains : Nat := 0
  /-- Steps whose result is an error. -/
  stepFailures : Nat := 0
  /-- Results replaced because the image changed. -/
  forcedReloads : Nat := 0
  signalsDelivered : Nat := 0
  signalFailures : Nat := 0
  deriving DecidableEq, Inhabited

namespace Stats

def totalSteps (s : Stats) : Nat :=
  s.threadedSteps + s.synchronizedSteps

/-- The share of steps that failed, zero if there were none. -/
def failureRate (s : Stats) : Binary64 :=
  if s.totalSteps = 0 then .zero
  else (Binary64.ofNat s.stepFailures).div (.ofNat s.totalSteps)

def failurePercent (s : Stats) : String :=
  (s.failureRate.mul (.ofNat 100)).fixedPlaces 2

def rule : String :=
  String.ofList (List.replicate 58 '=')

def reportLines (s : Stats) : List String :=
  [ rule,
    "SESSION STATISTICS",
    rule,
    "init                 " ++ toString s.initializations ++ " attempts, " ++
      toString s.initFailures ++ " failed",
    "steps                " ++ toString s.threadedSteps ++ " threaded, " ++
      toString s.synchronizedSteps ++ " synchronized",
    "drains               " ++ toString s.drains ++ " (" ++ toString s.emptyDrains ++ " empty)",
    "failures             " ++ toString s.stepFailures ++ " (" ++ s.failurePercent ++ "%)",
    "forced reloads       " ++ toString s.forcedReloads,
    "signals              " ++ toString s.signalsDelivered ++ " delivered, " ++
      toString s.signalFailures ++ " failed" ]

def report (s : Stats) : String :=
  "\n".intercalate s.reportLines

end Stats

end Tether
