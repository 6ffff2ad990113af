import Tether.Session
import Tether.Stats
import Tether.Watch

/-! # Controllers

A controller drives one session through two phases. A synchronized step keeps its result for the
threaded phase, which takes it once; a threaded step returns its result at once, unless the watched
image changed while it ran: then it asks for a reboot instead. -/

namespace Tether

/-- A session with the watch on its image and the statistics of what was done. -/
structure Controller where
  session : Session
  watch : Watch
  stats : Stats := {}

namespace Controller

def ofWorld (world : World) (watch : Watch) : Controller :=
  { session := { world }, watch }

def sample (c : Controller) : Option Instant :=
  c.watch.sample c.session.world.disk

/-- Starts the next guest. A result kept from the one before is dropped. -/
def boot (c : Controller) : Bool × Controller :=
  let (live, session) := c.session.take.2.boot
  let stats := { c.stats with
    initializations := c.stats.initializations + 1
    initFailures := c.stats.initFailures + (!live).toNat }
  (live, { c with session, stats })

def close (c : Controller) : Controller :=
  { c with session := c.session.close }

/-- Takes a step in the synchronized phase and keeps its result. A step without a guest is an
error. -/
def runSynchronized (c : Controller) : Controller :=
  let (outcome, session) := c.session.step true
  let result := StepResult.ofOutcome outcome
  let stats := { c.stats with
    synchronizedSteps := c.stats.synchronizedSteps + 1
    stepFailures := c.stats.stepFailures + result.isError.toNat }
  { c with session := (session.store result).2, stats }

/-- Takes the result kept by the last synchronized step. -/
def drain (c : Controller) : Option StepResult × Controller :=
  let (taken, session) := c.session.take
  let stats := { c.stats with
    drains := c.stats.drains + 1
    emptyDrains := c.stats.emptyDrains + taken.isNone.toNat }
  (taken, { c with session, stats })

/-- Takes a step in the threaded phase. The image is looked at right before and right after the
step; a failed step is reported whatever became of the image. -/
def stepThreaded (c : Controller) : StepResult × Controller :=
  let before := c.sample
  let (outcome, session) := c.session.step false
  let result := StepResult.ofOutcome outcome
  let after := c.watch.sample session.world.disk
  let reload := !result.isError && Watch.changed before after
  let stats := { c.stats with
    threadedSteps := c.stats.threadedSteps + 1
    stepFailures := c.stats.stepFailures + result.isError.toNat
    forcedReloads := c.stats.forcedReloads + reload.toNat }
  (if reload then .shutdown true else result, { c with session, stats })

/-- The threaded phase: drains the kept result, or takes a step. -/
def runThreaded (drain : Bool) (c : Controller) : Option StepResult × Controller :=
  if drain then c.drain else c.stepThreaded.map some id

def signal (sig : Signal) (c : Controller) : Except SessionError Unit × Controller :=
  let (outcome, session) := c.session.signal sig
  let stats := { c.stats with
    signalsDelivered := c.stats.signalsDelivered + outcome.isOk.toNat
    signalFailures := c.stats.signalFailures + (!outcome.isOk).toNat }
  (outcome, { c with session, stats })

/-- Someone else changes the disk. -/
def changeDisk (change : Disk.Change) (c : Controller) : Controller :=
  let world := c.session.world
  { c with session := { c.session with world := { world with disk := world.disk.apply change } } }

def print (c : Controller) : String :=
  "Controller \x7b session: " ++ c.session.print ++ ", watch: " ++ c.watch.print ++ ", .. \x7d"

/-! ## Calls in sequence -/

/-- A call on a controller, or a change of the disk between calls. -/
inductive Call where
  | boot
  | close
  | runSynchronized
  | runThreaded (drain : Bool)
  | signal (sig : Signal)
  | change (change : Disk.Change)

inductive Answer where
  | started (live : Bool)
  | done
  | result (r : Option StepResult)
  | delivered (outcome : Except SessionError Unit)

def call (c : Controller) : Call → Answer × Controller
  | .boot => c.boot.map .started id
  | .close => (.done, c.close)
  | .runSynchronized => (.done, c.runSynchronized)
  | .runThreaded drain => (c.runThreaded drain).map .result id
  | .signal sig => (c.signal sig).map .delivered id
  | .change change => (.done, c.changeDisk change)

def run (c : Controller) : List Call → List Answer × Controller
  | [] => ([], c)
  | k :: ks =>
    let (answer, c) := c.call k
    let (answers, c) := c.run ks
    (answer :: answers, c)

end Controller

end Tether
