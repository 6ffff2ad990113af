import Tether.Slot
import Tether.Wire.Packer
import Tether.World

/-! # Sessions

A session owns the one guest of a machine. It starts guests, advances the live one, hands it
signals, and releases it; and it holds the result of a synchronized step until someone takes it. -/

namespace Tether

namespace Session

/-- Where a session stands in its life. -/
inductive State where
  /-- No guest has been started, or the last attempt failed. -/
  | uninitialized
  | initialized
  | closed
  deriving DecidableEq, Inhabited

def State.name : State → String
  | .uninitialized => "uninitialized"
  | .initialized => "initialized"
  | .closed => "closed"

def State.print : State → String
  | .uninitialized => "Uninitialized"
  | .initialized => "Initialized"
  | .closed => "Closed"

end Session

structure Session where
  world : World
  guest : Option Guest := none
  state : Session.State := .uninitialized
  pending : Slot StepResult := .empty

namespace Session

def isInitialized (s : Session) : Bool :=
  s.state = .initialized

/-- Releases the live guest, if there is one. -/
def close (s : Session) : Session :=
  match s.guest with
  | none => s
  | some g => { s with world := s.world.close g, guest := none, state := .closed }

/-- Releases a live guest, then constructs and starts the next one. Only a guest that has started
and is ready becomes live; one that is constructed and not live is released again. -/
def tryBoot (s : Session) : Except InitError Unit × Session :=
  let s := { s.close with state := .uninitialized }
  match s.world.create with
  | (.error e, world) => (.error (.construct e), { s with world })
  | (.ok g, world) =>
    match world.start g with
    | (.ok true, world) => (.ok (), { s with world, guest := some g, state := .initialized })
    | (.ok false, world) => (.error .notReady, { s with world := world.close g })
    | (.error e, world) => (.error (.startup e), { s with world := world.close g })

/-- Starts the next guest and tells only whether it is live. -/
def boot (s : Session) : Bool × Session :=
  let (outcome, s) := s.tryBoot
  (outcome.isOk, s)

/-- Advances the live guest by one step. An error of the guest is a result like any other. -/
def step (synchronized : Bool) (s : Session) : Except SessionError StepResult × Session :=
  match s.guest with
  | none => (.error .notInitialized, s)
  | some g =>
    let (outcome, g, world) := s.world.step synchronized g
    (.ok (.ofOutcome outcome), { s with world, guest := some g })

/-- Hands the encoded form of a signal to the live guest. A signal without one never reaches it. -/
def signal (sig : Signal) (s : Session) : Except SessionError Unit × Session :=
  match s.guest with
  | none => (.error .notInitialized, s)
  | some g =>
    match sig.encode with
    | .error e => (.error (.encode e), s)
    | .ok payload =>
      let (outcome, g, world) := s.world.signal payload g
      (outcome.mapError .guest, { s with world, guest := some g })

/-- Keeps the result of a synchronized step. The answer is a result nobody has taken. -/
def store (r : StepResult) (s : Session) : Option StepResult × Session :=
  let (displaced, pending) := s.pending.put r
  (displaced, { s with pending })

def take (s : Session) : Option StepResult × Session :=
  let (taken, pending) := s.pending.take
  (taken, { s with pending })

/-! ## What the operations leave alone -/

@[simp] theorem guest_close (s : Session) : s.close.guest = none := by
  unfold close
  split
  · assumption
  · rfl

@[simp] theorem pending_close (s : Session) : s.close.pending = s.pending := by
  unfold close
  split <;> rfl

@[simp] theorem pending_tryBoot (s : Session) : s.tryBoot.2.pending = s.pending := by
  unfold tryBoot
  dsimp only
  split
  · exact pending_close s
  · split <;> exact pending_close s

@[simp] theorem pending_step (s : Session) (synchronized : Bool) :
    (s.step synchronized).2.pending = s.pending := by
  unfold step
  split <;> rfl

@[simp] theorem state_step (s : Session) (synchronized : Bool) :
    (s.step synchronized).2.state = s.state := by
  unfold step
  split <;> rfl

@[simp] theorem pending_signal (s : Session) (sig : Signal) :
    (s.signal sig).2.pending = s.pending := by
  unfold signal
  split
  · rfl
  · split <;> rfl

@[simp] theorem state_signal (s : Session) (sig : Signal) : (s.signal sig).2.state = s.state := by
  unfold signal
  split
  · rfl
  · split <;> rfl

/-! ## Printing -/

def print (s : Session) : String :=
  "Session \x7b state: " ++ s.state.print ++ ", has_guest: " ++ Text.printBool s.guest.isSome ++
    ", pending: " ++ Text.printOption (s.pending.peek.map StepResult.print) ++ ", .. \x7d"

/-! ## Calls in sequence -/

inductive Call where
  | boot
  | tryBoot
  | close
  | step (synchronized : Bool)
  | signal (sig : Signal)
  | store (r : StepResult)
  | take

inductive Answer where
  | started (live : Bool)
  | attempted (outcome : Except InitError Unit)
  | done
  | stepped (outcome : Except SessionError StepResult)
  | delivered (outcome : Except SessionError Unit)
  | displaced (r : Option StepResult)
  | taken (r : Option StepResult)

def call (s : Session) : Call → Answer × Session
  | .boot => s.boot.map .started id
  | .tryBoot => s.tryBoot.map .attempted id
  | .close => (.done, s.close)
  | .step synchronized => (s.step synchronized).map .stepped id
  | .signal sig => (s.signal sig).map .delivered id
  | .store r => (s.store r).map .displaced id
  | .take => s.take.map .taken id

def run (s : Session) : List Call → List Answer × Session
  | [] => ([], s)
  | c :: cs =>
    let (answer, s) := s.call c
    let (answers, s) := s.run cs
    (answer :: answers, s)

end Session

end Tether
