import Tether.Proofs.Session.Lifecycle

/-! # The lifecycle machine of a session

The machine has three states and looks at nothing but the calls and at which guests come up. A
session follows it whatever its guests do, and owns a guest in one of the states only. -/

namespace Tether

/-- The guest of this number is constructed, and its startup reports that it is ready. -/
def comesUp (scripts : List Script) (i : Nat) : Bool :=
  match scripts[i]? with
  | none => false
  | some script =>
    match script.create, script.start with
    | .done (), .done ready => ready
    | _, _ => false

theorem comesUp_iff {scripts : List Script} {i : Nat} :
    comesUp scripts i ↔ Constructed scripts i ∧ Ready scripts i := by
  cases hscript : scripts[i]? with
  | none => simp [comesUp, Constructed, Ready, hscript]
  | some script =>
      rw [constructed_iff hscript, ready_iff hscript, Reply.guarded_eq_ok, Reply.guarded_eq_ok]
      simp only [comesUp, hscript]
      cases script.create <;> cases script.start <;> simp

namespace Session

/-- A session as its host knows it: where it stands, and how many guests it has called for. -/
structure Machine where
  state : State := .uninitialized
  called : Nat := 0
  deriving DecidableEq

namespace Machine

/-- The machine after one more call. Nothing but starts and releases moves it. -/
def next (scripts : List Script) (m : Machine) : Call → Machine
  | .boot | .tryBoot =>
    { state := if comesUp scripts m.called then .initialized else .uninitialized
      called := m.called + 1 }
  | .close => { m with state := if m.state = .initialized then .closed else m.state }
  | .step _ | .signal _ | .store _ | .take => m

/-- The machine after these calls. -/
def after (scripts : List Script) (past : List Call) : Machine :=
  past.foldl (next scripts) {}

/-- The number of the live guest: the last one called for, if it came up and was not released. -/
def live? (m : Machine) : Option Nat :=
  if m.state = .initialized then some (m.called - 1) else none

theorem next_tryBoot_of_up {scripts : List Script} {m : Machine} (h : comesUp scripts m.called) :
    m.next scripts .tryBoot = ⟨.initialized, m.called + 1⟩ := by
  rw [next, if_pos h]

theorem next_tryBoot_of_down {scripts : List Script} {m : Machine} (h : ¬ comesUp scripts m.called) :
    m.next scripts .tryBoot = ⟨.uninitialized, m.called + 1⟩ := by
  rw [next, if_neg h]

theorem live?_isSome (m : Machine) : m.live?.isSome ↔ m.state = .initialized := by
  unfold live?
  split <;> simp_all

end Machine

/-! ## A session follows the machine -/

/-- The session stands where the machine stands, and its guest is the one that is live. -/
structure Follows (scripts : List Script) (m : Machine) (s : Session) : Prop where
  scripts_eq : s.world.scripts = scripts
  called_eq : s.world.created = m.called
  state_eq : s.state = m.state
  live_eq : s.guest.map Guest.number = m.live?

section

variable {scripts : List Script} {m : Machine} {s : Session}

theorem Follows.owns_iff (h : s.Follows scripts m) : s.guest.isSome ↔ s.state = .initialized := by
  rw [h.state_eq, ← m.live?_isSome, ← h.live_eq, Option.isSome_map]

theorem follows_start (scripts : List Script) (disk : Disk) :
    Follows scripts {} { world := { scripts, disk } } :=
  ⟨rfl, rfl, rfl, rfl⟩

theorem follows_close (h : s.Follows scripts m) : s.close.Follows scripts (m.next scripts .close) := by
  have howns := h.owns_iff
  rw [h.state_eq] at howns
  cases hguest : s.guest with
  | none =>
      have hstate : m.state ≠ .initialized := by simpa [hguest] using howns
      have hnext : m.next scripts .close = m := by simp [Machine.next, hstate]
      rw [close_of_none hguest, hnext]
      exact h
  | some g =>
      have hstate : m.state = .initialized := by simpa [hguest] using howns
      rw [close_of_some hguest]
      refine ⟨h.scripts_eq, h.called_eq, ?_, ?_⟩
      · simp [Machine.next, hstate]
      · simp [Machine.next, Machine.live?, hstate]

/-- A start looks at the session only after the guest before has been released, and leaves it
initialized exactly if the guest called for comes up. -/
theorem follows_tryBoot (h : s.Follows scripts m) :
    s.tryBoot.2.Follows scripts (m.next scripts .tryBoot) := by
  have hclose := follows_close h
  have hcalled : s.close.world.created = m.called := hclose.called_eq
  have hnext : s.close.world.created + 1 = m.called + 1 := congrArg (· + 1) hcalled
  have hup : comesUp scripts m.called ↔ Constructed scripts m.called ∧ Ready scripts m.called :=
    comesUp_iff
  rw [tryBoot_eq, hclose.scripts_eq, hcalled]
  dsimp only
  split
  · rename_i e hfate
    have hdown : ¬ comesUp scripts m.called := fun h => fate_unconstructed hfate (hup.mp h).1
    rw [Machine.next_tryBoot_of_down hdown]
    exact ⟨hclose.scripts_eq, hnext, rfl, by simp [Machine.live?]⟩
  · rename_i e hfate
    have hdown : ¬ comesUp scripts m.called := fun h => (fate_unready hfate).2 (hup.mp h).2
    rw [Machine.next_tryBoot_of_down hdown]
    exact ⟨hclose.scripts_eq, hnext, rfl, by simp [Machine.live?]⟩
  · rename_i script hfate
    rw [Machine.next_tryBoot_of_up (hup.mpr (fate_ready hfate).2)]
    exact ⟨hclose.scripts_eq, hnext, rfl, by simp [Machine.live?]⟩

theorem follows_step (h : s.Follows scripts m) (synchronized : Bool) :
    (s.step synchronized).2.Follows scripts m := by
  rcases s.step_cases synchronized with hsame | ⟨g, hguest, hstep⟩
  · rw [hsame]
    exact h
  · have hlive := h.live_eq
    rw [hstep]
    refine ⟨h.scripts_eq, h.called_eq, h.state_eq, ?_⟩
    simpa [hguest] using hlive

theorem follows_signal (h : s.Follows scripts m) (sig : Signal) :
    (s.signal sig).2.Follows scripts m := by
  rcases s.signal_cases sig with hsame | ⟨g, payload, hguest, -, hsignal⟩
  · rw [hsame]
    exact h
  · have hlive := h.live_eq
    rw [hsignal]
    refine ⟨h.scripts_eq, h.called_eq, h.state_eq, ?_⟩
    simpa [hguest] using hlive

theorem follows_pending (h : s.Follows scripts m) (pending : Slot StepResult) :
    Follows scripts m { s with pending } :=
  ⟨h.scripts_eq, h.called_eq, h.state_eq, h.live_eq⟩

theorem follows_call (h : s.Follows scripts m) (c : Call) :
    (s.call c).2.Follows scripts (m.next scripts c) := by
  cases c with
  | boot => exact follows_tryBoot h
  | tryBoot => exact follows_tryBoot h
  | close => exact follows_close h
  | step synchronized => exact follows_step h synchronized
  | signal sig => exact follows_signal h sig
  | store r => exact follows_pending h _
  | take => exact follows_pending h _

theorem follows_run (h : s.Follows scripts m) (cs : List Call) :
    (s.run cs).2.Follows scripts (cs.foldl (Machine.next scripts) m) := by
  induction cs generalizing s m with
  | nil => exact h
  | cons c cs ih =>
      rw [run_cons, List.foldl_cons]
      exact ih (follows_call h c)

end

/-! ## The flag, the guest and the answers -/

/-- The flag that a host polls, the guest that is owned, and the answers to calls tell the same. -/
structure Coherent (s : Session) : Prop where
  polled : s.isInitialized ↔ s.state = .initialized
  owned : s.guest.isSome ↔ s.state = .initialized
  started : s.boot.1 = true ↔ s.boot.2.state = .initialized
  attempted : s.tryBoot.1 = .ok () ↔ s.tryBoot.2.state = .initialized
  boot_eq : s.boot = (s.tryBoot.1.isOk, s.tryBoot.2)
  unstepped : ∀ synchronized,
    (s.step synchronized).1 = .error .notInitialized ↔ s.state ≠ .initialized
  undelivered : ∀ sig, (s.signal sig).1 = .error .notInitialized ↔ s.state ≠ .initialized

theorem tryBoot_eq_ok (s : Session) : s.tryBoot.1 = .ok () ↔ s.tryBoot.2.state = .initialized := by
  rw [tryBoot_eq]
  dsimp only
  split <;> simp

theorem boot_eq_true (s : Session) : s.boot.1 = true ↔ s.tryBoot.1 = .ok () := by
  have hboot : s.boot.1 = s.tryBoot.1.isOk := rfl
  rw [hboot]
  cases s.tryBoot.1 <;> simp [Except.isOk, Except.toBool]

theorem step_eq_notInitialized (s : Session) (synchronized : Bool) :
    (s.step synchronized).1 = .error .notInitialized ↔ s.guest = none := by
  cases hguest : s.guest with
  | none => simp [step_of_none hguest]
  | some g => simp [step_of_some hguest]

/-- No error of a guest is taken for a missing one. -/
theorem mapError_guest_ne (outcome : Except GuestError Unit) :
    outcome.mapError .guest ≠ .error SessionError.notInitialized := by
  intro h
  cases outcome with
  | error e => cases h
  | ok u => cases h

theorem signal_eq_notInitialized (s : Session) (sig : Signal) :
    (s.signal sig).1 = .error .notInitialized ↔ s.guest = none := by
  cases hguest : s.guest with
  | none => simp [signal_of_none hguest]
  | some g =>
      cases hsig : sig.encode with
      | error e => simp [signal_of_error hguest hsig]
      | ok payload => simp [signal_of_ok hguest hsig, mapError_guest_ne]

theorem Follows.coherent {scripts : List Script} {m : Machine} {s : Session}
    (h : s.Follows scripts m) : s.Coherent := by
  have hnone : s.guest = none ↔ s.state ≠ .initialized := by
    rw [ne_eq, ← h.owns_iff, Option.not_isSome_iff_eq_none]
  refine ⟨by simp [isInitialized], h.owns_iff, ?_, tryBoot_eq_ok s, rfl, ?_, ?_⟩
  · exact (boot_eq_true s).trans (tryBoot_eq_ok s)
  · intro synchronized
    exact (step_eq_notInitialized s synchronized).trans hnone
  · intro sig
    exact (signal_eq_notInitialized s sig).trans hnone

/-- After any calls the session stands where the machine stands, and its flag, its guest and its
answers agree on that. -/
theorem run_follows_machine (scripts : List Script) (disk : Disk) (past : List Call) :
    let s := (run { world := { scripts, disk } } past).2
    s.state = (Machine.after scripts past).state ∧ s.Coherent := by
  have h := follows_run (follows_start scripts disk) past
  exact ⟨h.state_eq, h.coherent⟩

example :
    let scripts : List Script := [{ close := .panicked .other }, { start := .done false }, {}]
    let calls := [.boot, .boot, .close, .tryBoot, .step true, .close]
    (List.range 7).map (fun n => (run { world := { scripts } } (calls.take n)).2.state) =
      [.uninitialized, .initialized, .uninitialized, .uninitialized, .initialized, .initialized,
        .closed] := by
  rfl

end Session

end Tether
