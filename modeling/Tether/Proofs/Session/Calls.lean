import Tether.Session

/-! # What calls on a session do

One equation for each operation says all it does to the session and its world; later proofs rewrite
with these equations and do not open the operations. What a run keeps is what every call keeps. -/

namespace Tether

/-- What one more call adds to a count of calls. -/
theorem countP_cons_toNat {α : Type} (p : α → Bool) (a : α) (as : List α) :
    (a :: as).countP p = (p a).toNat + as.countP p := by
  rw [List.countP_cons, Nat.add_comm]
  cases p a <;> rfl

/-! ## Scripts of guests -/

theorem Reply.guarded_eq_ok {α : Type} {r : Reply α} {a : α} : r.guarded = .ok a ↔ r = .done a := by
  cases r <;> simp [guarded]

/-- The guest of this number is constructed. -/
def Constructed (scripts : List Script) (i : Nat) : Prop :=
  ∃ script, scripts[i]? = some script ∧ script.create = .done ()

/-- The startup of the guest of this number succeeds and reports that it is ready. -/
def Ready (scripts : List Script) (i : Nat) : Prop :=
  ∃ script, scripts[i]? = some script ∧ script.start = .done true

/-- What becomes of a guest until it can be used. -/
inductive Fate where
  | unconstructed (e : GuestError)
  | unready (e : InitError)
  | ready (script : Script)

/-- What becomes of the guest of this number. -/
def fate (scripts : List Script) (i : Nat) : Fate :=
  match scripts[i]? with
  | none => .unconstructed (.image "no more guests")
  | some script =>
    match script.create.guarded, script.start.guarded with
    | .error e, _ => .unconstructed e
    | .ok (), .error e => .unready (.startup e)
    | .ok (), .ok false => .unready .notReady
    | .ok (), .ok true => .ready script

section

variable {scripts : List Script} {i : Nat} {script : Script}

theorem constructed_iff (h : scripts[i]? = some script) :
    Constructed scripts i ↔ script.create.guarded = .ok () := by
  rw [Reply.guarded_eq_ok]
  constructor
  · rintro ⟨found, hfound, hcreate⟩
    rw [h] at hfound
    cases hfound
    exact hcreate
  · intro hcreate
    exact ⟨script, h, hcreate⟩

theorem ready_iff (h : scripts[i]? = some script) :
    Ready scripts i ↔ script.start.guarded = .ok true := by
  rw [Reply.guarded_eq_ok]
  constructor
  · rintro ⟨found, hfound, hstart⟩
    rw [h] at hfound
    cases hfound
    exact hstart
  · intro hstart
    exact ⟨script, h, hstart⟩

theorem fate_unconstructed {e : GuestError} (h : fate scripts i = .unconstructed e) :
    ¬ Constructed scripts i := by
  intro hconstructed
  obtain ⟨script, hscript, -⟩ := id hconstructed
  rw [constructed_iff hscript] at hconstructed
  simp only [fate, hscript, hconstructed] at h
  split at h <;> simp_all

theorem fate_unready {e : InitError} (h : fate scripts i = .unready e) :
    Constructed scripts i ∧ ¬ Ready scripts i := by
  unfold fate at h
  split at h
  · cases h
  · rename_i script hscript
    rw [constructed_iff hscript, ready_iff hscript]
    split at h <;> simp_all

theorem fate_ready (h : fate scripts i = .ready script) :
    scripts[i]? = some script ∧ Constructed scripts i ∧ Ready scripts i := by
  unfold fate at h
  split at h
  · cases h
  · rename_i found hscript
    rw [constructed_iff hscript, ready_iff hscript]
    split at h <;> simp_all

end

/-! ## The world and its log -/

namespace World

variable (w : World) (e : Event) (g : Guest)

@[simp] theorem log_record : (w.record e).log = w.log ++ [e] := rfl

@[simp] theorem scripts_record : (w.record e).scripts = w.scripts := rfl

@[simp] theorem created_record : (w.record e).created = w.created := rfl

@[simp] theorem disk_record : (w.record e).disk = w.disk := rfl

theorem close_eq : w.close g = w.record (.close g.number) := by
  unfold close
  split <;> rfl

/-- The world after one more guest has been called for. -/
def callForGuest : World :=
  { w.record (.create w.created) with created := w.created + 1 }

end World

namespace Guest

variable (g : Guest)

@[simp] theorem number_nextStep : g.nextStep.2.number = g.number := by
  unfold nextStep
  split <;> rfl

@[simp] theorem number_nextSignal : g.nextSignal.2.number = g.number := by
  unfold nextSignal
  split <;> rfl

end Guest

/-! ## Operations of a session -/

namespace Session

variable {s : Session} {g : Guest}

theorem close_of_none (h : s.guest = none) : s.close = s := by
  simp only [close, h]

theorem close_of_some (h : s.guest = some g) : s.close =
    { s with world := s.world.record (.close g.number), guest := none, state := .closed } := by
  simp only [close, h, World.close_eq]

theorem tryBoot_eq (s : Session) : s.tryBoot =
    let i := s.close.world.created
    let w := s.close.world.callForGuest
    match fate s.close.world.scripts i with
    | .unconstructed e => (.error (.construct e), { s.close with state := .uninitialized, world := w })
    | .unready e => (.error e, { s.close with
        state := .uninitialized
        world := (w.record (.start i)).record (.close i) })
    | .ready script => (.ok (), { s.close with
        state := .initialized
        world := w.record (.start i)
        guest := some ⟨i, script⟩ }) := by
  simp only [tryBoot, World.create, World.start, World.close_eq, fate, World.callForGuest]
  cases s.close.world.scripts[s.close.world.created]? with
  | none => rfl
  | some script =>
      dsimp only
      cases script.create.guarded with
      | error e => rfl
      | ok u =>
          cases hstart : script.start.guarded with
          | error e => simp only [Except.map, hstart]
          | ok ready => cases ready <;> simp only [Except.map, hstart]

theorem step_of_none (h : s.guest = none) (synchronized : Bool) :
    s.step synchronized = (.error .notInitialized, s) := by
  simp only [step, h]

theorem step_of_some (h : s.guest = some g) (synchronized : Bool) : s.step synchronized =
    (.ok (.ofOutcome g.nextStep.1.reply.guarded), { s with
      world := { s.world.record (.step g.number synchronized) with
        disk := g.nextStep.1.changes.foldl Disk.apply s.world.disk }
      guest := some g.nextStep.2 }) := by
  simp only [step, h]
  rfl

theorem signal_of_none (h : s.guest = none) (sig : Signal) :
    s.signal sig = (.error .notInitialized, s) := by
  simp only [signal, h]

theorem signal_of_error {e : EncodeError} (h : s.guest = some g) {sig : Signal}
    (hsig : sig.encode = .error e) : s.signal sig = (.error (.encode e), s) := by
  simp only [signal, h, hsig]

theorem signal_of_ok {payload : Octets} (h : s.guest = some g) {sig : Signal}
    (hsig : sig.encode = .ok payload) : s.signal sig =
    (g.nextSignal.1.guarded.mapError .guest, { s with
      world := s.world.record (.signal g.number payload)
      guest := some g.nextSignal.2 }) := by
  simp only [signal, h, hsig]
  rfl

/-- A step changes the session through its guest or not at all. -/
theorem step_cases (s : Session) (synchronized : Bool) :
    (s.step synchronized).2 = s ∨ ∃ g, s.guest = some g ∧ (s.step synchronized).2 = { s with
      world := { s.world.record (.step g.number synchronized) with
        disk := g.nextStep.1.changes.foldl Disk.apply s.world.disk }
      guest := some g.nextStep.2 } := by
  cases hguest : s.guest with
  | none => exact .inl (by rw [step_of_none hguest])
  | some g => exact .inr ⟨g, rfl, by rw [step_of_some hguest]⟩

/-- The step of a live guest is logged with the phase it is taken in. -/
theorem log_step (s : Session) (synchronized : Bool) : (s.step synchronized).2.world.log =
    s.world.log ++ (s.guest.map fun g => .step g.number synchronized).toList := by
  cases hguest : s.guest with
  | none =>
      rw [step_of_none hguest]
      exact (List.append_nil _).symm
  | some g =>
      rw [step_of_some hguest]
      rfl

/-- A push changes the session by a payload that reaches the guest, or not at all. -/
theorem signal_cases (s : Session) (sig : Signal) : (s.signal sig).2 = s ∨
    ∃ g payload, s.guest = some g ∧ sig.encode = .ok payload ∧ (s.signal sig).2 = { s with
      world := s.world.record (.signal g.number payload)
      guest := some g.nextSignal.2 } := by
  cases hguest : s.guest with
  | none => exact .inl (by rw [signal_of_none hguest])
  | some g =>
      cases hsig : sig.encode with
      | error e => exact .inl (by rw [signal_of_error hguest hsig])
      | ok payload => exact .inr ⟨g, payload, rfl, rfl, by rw [signal_of_ok hguest hsig]⟩

/-- What the next step tells the host: the guest's own answer, or an error that names the failure, the
panic or the missing guest. -/
def outcome (s : Session) : StepResult :=
  match s.guest with
  | none => .error "guestlink_core::common::error::SessionError: session has no live guest"
  | some g =>
    match g.nextStep.1.reply with
    | .done r => r
    | .failed e => .error ("guestlink_core::common::error::GuestError: " ++ e.message)
    | .panicked p =>
      .error ("guestlink_core::common::error::GuestError: guest panicked: " ++ p.message)

theorem ofOutcome_step (s : Session) (synchronized : Bool) :
    StepResult.ofOutcome (s.step synchronized).1 = s.outcome := by
  unfold outcome
  split
  · rename_i hguest
    rw [step_of_none hguest]
    rfl
  · rename_i g hguest
    rw [step_of_some hguest]
    cases g.nextStep.1.reply with
    | done r => rfl
    | failed e => rfl
    | panicked p => exact congrArg StepResult.error (String.append_assoc ..).symm

/-! ## Calls -/

theorem call_boot (s : Session) : s.call .boot = (.started s.tryBoot.1.isOk, s.tryBoot.2) := rfl

theorem call_tryBoot (s : Session) : s.call .tryBoot = (.attempted s.tryBoot.1, s.tryBoot.2) := rfl

theorem call_close (s : Session) : s.call .close = (.done, s.close) := rfl

theorem call_step (s : Session) (synchronized : Bool) : s.call (.step synchronized) =
    (.stepped (s.step synchronized).1, (s.step synchronized).2) := rfl

theorem call_signal (s : Session) (sig : Signal) :
    s.call (.signal sig) = (.delivered (s.signal sig).1, (s.signal sig).2) := rfl

/-! ## Runs -/

@[simp] theorem run_nil (s : Session) : s.run [] = ([], s) := rfl

theorem run_cons (s : Session) (c : Call) (cs : List Call) :
    s.run (c :: cs) = ((s.call c).1 :: ((s.call c).2.run cs).1, ((s.call c).2.run cs).2) := rfl

/-- What every call keeps holds after a run. -/
theorem run_keeps (P : Session → Prop) (hcall : ∀ s c, P s → P (s.call c).2) (h : P s)
    (cs : List Call) : P (s.run cs).2 := by
  induction cs generalizing s with
  | nil => exact h
  | cons c cs ih =>
      rw [run_cons]
      exact ih (hcall s c h)

end Session

end Tether
