import Tether.Proofs.Controller.Calls

/-! # Results of synchronized steps are taken once

What a drain returns is decided by the calls before it: the last synchronized step, if nobody has
taken its result since, and no guest has been called for. -/

namespace Tether

namespace Controller

/-! ## What a call does with the kept result -/

/-- A call that leaves nothing kept. -/
def Call.takes : Call → Bool
  | .boot => true
  | .runThreaded drain => drain
  | _ => false

/-- A call that neither takes the kept result nor puts another in its place: a release, a threaded
step, a signal, or a change of the disk. -/
def Call.Passes (k : Call) : Prop :=
  k.takes = false ∧ k ≠ .runSynchronized

theorem takes_or_passes (k : Call) : k.takes ∨ k = .runSynchronized ∨ k.Passes := by
  by_cases htakes : k.takes
  · exact .inl htakes
  · by_cases hstep : k = .runSynchronized
    · exact .inr (.inl hstep)
    · exact .inr (.inr ⟨Bool.eq_false_iff.mpr htakes, hstep⟩)

/-- The result that is kept, if there is one. -/
def kept (c : Controller) : Option StepResult :=
  c.session.pending.peek

section

variable {c : Controller} {k : Call}

theorem kept_of_takes (h : k.takes) : (c.call k).2.kept = none := by
  cases k with
  | boot => exact congrArg Slot.peek (Session.pending_tryBoot c.session.take.2)
  | runThreaded drain =>
      cases drain with
      | true => rfl
      | false => cases h
  | close | runSynchronized | signal | change => cases h

theorem kept_runSynchronized : (c.call .runSynchronized).2.kept = some c.session.outcome :=
  congrArg some (Session.ofOutcome_step c.session true)

theorem kept_of_passes (h : k.Passes) : (c.call k).2.kept = c.kept := by
  cases k with
  | boot => cases h.1
  | close => exact congrArg Slot.peek (Session.pending_close c.session)
  | runSynchronized => exact absurd rfl h.2
  | runThreaded drain =>
      cases drain with
      | true => cases h.1
      | false => exact congrArg Slot.peek (Session.pending_step c.session false)
  | signal sig => exact congrArg Slot.peek (Session.pending_signal c.session sig)
  | change change => rfl

end

/-! ## What is kept after a run -/

/-- Calls that are made up of some calls before, a synchronized step, and calls of one kind. -/
def SteppedThen (kind : Call → Prop) (before past : List Call) : Prop :=
  ∃ after, past = before ++ .runSynchronized :: after ∧ ∀ k ∈ after, kind k

section

variable {kind : Call → Prop} {before past : List Call} {k : Call}

theorem not_steppedThen_nil : ¬ SteppedThen kind before [] := by
  rintro ⟨after, hpast, -⟩
  simp at hpast

/-- The last call is the synchronized step, or comes after it. -/
theorem steppedThen_concat : SteppedThen kind before (past ++ [k]) ↔
    (k = .runSynchronized ∧ before = past) ∨ (kind k ∧ SteppedThen kind before past) := by
  unfold SteppedThen
  constructor
  · rintro ⟨after, hpast, hafter⟩
    rcases concat_eq_append_cons.mp hpast with ⟨hk, hbefore, -⟩ | ⟨rest, hrest, rfl⟩
    · exact .inl ⟨hk.symm, hbefore⟩
    · rw [List.forall_mem_append, List.forall_mem_singleton] at hafter
      exact .inr ⟨hafter.2, rest, hrest, hafter.1⟩
  · rintro (⟨rfl, rfl⟩ | ⟨hk, rest, hrest, hkind⟩)
    · exact ⟨[], rfl, List.forall_mem_nil _⟩
    · refine ⟨rest ++ [k], concat_eq_append_cons.mpr (.inr ⟨rest, hrest, rfl⟩), ?_⟩
      rw [List.forall_mem_append, List.forall_mem_singleton]
      exact ⟨hkind, hk⟩

end

variable {start : Controller}

/-- A result is kept if and only if there was a synchronized step, and no call has taken its result
since. -/
theorem kept_isSome_run (h : start.kept = none) (past : List Call) :
    (start.run past).2.kept.isSome ↔
      ∃ before, SteppedThen (fun k => k.takes = false) before past := by
  induction past using List.reverseRecOn with
  | nil => simp [h, not_steppedThen_nil]
  | append_singleton past k ih =>
      rw [run_concat]
      simp only [steppedThen_concat]
      rcases takes_or_passes k with htakes | rfl | hpasses
      · have hne : k ≠ .runSynchronized := by
          rintro rfl
          cases htakes
        simp [kept_of_takes htakes, htakes, hne]
      · simp [kept_runSynchronized]
      · rw [kept_of_passes hpasses, ih]
        simp [hpasses.1, hpasses.2]

/-- The kept result is that of the last synchronized step, if only calls that pass it by have come
after. -/
theorem kept_run (h : start.kept = none) (past : List Call) (r : StepResult) :
    (start.run past).2.kept = some r ↔
      ∃ before, SteppedThen Call.Passes before past ∧ (start.run before).2.session.outcome = r := by
  induction past using List.reverseRecOn with
  | nil => simp [h, not_steppedThen_nil]
  | append_singleton past k ih =>
      rw [run_concat]
      simp only [steppedThen_concat]
      rcases takes_or_passes k with htakes | rfl | hpasses
      · have hne : k ≠ .runSynchronized := by
          rintro rfl
          cases htakes
        simp [kept_of_takes htakes, htakes, hne, Call.Passes]
      · simp [kept_runSynchronized, Call.Passes]
      · rw [kept_of_passes hpasses, ih]
        simp [hpasses, hpasses.2]

theorem kept_run_of_passes {ks : List Call} (h : ∀ k ∈ ks, k.Passes) (c : Controller) :
    (c.run ks).2.kept = c.kept := by
  induction ks generalizing c with
  | nil => rfl
  | cons k ks ih =>
      obtain ⟨hk, hks⟩ := List.forall_mem_cons.mp h
      rw [run_cons, ih hks, kept_of_passes hk]

/-- A drain in the middle of a run returns the outcome of the last synchronized step, if no guest has
been called for and nothing has been drained since, and else nothing. Other calls before it make no
difference to that, and it makes none to anything but the kept result. A guest is told of the phase it
takes its step in. -/
theorem drain_takes_last (scripts : List Script) (disk : Disk) (watch : Watch)
    (past future : List Call) :
    let start := ofWorld { scripts, disk } watch
    let drained := fun past => (start.run (past ++ .runThreaded true :: future)).1[past.length]?
    (∃ taken, drained past = some (.result taken) ∧
      (taken.isSome ↔ ∃ before, SteppedThen (fun k => k.takes = false) before past) ∧
      (∀ r, taken = some r ↔ ∃ before,
        SteppedThen Call.Passes before past ∧ (start.run before).2.session.outcome = r)) ∧
    (∀ passing, (∀ k ∈ passing, Call.Passes k) → drained (past ++ passing) = drained past) ∧
    ((start.run past).2.call (.runThreaded true)).2.session =
      { (start.run past).2.session with pending := .empty } ∧
    let c := (start.run past).2
    let stepped := fun synchronized =>
      c.session.world.log ++ (c.session.guest.map fun g => Event.step g.number synchronized).toList
    (c.call .runSynchronized).2.session.world.log = stepped true ∧
      (c.call (.runThreaded false)).2.session.world.log = stepped false := by
  intro start drained
  have hstart : start.kept = none := rfl
  have hdrained (ks : List Call) : drained ks = some (.result (start.run ks).2.kept) :=
    getElem?_answers start ks future (.runThreaded true)
  refine ⟨⟨(start.run past).2.kept, hdrained past, ?_, ?_⟩, ?_, rfl, ?_⟩
  · exact kept_isSome_run hstart past
  · exact kept_run hstart past
  · intro passing hpassing
    have hkept := kept_run_of_passes hpassing (start.run past).2
    rw [hdrained, hdrained, run_append]
    exact congrArg (fun r => some (Answer.result r)) hkept
  · intro c stepped
    exact ⟨c.session.log_step true, c.session.log_step false⟩

example :
    let calls := [.boot, .runSynchronized, .close, .runThreaded true, .runThreaded true]
    ((ofWorld { scripts := [{}] } .disabled).run calls).1 =
      [.started true, .done, .done, .result (some .proceed), .result none] := by
  rfl

end Controller

end Tether
