import Tether.Proofs.Controller.Statistics
import Tether.Proofs.Session.Restart

/-! # Both phases report the same step

A host may take a step in the synchronized phase and drain its result later, or take it in the
threaded phase and have the result at once. Guests behave alike in both phases, so only a forced
reload can tell the two apart. -/

namespace Tether.Controller

/-- The next step takes the watched image from one time to another, whether it succeeds or not. -/
def StepMovesImage (c : Controller) : Prop :=
  ∃ path before after, c.watch.path = some path ∧
    c.session.world.disk.modified? path = some before ∧
    (c.session.plannedChanges.foldl Disk.apply c.session.world.disk).modified? path = some after ∧
    before ≠ after

/-- What one step leaves behind, in whichever phase it is taken: the guest has gone one step on, has
done to the disk what it planned, and the step is counted, also as a failure if it is one. -/
structure Stepped (c d : Controller) : Prop where
  state_eq : d.session.state = c.session.state
  guest_eq : d.session.guest = c.session.guest.map fun g => g.nextStep.2
  disk_eq : d.session.world.disk =
    c.session.plannedChanges.foldl Disk.apply c.session.world.disk
  watch_eq : d.watch = c.watch
  totalSteps_eq : d.stats.totalSteps = c.stats.totalSteps + 1
  stepFailures_eq : d.stats.stepFailures = c.stats.stepFailures + c.session.outcome.isError.toNat

theorem guest_step (s : Session) (synchronized : Bool) :
    (s.step synchronized).2.guest = s.guest.map fun g => g.nextStep.2 := by
  cases hguest : s.guest with
  | none =>
      rw [Session.step_of_none hguest]
      exact hguest
  | some g => rw [Session.step_of_some hguest, Option.map_some]

variable (c : Controller)

theorem stepped_runSynchronized : c.Stepped c.runSynchronized.drain.2 := by
  rw [runSynchronized_eq]
  refine ⟨c.session.state_step true, guest_step c.session true, c.session.disk_step true, rfl, ?_, rfl⟩
  exact (Nat.add_assoc _ _ 1).symm

theorem stepped_stepThreaded : c.Stepped c.stepThreaded.2 := by
  rw [stepThreaded_eq]
  refine ⟨c.session.state_step false, guest_step c.session false, c.session.disk_step false, rfl,
    ?_, rfl⟩
  exact Nat.add_right_comm _ 1 _

theorem drain_runSynchronized : c.runSynchronized.drain.1 = some c.session.outcome :=
  c.kept_runSynchronized

/-- A reload is forced only by a step that moves the image. -/
theorem reloads_eq_false {c : Controller} (h : ¬ c.StepMovesImage) : c.reloads = false := by
  by_contra hreloads
  rw [Bool.not_eq_false, reloads_iff] at hreloads
  obtain ⟨path, g, r, before, after, hpath, hguest, -, -, hbefore, hafter, hne⟩ := hreloads
  refine h ⟨path, before, after, hpath, hbefore, ?_, hne⟩
  rw [Session.plannedChanges_of_some hguest]
  exact hafter

/-- A step that is not watched, or does not move the watched image, is reported alike in both phases:
the host is told the same, errors word for word, and the same is left behind. A result that was kept
before is of no account. -/
theorem phases_agree {c : Controller} (h : c.watch = .disabled ∨ ¬ c.StepMovesImage) :
    let drained := c.run [.runSynchronized, .runThreaded true]
    let direct := c.run [.runThreaded false]
    drained.1 = [.done, .result (some c.session.outcome)] ∧
    direct.1 = [.result (some c.session.outcome)] ∧
    c.Stepped drained.2 ∧
    c.Stepped direct.2 := by
  intro drained direct
  have hstill : ¬ c.StepMovesImage := by
    rcases h with hdisabled | hstill
    · rintro ⟨path, before, after, hpath, -⟩
      rw [hdisabled] at hpath
      cases hpath
    · exact hstill
  have hdirect : c.stepThreaded.1 = c.session.outcome := by
    rw [stepThreaded_eq, reloads_eq_false hstill]
    rfl
  refine ⟨?_, ?_, c.stepped_runSynchronized, c.stepped_stepThreaded⟩
  · exact congrArg (fun r => [Answer.done, .result r]) c.drain_runSynchronized
  · exact congrArg (fun r => [Answer.result (some r)]) hdirect

/-- A panic over a kept result, in a step that leaves a file where the image was missing. -/
theorem phases_agree_panic :
    let script : Script :=
      { steps := [⟨[], .done .synchronizedCall⟩, ⟨[.touch "image" ⟨2, 0⟩], .panicked (.text "stop")⟩] }
    let c := ((ofWorld { scripts := [script] } (.on "image")).run [.boot, .runSynchronized]).2
    let error := .error "guestlink_core::common::error::GuestError: guest panicked: stop"
    c.kept = some .synchronizedCall ∧
      (c.watch = .disabled ∨ ¬ c.StepMovesImage) ∧
      (c.run [.runSynchronized, .runThreaded true]).1 = [.done, .result (some error)] ∧
      (c.run [.runThreaded false]).1 = [.result (some error)] := by
  intro script c error
  have hstill : ¬ c.StepMovesImage := by
    rintro ⟨path, before, after, hpath, hbefore, -⟩
    cases hpath
    cases hbefore
  obtain ⟨hdrained, hdirect, -, -⟩ := phases_agree (c := c) (.inr hstill)
  exact ⟨rfl, .inr hstill, hdrained, hdirect⟩

end Tether.Controller
