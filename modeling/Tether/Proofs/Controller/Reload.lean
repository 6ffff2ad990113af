import Tether.Config
import Tether.Proofs.Controller.Calls

/-! # Reloads are forced by threaded steps alone

A threaded step is answered with a reboot if it takes the watched image from one time to another
itself. What became of the image before the step began does not matter. -/

namespace Tether

/-- A configuration asks for a watch on its image, or for none at all. -/
theorem Config.path_imageWatch {config : Config} {path : String} :
    config.imageWatch.path = some path ↔
      config.firmware.watch = true ∧ config.firmware.image = some path := by
  unfold imageWatch
  split
  · rename_i hwatch
    simp [hwatch]
  · rename_i hwatch
    simp [hwatch, Watch.disabled]

theorem Watch.sample_eq_some {w : Watch} {d : Disk} {t : Instant} :
    w.sample d = some t ↔ ∃ path, w.path = some path ∧ d.modified? path = some t :=
  Option.bind_eq_some_iff

namespace Controller

/-- The guest is live and its next step succeeds, and takes the watched image from one time to
another. -/
def Reloads (c : Controller) : Prop :=
  ∃ path g r before after,
    c.watch.path = some path ∧ c.session.guest = some g ∧
    g.nextStep.1.reply = .done r ∧ r.isError = false ∧
    c.session.world.disk.modified? path = some before ∧
    (g.nextStep.1.changes.foldl Disk.apply c.session.world.disk).modified? path = some after ∧
    before ≠ after

section

variable (c : Controller)

/-- The time of the watched image once the next step has been taken. -/
def sampleAfter : Option Instant :=
  c.watch.sample (c.session.step false).2.world.disk

/-- The next step succeeds, and the times before and after it differ. -/
def reloads : Bool :=
  !c.session.outcome.isError && Watch.changed c.sample c.sampleAfter

theorem outcome_isError_eq_false : c.session.outcome.isError = false ↔
    ∃ g r, c.session.guest = some g ∧ g.nextStep.1.reply = .done r ∧ r.isError = false := by
  unfold Session.outcome
  cases hguest : c.session.guest with
  | none => simp [StepResult.isError]
  | some g => cases hreply : g.nextStep.1.reply <;> simp [StepResult.isError, hreply]

theorem changed_iff : Watch.changed c.sample c.sampleAfter ↔ ∃ path before after,
    c.watch.path = some path ∧ c.session.world.disk.modified? path = some before ∧
    (c.session.step false).2.world.disk.modified? path = some after ∧ before ≠ after := by
  rw [Watch.changed_iff]
  simp only [sample, sampleAfter, Watch.sample_eq_some]
  constructor
  · rintro ⟨before, after, ⟨path, hpath, hbefore⟩, ⟨path', hpath', hafter⟩, hne⟩
    rw [hpath] at hpath'
    cases hpath'
    exact ⟨path, before, after, hpath, hbefore, hafter, hne⟩
  · rintro ⟨path, before, after, hpath, hbefore, hafter, hne⟩
    exact ⟨before, after, ⟨path, hpath, hbefore⟩, ⟨path, hpath, hafter⟩, hne⟩

theorem reloads_iff : c.reloads ↔ c.Reloads := by
  unfold reloads
  rw [Bool.and_eq_true, Bool.not_eq_true', outcome_isError_eq_false, changed_iff]
  constructor
  · rintro ⟨⟨g, r, hguest, hreply, hr⟩, path, before, after, hpath, hbefore, hafter, hne⟩
    rw [Session.step_of_some hguest] at hafter
    exact ⟨path, g, r, before, after, hpath, hguest, hreply, hr, hbefore, hafter, hne⟩
  · rintro ⟨path, g, r, before, after, hpath, hguest, hreply, hr, hbefore, hafter, hne⟩
    rw [Session.step_of_some hguest]
    exact ⟨⟨g, r, hguest, hreply, hr⟩, path, before, after, hpath, hbefore, hafter, hne⟩

/-- All that a threaded step does. -/
theorem stepThreaded_eq : c.stepThreaded =
    (if c.reloads then .shutdown true else c.session.outcome, { c with
      session := (c.session.step false).2
      stats := { c.stats with
        threadedSteps := c.stats.threadedSteps + 1
        stepFailures := c.stats.stepFailures + c.session.outcome.isError.toNat
        forcedReloads := c.stats.forcedReloads + c.reloads.toNat } }) := by
  have houtcome := Session.ofOutcome_step c.session false
  simp only [stepThreaded, reloads, sampleAfter, ← houtcome]

/-- What a threaded step answers, and what it adds to the count of forced reloads. -/
theorem call_runThreaded_false :
    (c.call (.runThreaded false)).1 =
      .result (some (if c.reloads then .shutdown true else c.session.outcome)) ∧
    (c.call (.runThreaded false)).2.stats.forcedReloads =
      c.stats.forcedReloads + c.reloads.toNat := by
  have hcall : c.call (.runThreaded false) = c.stepThreaded.map (.result ∘ some) id := rfl
  rw [hcall, stepThreaded_eq]
  exact ⟨rfl, rfl⟩

theorem forcedReloads_call {k : Call} (h : k ≠ .runThreaded false) :
    (c.call k).2.stats.forcedReloads = c.stats.forcedReloads := by
  cases k with
  | runThreaded drain =>
      cases drain with
      | true => rfl
      | false => exact absurd rfl h
  | boot | close | runSynchronized | signal | change => rfl

end

/-- A threaded step forces a reload somewhere in these calls. -/
def ReloadIn (start : Controller) (past : List Call) : Prop :=
  ∃ before after, past = before ++ .runThreaded false :: after ∧ (start.run before).2.Reloads

theorem reloadIn_concat {start : Controller} {past : List Call} {k : Call} :
    start.ReloadIn (past ++ [k]) ↔
      (k = .runThreaded false ∧ (start.run past).2.Reloads) ∨ start.ReloadIn past := by
  unfold ReloadIn
  constructor
  · rintro ⟨before, after, hpast, hreload⟩
    rcases concat_eq_append_cons.mp hpast with ⟨hk, rfl, -⟩ | ⟨rest, hrest, -⟩
    · exact .inl ⟨hk.symm, hreload⟩
    · exact .inr ⟨before, rest, hrest, hreload⟩
  · rintro (⟨rfl, hreload⟩ | ⟨before, rest, hrest, hreload⟩)
    · exact ⟨past, [], rfl, hreload⟩
    · exact ⟨before, rest ++ [k], concat_eq_append_cons.mpr (.inr ⟨rest, hrest, rfl⟩), hreload⟩

/-- The count of forced reloads leaves zero with the first threaded step that forces one. -/
theorem forcedReloads_pos_run {start : Controller} (h : start.stats.forcedReloads = 0)
    (past : List Call) :
    0 < (start.run past).2.stats.forcedReloads ↔ start.ReloadIn past := by
  induction past using List.reverseRecOn with
  | nil => simp [h, ReloadIn]
  | append_singleton past k ih =>
      rw [run_concat, reloadIn_concat, ← ih]
      by_cases hk : k = .runThreaded false
      · subst k
        have hcount := (call_runThreaded_false (start.run past).2).2
        rw [hcount, ← reloads_iff]
        cases (start.run past).2.reloads <;> simp
      · rw [forcedReloads_call _ hk]
        simp [hk]

theorem watch_run (c : Controller) (ks : List Call) : (c.run ks).2.watch = c.watch := by
  apply run_keeps (fun d => d.watch = c.watch) _ rfl
  intro d k hd
  cases k with
  | runThreaded drain => cases drain <;> exact hd
  | boot | close | runSynchronized | signal | change => exact hd

/-- At any point of a run, a threaded step is answered with a reboot and counted as a forced reload
if it takes the watched image from one time to another itself, and is answered as the guest answers
and not counted if it does not. No other call is counted. -/
theorem threaded_step_reloads (scripts : List Script) (disk : Disk) (watch : Watch)
    (past : List Call) :
    let start := ofWorld { scripts, disk } watch
    let c := (start.run past).2
    let answer := (c.call (.runThreaded false)).1
    let count := fun k => (c.call k).2.stats.forcedReloads
    ((answer = .result (some (.shutdown true)) ∧
        count (.runThreaded false) = c.stats.forcedReloads + 1) ↔ c.Reloads) ∧
    ((answer = .result (some c.session.outcome) ∧
        count (.runThreaded false) = c.stats.forcedReloads) ↔ ¬ c.Reloads) ∧
    (∀ k, k ≠ .runThreaded false → count k = c.stats.forcedReloads) ∧
    (0 < c.stats.forcedReloads ↔ start.ReloadIn past) ∧
    c.watch = watch ∧
    (∀ (config : Config) (path : String), config.imageWatch.path = some path ↔
      config.firmware.watch = true ∧ config.firmware.image = some path) := by
  intro start c answer count
  obtain ⟨hanswer, hcount⟩ := call_runThreaded_false c
  have hiff := reloads_iff c
  refine ⟨?_, ?_, fun k hk => forcedReloads_call c hk, forcedReloads_pos_run rfl past,
    watch_run start past, fun config path => Config.path_imageWatch⟩
  · rw [← hiff]
    simp only [answer, count, hanswer, hcount]
    cases c.reloads <;> simp
  · rw [← hiff]
    simp only [answer, count, hanswer, hcount]
    cases c.reloads <;> simp

example :
    let script : Script := { steps := [⟨[.touch "image" ⟨2, 0⟩], .done .proceed⟩] }
    let calls := [.boot, .change (.touch "image" ⟨1, 0⟩), .runThreaded false, .runThreaded false]
    ((ofWorld { scripts := [script] } (.on "image")).run calls).1 =
      [.started true, .done, .result (some (.shutdown true)), .result (some .proceed)] := by
  rfl

end Controller

end Tether
