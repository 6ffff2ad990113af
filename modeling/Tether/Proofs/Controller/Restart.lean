import Tether.Proofs.Controller.Reload
import Tether.Proofs.Controller.Statistics
import Tether.Proofs.Disk.Alike
import Tether.Proofs.Session.Restart

/-! # A restart forgets the past

After a start a controller behaves as one that has never done anything else. What was before is still
there in its log and its statistics, and nothing it does depends on either. -/

namespace Tether.Controller

/-- The controller with more calls and counts before its own, and on another disk. -/
def withPast (past : List Event) (base : Stats) (disk : Disk) (c : Controller) : Controller :=
  { c with session := c.session.withPast past disk, stats := base + c.stats }

/-- A controller over the same world that has done nothing. -/
def anew (c : Controller) : Controller :=
  { session := c.session.anew, watch := c.watch }

/-- What a call does to the disk. -/
def diskChanges (c : Controller) : Call → List Disk.Change
  | .change change => [change]
  | .runSynchronized | .runThreaded false => c.session.plannedChanges
  | .boot | .close | .runThreaded true | .signal _ => []

theorem disk_call (c : Controller) (k : Call) : (c.call k).2.session.world.disk =
    (c.diskChanges k).foldl Disk.apply c.session.world.disk := by
  cases k with
  | boot => exact c.session.take.2.disk_tryBoot
  | close => exact c.session.disk_close
  | runSynchronized => exact c.session.disk_step true
  | runThreaded drain =>
      cases drain with
      | true => rfl
      | false => exact c.session.disk_step false
  | signal sig => exact c.session.disk_signal sig
  | change change => rfl

theorem watch_call (c : Controller) (k : Call) : (c.call k).2.watch = c.watch :=
  watch_run c [k]

/-! ## Behind another past -/

section

variable (c : Controller) (past : List Event) (base : Stats) (disk : Disk)

theorem session_withPast : (c.withPast past base disk).session = c.session.withPast past disk := rfl

theorem boot_withPast : (c.withPast past base disk).boot =
    (c.boot.1, c.boot.2.withPast past base disk) := by
  simp only [boot, session_withPast, Session.take_withPast, Session.boot, Session.tryBoot_withPast]
  simp only [withPast, Stats.add_def, Nat.add_assoc]

theorem close_withPast : (c.withPast past base disk).close = c.close.withPast past base disk := by
  simp only [close, session_withPast, Session.close_withPast]
  rfl

theorem runSynchronized_withPast : (c.withPast past base disk).runSynchronized =
    c.runSynchronized.withPast past base (c.session.plannedChanges.foldl Disk.apply disk) := by
  simp only [runSynchronized_eq, session_withPast, Session.outcome_withPast, Session.step_withPast]
  simp only [withPast, Session.withPast, Stats.add_def, Nat.add_assoc]

theorem drain_withPast : (c.withPast past base disk).drain =
    (c.drain.1, c.drain.2.withPast past base disk) := by
  simp only [drain, session_withPast, Session.take_withPast]
  simp only [withPast, Stats.add_def, Nat.add_assoc]

theorem signal_withPast (sig : Signal) : (c.withPast past base disk).signal sig =
    ((c.signal sig).1, (c.signal sig).2.withPast past base disk) := by
  simp only [signal, session_withPast, Session.signal_withPast]
  simp only [withPast, Stats.add_def, Nat.add_assoc]

end

section

variable {c : Controller} {disk : Disk} (past : List Event) (base : Stats)

theorem reloads_withPast (h : c.watch.SameImage c.session.world.disk disk) :
    (c.withPast past base disk).reloads = c.reloads := by
  have hbefore : (c.withPast past base disk).sample = c.sample := h.sample_eq
  have hafter : (c.withPast past base disk).sampleAfter = c.sampleAfter := by
    unfold sampleAfter
    rw [Session.disk_step, Session.disk_step]
    exact h c.session.plannedChanges
  unfold reloads
  rw [hbefore, hafter, session_withPast, Session.outcome_withPast]

theorem stepThreaded_withPast (h : c.watch.SameImage c.session.world.disk disk) :
    (c.withPast past base disk).stepThreaded = (c.stepThreaded.1,
      c.stepThreaded.2.withPast past base (c.session.plannedChanges.foldl Disk.apply disk)) := by
  rw [stepThreaded_eq, stepThreaded_eq, reloads_withPast past base h]
  simp only [session_withPast, Session.outcome_withPast, Session.step_withPast]
  simp only [withPast, Stats.add_def, Nat.add_assoc]

theorem call_withPast (h : c.watch.SameImage c.session.world.disk disk) (k : Call) :
    (c.withPast past base disk).call k = ((c.call k).1,
      (c.call k).2.withPast past base ((c.diskChanges k).foldl Disk.apply disk)) := by
  cases k with
  | boot =>
      rw [call_boot, call_boot, boot_withPast]
      rfl
  | close =>
      rw [call_close, call_close, close_withPast]
      rfl
  | runSynchronized =>
      rw [call_runSynchronized, call_runSynchronized, runSynchronized_withPast]
      rfl
  | runThreaded drain =>
      cases drain with
      | true =>
          rw [call_drain, call_drain, drain_withPast]
          rfl
      | false =>
          rw [call_stepThreaded, call_stepThreaded, stepThreaded_withPast past base h]
          rfl
  | signal sig =>
      rw [call_signal, call_signal, signal_withPast]
      rfl
  | change change => rfl

/-- Behind another past, and on another disk on which the watch sees the same, a run gives the same
answers and goes the same way. -/
theorem run_withPast (h : c.watch.SameImage c.session.world.disk disk) (ks : List Call) :
    ∃ disk', c.watch.SameImage (c.run ks).2.session.world.disk disk' ∧
      (c.withPast past base disk).run ks =
        ((c.run ks).1, (c.run ks).2.withPast past base disk') := by
  induction ks generalizing c disk with
  | nil => exact ⟨disk, h, rfl⟩
  | cons k ks ih =>
      -- the call does the same to both disks
      have hnext := h.foldl_apply (c.diskChanges k)
      rw [← disk_call, ← watch_call c k] at hnext
      obtain ⟨disk', hdisk', hrun⟩ := ih hnext
      rw [watch_call] at hdisk'
      refine ⟨disk', hdisk', ?_⟩
      rw [run_cons, run_cons, call_withPast past base h, hrun]

end

/-! ## A start from nothing -/

/-- What two controllers have to share for a start to go the same way on both: the watch, what it
sees, and the guests that are still to come. -/
structure SameOutlook (c d : Controller) : Prop where
  watch_eq : d.watch = c.watch
  sameImage : c.watch.SameImage c.session.world.disk d.session.world.disk
  scripts_eq : d.session.world.scripts = c.session.world.scripts
  created_eq : d.session.world.created = c.session.world.created

theorem SameOutlook.refl (c : Controller) : c.SameOutlook c :=
  ⟨rfl, fun _ => rfl, rfl, rfl⟩

/-- A start goes as the first start of a controller that has done nothing, behind the old log, the
release of the guest that was live, and the old counts. -/
theorem boot_eq_anew {c d : Controller} (h : c.SameOutlook d) : d.boot = (c.anew.boot.1,
    c.anew.boot.2.withPast (d.session.world.log ++ d.session.farewell) d.stats
      d.session.world.disk) := by
  have htake : c.anew.session.take.2 = c.session.anew := rfl
  have hboot := Session.tryBoot_eq_anew (s := c.session) (t := d.session.take.2) h.scripts_eq
    h.created_eq rfl
  simp only [boot, htake, Session.boot, hboot]
  simp only [withPast, Stats.add_def, anew, h.watch_eq, Nat.zero_add]
  rfl

theorem run_boot_eq_anew {c d : Controller} (h : c.SameOutlook d) (ks : List Call) :
    ∃ disk, c.watch.SameImage (c.anew.run (.boot :: ks)).2.session.world.disk disk ∧
      d.run (.boot :: ks) = ((c.anew.run (.boot :: ks)).1,
        (c.anew.run (.boot :: ks)).2.withPast (d.session.world.log ++ d.session.farewell) d.stats
          disk) := by
  have himage : c.anew.boot.2.watch.SameImage c.anew.boot.2.session.world.disk
      d.session.world.disk := by
    have hdisk : c.anew.boot.2.session.world.disk = c.session.world.disk := disk_call c.anew .boot
    rw [hdisk]
    exact h.sameImage
  obtain ⟨disk, hdisk, hrun⟩ :=
    run_withPast (d.session.world.log ++ d.session.farewell) d.stats himage ks
  refine ⟨disk, hdisk, ?_⟩
  rw [run_cons, run_cons, call_boot, call_boot, boot_eq_anew h, hrun]

/-- From a start on, no guest from before it is called. -/
theorem since_run_anew (c : Controller) (ks : List Call) :
    (c.anew.run ks).2.session.Since c.session.world.created := by
  apply run_keeps (fun d => d.session.Since c.session.world.created) _ c.session.since_anew
  intro d k hd
  exact session_call_keeps (Session.Since _) (fun _ call hs => Session.since_call hs call)
    (fun _ disk hs => ⟨hs.world.onDisk disk, hs.guest_le⟩) d k hd

/-- Two controllers with different pasts are not told apart once both are started, if the same guests
are still to come and their watches see the same: the start and all calls after it have the same
answers, lead to the same states, make the same calls to guests and add the same to the statistics.
In the logs the only difference is the release of the guest that was live before the start. -/
theorem restart_forgets_past {c d : Controller} (h : c.SameOutlook d) (ks : List Call) :
    let run := c.run (.boot :: ks)
    let other := d.run (.boot :: ks)
    other.1 = run.1 ∧
    other.2.session.state = run.2.session.state ∧
    other.2.session.guest = run.2.session.guest ∧
    other.2.kept = run.2.kept ∧
    other.2.sample = run.2.sample ∧
    (∃ events : List Event, (∀ e ∈ events, c.session.world.created ≤ e.guest) ∧
      run.2.session.world.log = c.session.world.log ++ c.session.farewell ++ events ∧
      other.2.session.world.log = d.session.world.log ++ d.session.farewell ++ events) ∧
    ∃ gained : Stats, run.2.stats = c.stats + gained ∧ other.2.stats = d.stats + gained := by
  intro run other
  obtain ⟨disk, himage, hrun⟩ := run_boot_eq_anew (.refl c) ks
  obtain ⟨disk', himage', hother⟩ := run_boot_eq_anew h ks
  have hrun : run = _ := hrun
  have hother : other = _ := hother
  have hwatch : (c.anew.run (.boot :: ks)).2.watch = c.watch := watch_run c.anew _
  rw [hrun, hother]
  refine ⟨rfl, rfl, rfl, rfl, ?_, ⟨_, (c.since_run_anew _).world.log_le, rfl, rfl⟩, _, rfl, rfl⟩
  simp only [sample, withPast, Session.withPast, hwatch, himage.sample_eq, himage'.sample_eq]

/-- A controller with a live guest and a kept result, and one that was closed over an image of other
content. -/
theorem restart_forgets_past_live_closed :
    let scripts : List Script := [{}, { steps := [⟨[.touch "image" ⟨2, 0⟩], .done .proceed⟩] }]
    let disk := fun data => Disk.empty.place ["image"] ⟨.file data, ⟨1, 0⟩⟩
    let c := ((ofWorld { scripts, disk := disk [1] } (.on "image")).run [.boot, .runSynchronized]).2
    let d := ((ofWorld { scripts, disk := disk [2] } (.on "image")).run [.boot, .close]).2
    let calls : List Call := [.boot, .runThreaded true, .runThreaded false]
    c.SameOutlook d ∧ c.kept = some .proceed ∧ d.kept = none ∧
      (d.run calls).1 = (c.run calls).1 ∧
      (c.run calls).1 = [.started true, .result none, .result (some (.shutdown true))] := by
  intro scripts disk c d calls
  have halike : (disk [1]).Alike (disk [2]) :=
    Disk.Alike.place ⟨rfl, fun _ => rfl⟩ ["image"] rfl
  have h : c.SameOutlook d := ⟨rfl, Watch.sameImage_of_alike halike, rfl, rfl⟩
  exact ⟨h, rfl, rfl, (restart_forgets_past h [.runThreaded true, .runThreaded false]).1, rfl⟩

end Tether.Controller
