import Tether.Proofs.Controller.Drain
import Tether.Proofs.Controller.Reload
import Tether.Proofs.Number.Rounding

/-! # The statistics tell what was done

Every count is the number of calls of one kind in the run. The kinds are told by what the host sees of
a call, its answer and the result that is kept after it, and by what the image was before it. -/

namespace Tether

namespace Stats

/-- The counts of two stretches of calls together. -/
instance : Add Stats where
  add s t :=
    { initializations := s.initializations + t.initializations
      initFailures := s.initFailures + t.initFailures
      threadedSteps := s.threadedSteps + t.threadedSteps
      synchronizedSteps := s.synchronizedSteps + t.synchronizedSteps
      drains := s.drains + t.drains
      emptyDrains := s.emptyDrains + t.emptyDrains
      stepFailures := s.stepFailures + t.stepFailures
      forcedReloads := s.forcedReloads + t.forcedReloads
      signalsDelivered := s.signalsDelivered + t.signalsDelivered
      signalFailures := s.signalFailures + t.signalFailures }

theorem add_def (s t : Stats) : s + t =
    { initializations := s.initializations + t.initializations
      initFailures := s.initFailures + t.initFailures
      threadedSteps := s.threadedSteps + t.threadedSteps
      synchronizedSteps := s.synchronizedSteps + t.synchronizedSteps
      drains := s.drains + t.drains
      emptyDrains := s.emptyDrains + t.emptyDrains
      stepFailures := s.stepFailures + t.stepFailures
      forcedReloads := s.forcedReloads + t.forcedReloads
      signalsDelivered := s.signalsDelivered + t.signalsDelivered
      signalFailures := s.signalFailures + t.signalFailures } := rfl

theorem add_assoc (s t u : Stats) : s + t + u = s + (t + u) := by
  simp only [add_def, Nat.add_assoc]

theorem zero_add (s : Stats) : ({} : Stats) + s = s := by
  simp only [add_def, Nat.zero_add]

/-- All numbers in the statistics, and the one that is made up of two of them. -/
def figures (s : Stats) : List Nat :=
  [s.initializations, s.initFailures, s.threadedSteps, s.synchronizedSteps, s.drains, s.emptyDrains,
    s.stepFailures, s.forcedReloads, s.signalsDelivered, s.signalFailures, s.totalSteps]

/-- The rate of failures lies between zero and one, if no more steps failed than there were. -/
theorem isFraction_failureRate {s : Stats} (h : s.stepFailures ≤ s.totalSteps) :
    s.failureRate.IsFraction := by
  unfold failureRate
  split
  · exact Binary64.isFraction_zero
  · rename_i htotal
    exact Binary64.isFraction_div_ofNat (Nat.pos_of_ne_zero htotal) h

end Stats

namespace Controller

instance (c : Controller) : Decidable c.Reloads :=
  decidable_of_iff _ c.reloads_iff

/-! ## The calls of a run -/

/-- One call of a run, with its answer and with what there was before and after it. -/
structure Move where
  before : Controller
  call : Call
  answer : Answer
  after : Controller

def move (c : Controller) (k : Call) : Move :=
  ⟨c, k, (c.call k).1, (c.call k).2⟩

/-- The calls of a run, one after another. -/
def moves (c : Controller) : List Call → List Move
  | [] => []
  | k :: ks => c.move k :: (c.call k).2.moves ks

namespace Move

variable (m : Move)

def isStart : Bool :=
  match m.call with
  | .boot => true
  | _ => false

def isFailedStart : Bool :=
  match m.call, m.answer with
  | .boot, .started live => !live
  | _, _ => false

def isThreadedStep : Bool :=
  match m.call with
  | .runThreaded drain => !drain
  | _ => false

def isSynchronizedStep : Bool :=
  match m.call with
  | .runSynchronized => true
  | _ => false

def isDrain : Bool :=
  match m.call with
  | .runThreaded drain => drain
  | _ => false

/-- A drain that returns nothing. -/
def isEmptyDrain : Bool :=
  match m.call, m.answer with
  | .runThreaded true, .result r => r.isNone
  | _, _ => false

/-- A threaded step that returns an error. -/
def returnsError : Bool :=
  match m.call, m.answer with
  | .runThreaded false, .result r => r.any StepResult.isError
  | _, _ => false

/-- A synchronized step that leaves an error to be taken. -/
def keepsError : Bool :=
  match m.call with
  | .runSynchronized => m.after.kept.any StepResult.isError
  | _ => false

/-- A threaded step that succeeds and takes the image from one time to another. -/
def isForcedReload : Bool :=
  match m.call with
  | .runThreaded false => m.before.Reloads
  | _ => false

def isDelivery : Bool :=
  match m.call, m.answer with
  | .signal _, .delivered outcome => outcome.isOk
  | _, _ => false

def isFailedDelivery : Bool :=
  match m.call, m.answer with
  | .signal _, .delivered outcome => !outcome.isOk
  | _, _ => false

/-- What one call adds to the statistics. -/
def counts : Stats where
  initializations := m.isStart.toNat
  initFailures := m.isFailedStart.toNat
  threadedSteps := m.isThreadedStep.toNat
  synchronizedSteps := m.isSynchronizedStep.toNat
  drains := m.isDrain.toNat
  emptyDrains := m.isEmptyDrain.toNat
  stepFailures := m.returnsError.toNat + m.keepsError.toNat
  forcedReloads := m.isForcedReload.toNat
  signalsDelivered := m.isDelivery.toNat
  signalFailures := m.isFailedDelivery.toNat

end Move

/-- How many calls of each kind there are. -/
def tally (ms : List Move) : Stats where
  initializations := ms.countP Move.isStart
  initFailures := ms.countP Move.isFailedStart
  threadedSteps := ms.countP Move.isThreadedStep
  synchronizedSteps := ms.countP Move.isSynchronizedStep
  drains := ms.countP Move.isDrain
  emptyDrains := ms.countP Move.isEmptyDrain
  stepFailures := ms.countP Move.returnsError + ms.countP Move.keepsError
  forcedReloads := ms.countP Move.isForcedReload
  signalsDelivered := ms.countP Move.isDelivery
  signalFailures := ms.countP Move.isFailedDelivery

theorem tally_cons (m : Move) (ms : List Move) : tally (m :: ms) = m.counts + tally ms := by
  simp only [tally, Move.counts, Stats.add_def, countP_cons_toNat, Nat.add_add_add_comm]

/-! ## One call -/

theorem decide_reloads (c : Controller) : decide c.Reloads = c.reloads := by
  rw [Bool.eq_iff_iff, decide_eq_true_iff, c.reloads_iff]

/-- A reload that is forced hides no error. -/
theorem isError_threaded (c : Controller) :
    (if c.reloads then .shutdown true else c.session.outcome : StepResult).isError =
      c.session.outcome.isError := by
  by_cases h : c.reloads
  · have herror : c.session.outcome.isError = false := by
      unfold reloads at h
      simp_all
    rw [if_pos h, herror]
    rfl
  · rw [if_neg h]

/-- All that a synchronized step does. -/
theorem runSynchronized_eq (c : Controller) : c.runSynchronized = { c with
    session := { (c.session.step true).2 with pending := ⟨some c.session.outcome⟩ }
    stats := { c.stats with
      synchronizedSteps := c.stats.synchronizedSteps + 1
      stepFailures := c.stats.stepFailures + c.session.outcome.isError.toNat } } := by
  have houtcome := Session.ofOutcome_step c.session true
  simp only [runSynchronized, ← houtcome]
  rfl

theorem counts_runSynchronized (c : Controller) : (c.move .runSynchronized).counts =
    { synchronizedSteps := 1, stepFailures := c.session.outcome.isError.toNat } := by
  have hkept : (c.move .runSynchronized).keepsError = c.session.outcome.isError :=
    congrArg (Option.any StepResult.isError) c.kept_runSynchronized
  have hreturns : (c.move .runSynchronized).returnsError = false := rfl
  simp only [Move.counts, hkept, hreturns, Bool.toNat_false, Nat.zero_add]
  rfl

theorem counts_runThreaded_false (c : Controller) : (c.move (.runThreaded false)).counts =
    { threadedSteps := 1
      stepFailures := c.session.outcome.isError.toNat
      forcedReloads := c.reloads.toNat } := by
  have hanswer := (call_runThreaded_false c).1
  have hreturns : (c.move (.runThreaded false)).returnsError = c.session.outcome.isError := by
    simp only [Move.returnsError, move, hanswer, Option.any_some, isError_threaded]
  have hreload : (c.move (.runThreaded false)).isForcedReload = c.reloads := c.decide_reloads
  simp only [Move.counts, hreturns, hreload]
  rfl

theorem stats_call (c : Controller) (k : Call) :
    (c.call k).2.stats = c.stats + (c.move k).counts := by
  cases k with
  | runSynchronized =>
      have hcall : (c.call .runSynchronized).2 = c.runSynchronized := rfl
      rw [hcall, runSynchronized_eq, counts_runSynchronized]
      rfl
  | runThreaded drain =>
      cases drain with
      | true => rfl
      | false =>
          have hcall : (c.call (.runThreaded false)).2 = c.stepThreaded.2 := rfl
          rw [hcall, stepThreaded_eq, counts_runThreaded_false]
          rfl
  | boot | close | signal | change => rfl

theorem stats_run (c : Controller) (ks : List Call) :
    (c.run ks).2.stats = c.stats + tally (c.moves ks) := by
  induction ks generalizing c with
  | nil => rfl
  | cons k ks ih => rw [run_cons, moves, tally_cons, ih, stats_call, Stats.add_assoc]

/-! ## What the counts have to do with each other -/

/-- No count of failures exceeds the count of what can fail, and every result that was taken was
kept by a synchronized step of its own. -/
structure Balanced (c : Controller) : Prop where
  initFailures_le : c.stats.initFailures ≤ c.stats.initializations
  emptyDrains_le : c.stats.emptyDrains ≤ c.stats.drains
  failures_le : c.stats.stepFailures + c.stats.forcedReloads ≤ c.stats.totalSteps
  taken_le : c.stats.drains + c.kept.isSome.toNat ≤ c.stats.emptyDrains + c.stats.synchronizedSteps

theorem balanced_start (world : World) (watch : Watch) : (ofWorld world watch).Balanced :=
  ⟨Nat.le_refl _, Nat.le_refl _, Nat.le_refl _, Nat.le_refl _⟩

/-- A call adds in balance. What it takes away from the kept results, it counts as a drain. -/
structure Move.Balanced (m : Move) : Prop where
  initFailures_le : m.counts.initFailures ≤ m.counts.initializations
  emptyDrains_le : m.counts.emptyDrains ≤ m.counts.drains
  failures_le : m.counts.stepFailures + m.counts.forcedReloads ≤ m.counts.totalSteps
  taken_le : m.counts.drains + m.after.kept.isSome.toNat ≤
    m.counts.emptyDrains + m.counts.synchronizedSteps + m.before.kept.isSome.toNat

/-- A step is an error, forces a reload, or neither. -/
theorem isError_add_reloads_le (c : Controller) :
    c.session.outcome.isError.toNat + c.reloads.toNat ≤ 1 := by
  unfold reloads
  cases c.session.outcome.isError <;> cases Watch.changed c.sample c.sampleAfter <;> decide

/-- A call that passes the kept result by is no drain. -/
theorem drains_of_passes {c : Controller} {k : Call} (h : k.Passes) :
    (c.move k).counts.drains = 0 := by
  cases k with
  | runThreaded drain =>
      cases drain with
      | true => cases h.1
      | false => rfl
  | boot | close | runSynchronized | signal | change => rfl

theorem balanced_of_passes {c : Controller} {k : Call} (h : k.Passes)
    (hfailures : (c.move k).counts.stepFailures + (c.move k).counts.forcedReloads ≤
      (c.move k).counts.totalSteps) : (c.move k).Balanced where
  initFailures_le := by
    cases k with
    | boot => cases h.1
    | close | runSynchronized | runThreaded | signal | change => exact Nat.zero_le _
  emptyDrains_le := by
    cases k with
    | runThreaded drain =>
        cases drain with
        | true => cases h.1
        | false => exact Nat.zero_le _
    | boot | close | runSynchronized | signal | change => exact Nat.zero_le _
  failures_le := hfailures
  taken_le := by
    have hkept : (c.move k).after.kept = (c.move k).before.kept := kept_of_passes h
    rw [drains_of_passes h, hkept, Nat.zero_add]
    exact Nat.le_add_left _ _

theorem balanced_move (c : Controller) (k : Call) : (c.move k).Balanced := by
  have hkept : (c.move k).after.kept = (c.call k).2.kept := rfl
  cases k with
  | boot =>
      rw [kept_of_takes rfl] at hkept
      refine ⟨Bool.toNat_le _, Nat.le_refl _, Nat.le_refl _, ?_⟩
      rw [hkept]
      exact Nat.zero_le _
  | runSynchronized =>
      rw [kept_runSynchronized] at hkept
      refine ⟨Nat.le_refl _, Nat.le_refl _, ?_, ?_⟩
      · rw [counts_runSynchronized]
        exact Bool.toNat_le _
      · rw [hkept]
        exact Nat.le_add_right _ _
  | runThreaded drain =>
      cases drain with
      | true =>
          have hcounts : (c.move (.runThreaded true)).counts =
            { drains := 1, emptyDrains := c.kept.isNone.toNat } := rfl
          have hbefore : (c.move (.runThreaded true)).before.kept = c.kept := rfl
          rw [kept_of_takes rfl] at hkept
          refine ⟨Nat.le_refl _, Bool.toNat_le _, Nat.le_refl _, ?_⟩
          rw [hcounts, hkept, hbefore]
          cases c.kept <;> exact Nat.le_refl 1
      | false =>
          have hpasses : (Call.runThreaded false).Passes := ⟨rfl, nofun⟩
          apply balanced_of_passes hpasses
          rw [counts_runThreaded_false]
          exact isError_add_reloads_le c
  | close => exact balanced_of_passes ⟨rfl, nofun⟩ (Nat.le_refl _)
  | signal sig => exact balanced_of_passes ⟨rfl, nofun⟩ (Nat.le_refl _)
  | change change => exact balanced_of_passes ⟨rfl, nofun⟩ (Nat.le_refl _)

theorem balanced_call {c : Controller} (h : c.Balanced) (k : Call) : (c.call k).2.Balanced := by
  have hstats := stats_call c k
  obtain ⟨hinit, hdrains, hfailures, htaken⟩ := h
  obtain ⟨hinit', hdrains', hfailures', htaken'⟩ := balanced_move c k
  have hafter : (c.call k).2.kept = (c.move k).after.kept := rfl
  have hbefore : c.kept = (c.move k).before.kept := rfl
  constructor <;> rw [hstats, Stats.add_def]
  · exact Nat.add_le_add hinit hinit'
  · exact Nat.add_le_add hdrains hdrains'
  · simp only [Stats.totalSteps] at hfailures hfailures' ⊢
    omega
  · rw [hafter]
    rw [hbefore] at htaken
    dsimp only
    omega

theorem balanced_run {c : Controller} (h : c.Balanced) (ks : List Call) : (c.run ks).2.Balanced :=
  run_keeps Balanced (fun _ k hc => balanced_call hc k) h ks

/-! ## How far the counts go -/

theorem countP_add_countP_le {p q : Move → Bool} (h : ∀ m, q m → ¬ p m) (ms : List Move) :
    ms.countP p + ms.countP q ≤ ms.length := by
  have hq : ms.countP q ≤ ms.countP fun m => ¬ p m := by
    apply List.countP_mono_left
    intro m _ hm
    exact decide_eq_true (h m hm)
  have hlength := List.length_eq_countP_add_countP p (l := ms)
  omega

theorem not_isThreadedStep {m : Move} (h : m.isSynchronizedStep) : ¬ m.isThreadedStep := by
  unfold Move.isSynchronizedStep at h
  unfold Move.isThreadedStep
  split at h <;> simp_all

theorem totalSteps_tally_le (ms : List Move) : (tally ms).totalSteps ≤ ms.length :=
  countP_add_countP_le (fun _ => not_isThreadedStep) ms

theorem length_moves (c : Controller) (ks : List Call) : (c.moves ks).length = ks.length := by
  induction ks generalizing c with
  | nil => rfl
  | cons k ks ih => rw [moves, List.length_cons, ih, List.length_cons]

/-- No number in the statistics exceeds the number of calls, so that 64 bits hold all of them as long
as they hold that. -/
theorem figures_run_le {c : Controller} (h : c.stats = {}) (hbalanced : c.Balanced) (ks : List Call) :
    ∀ n ∈ (c.run ks).2.stats.figures, n ≤ ks.length := by
  have hstats : (c.run ks).2.stats = tally (c.moves ks) := by rw [stats_run, h, Stats.zero_add]
  have hfailures := (balanced_run hbalanced ks).failures_le
  have htotal := totalSteps_tally_le (c.moves ks)
  have hcount (p : Move → Bool) : (c.moves ks).countP p ≤ (c.moves ks).length := List.countP_le_length
  rw [hstats] at hfailures ⊢
  rw [← length_moves c ks]
  have hsteps := Nat.le_trans (Nat.le_trans (Nat.le_add_right _ _) hfailures) htotal
  simp only [Stats.figures, List.forall_mem_cons]
  exact ⟨hcount _, hcount _, hcount _, hcount _, hcount _, hcount _, hsteps, hcount _, hcount _,
    hcount _, htotal, List.forall_mem_nil _⟩

/-- The moves of a run are its calls, with the answers it gives. -/
theorem moves_run (c : Controller) (ks : List Call) :
    (c.moves ks).map Move.call = ks ∧ (c.moves ks).map Move.answer = (c.run ks).1 := by
  induction ks generalizing c with
  | nil => exact ⟨rfl, rfl⟩
  | cons k ks ih =>
      obtain ⟨hcalls, hanswers⟩ := ih (c.call k).2
      rw [moves, List.map_cons, List.map_cons, hcalls, hanswers, run_cons]
      exact ⟨rfl, rfl⟩

/-- After any calls, every count is the number of calls of its kind, the counts are in balance, and
none of them exceeds the number of calls. The rate of failures is a fraction. -/
theorem statistics_count_calls (scripts : List Script) (disk : Disk) (watch : Watch)
    (ks : List Call) :
    let start := ofWorld { scripts, disk } watch
    let c := (start.run ks).2
    ((start.moves ks).map Move.call = ks ∧ (start.moves ks).map Move.answer = (start.run ks).1) ∧
    c.stats = tally (start.moves ks) ∧
    c.Balanced ∧
    c.stats.failureRate.IsFraction ∧
    ∀ n ∈ c.stats.figures, n ≤ ks.length := by
  intro start c
  have hstart : start.Balanced := balanced_start { scripts, disk } watch
  have hbalanced : c.Balanced := balanced_run hstart ks
  have hfailures : c.stats.stepFailures ≤ c.stats.totalSteps :=
    Nat.le_trans (Nat.le_add_right _ _) hbalanced.failures_le
  refine ⟨moves_run start ks, ?_, hbalanced, Stats.isFraction_failureRate hfailures,
    figures_run_le rfl hstart ks⟩
  exact (stats_run start ks).trans (Stats.zero_add _)

example :
    let script : Script := { steps := [⟨[], .failed (.fault "stop")⟩, ⟨[.touch "image" ⟨2, 0⟩], .done .proceed⟩] }
    let calls := [.runThreaded true, .boot, .runSynchronized, .change (.touch "image" ⟨1, 0⟩),
      .runThreaded false, .runThreaded true, .boot]
    ((ofWorld { scripts := [script] } (.on "image")).run calls).2.stats =
      { initializations := 2, initFailures := 1, threadedSteps := 1, synchronizedSteps := 1,
        drains := 2, emptyDrains := 1, stepFailures := 1, forcedReloads := 1 } := by
  rfl

end Controller

end Tether
