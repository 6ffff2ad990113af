import Tether.Proofs.Session.Calls

/-! # What a session does not depend on

No answer depends on the log or on the disk: a session does the same behind a longer log and
on another disk. And a start depends on the next script alone, not on what the session was before. -/

namespace Tether

namespace Session

/-- The session with more calls before its own, and on another disk. -/
def withPast (past : List Event) (disk : Disk) (s : Session) : Session :=
  { s with world := { s.world with log := past ++ s.world.log, disk } }

/-- What the next step does to the disk. -/
def plannedChanges (s : Session) : List Disk.Change :=
  match s.guest with
  | none => []
  | some g => g.nextStep.1.changes

/-- The release of the live guest, if there is one. -/
def farewell (s : Session) : List Event :=
  (s.guest.map fun g => .close g.number).toList

section

variable {s : Session}

theorem plannedChanges_of_none (h : s.guest = none) : s.plannedChanges = [] := by
  simp only [plannedChanges, h]

theorem plannedChanges_of_some {g : Guest} (h : s.guest = some g) :
    s.plannedChanges = g.nextStep.1.changes := by
  simp only [plannedChanges, h]

theorem disk_close (s : Session) : s.close.world.disk = s.world.disk := by
  cases hguest : s.guest with
  | none => rw [close_of_none hguest]
  | some g => rw [close_of_some hguest, World.disk_record]

theorem disk_tryBoot (s : Session) : s.tryBoot.2.world.disk = s.world.disk := by
  rw [← disk_close s, tryBoot_eq]
  dsimp only
  split <;> rfl

theorem disk_step (s : Session) (synchronized : Bool) :
    (s.step synchronized).2.world.disk = s.plannedChanges.foldl Disk.apply s.world.disk := by
  cases hguest : s.guest with
  | none =>
      rw [step_of_none hguest, plannedChanges_of_none hguest]
      rfl
  | some g => rw [step_of_some hguest, plannedChanges_of_some hguest]

theorem disk_signal (s : Session) (sig : Signal) : (s.signal sig).2.world.disk = s.world.disk := by
  rcases signal_cases s sig with h | ⟨g, payload, -, -, h⟩
  · rw [h]
  · rw [h, World.disk_record]

/-! ## Behind another past -/

theorem outcome_withPast (s : Session) (past : List Event) (disk : Disk) :
    (s.withPast past disk).outcome = s.outcome := rfl

theorem take_withPast (s : Session) (past : List Event) (disk : Disk) :
    (s.withPast past disk).take = (s.take.1, s.take.2.withPast past disk) := rfl

theorem close_withPast (s : Session) (past : List Event) (disk : Disk) :
    (s.withPast past disk).close = s.close.withPast past disk := by
  cases hguest : s.guest with
  | none =>
      have hnone : (s.withPast past disk).guest = none := hguest
      rw [close_of_none hguest, close_of_none hnone]
  | some g =>
      have hsome : (s.withPast past disk).guest = some g := hguest
      rw [close_of_some hguest, close_of_some hsome]
      simp only [withPast, World.record, List.append_assoc]

theorem tryBoot_withPast (s : Session) (past : List Event) (disk : Disk) :
    (s.withPast past disk).tryBoot = (s.tryBoot.1, s.tryBoot.2.withPast past disk) := by
  have hscripts : (s.close.withPast past disk).world.scripts = s.close.world.scripts := rfl
  have hcreated : (s.close.withPast past disk).world.created = s.close.world.created := rfl
  simp only [tryBoot_eq, close_withPast, hscripts, hcreated]
  split <;> simp only [withPast, World.callForGuest, World.record, List.append_assoc]

theorem step_withPast (s : Session) (synchronized : Bool) (past : List Event) (disk : Disk) :
    (s.withPast past disk).step synchronized = ((s.step synchronized).1,
      (s.step synchronized).2.withPast past (s.plannedChanges.foldl Disk.apply disk)) := by
  cases hguest : s.guest with
  | none =>
      have hnone : (s.withPast past disk).guest = none := hguest
      rw [step_of_none hguest, step_of_none hnone, plannedChanges_of_none hguest]
      rfl
  | some g =>
      have hsome : (s.withPast past disk).guest = some g := hguest
      rw [step_of_some hguest, step_of_some hsome, plannedChanges_of_some hguest]
      simp only [withPast, World.record, List.append_assoc]

theorem signal_withPast (s : Session) (sig : Signal) (past : List Event) (disk : Disk) :
    (s.withPast past disk).signal sig =
      ((s.signal sig).1, (s.signal sig).2.withPast past disk) := by
  cases hguest : s.guest with
  | none =>
      have hnone : (s.withPast past disk).guest = none := hguest
      rw [signal_of_none hguest, signal_of_none hnone]
  | some g =>
      have hsome : (s.withPast past disk).guest = some g := hguest
      cases hsig : sig.encode with
      | error e => rw [signal_of_error hguest hsig, signal_of_error hsome hsig]
      | ok payload =>
          rw [signal_of_ok hguest hsig, signal_of_ok hsome hsig]
          simp only [withPast, World.record, List.append_assoc]

/-! ## A start from nothing -/

/-- A session over the same world in which nothing has been done. -/
def anew (s : Session) : Session :=
  { world := { s.world with log := [] } }

/-- What is left of a session once its guest is released and its kept result is taken. -/
theorem released_eq_anew {s t : Session} (hscripts : t.world.scripts = s.world.scripts)
    (hcreated : t.world.created = s.world.created) (hpending : t.pending = .empty) :
    { t.close with state := .uninitialized } =
      s.anew.withPast (t.world.log ++ t.farewell) t.world.disk := by
  obtain ⟨⟨scripts, created, disk, log⟩, guest, state, pending⟩ := t
  subst hscripts hcreated hpending
  cases guest with
  | none =>
      rw [close_of_none rfl]
      simp only [withPast, anew, farewell, Option.map_none, Option.toList_none, List.append_nil]
  | some g =>
      rw [close_of_some rfl]
      simp only [withPast, anew, farewell, Option.map_some, Option.toList_some, World.record,
        List.append_nil]

/-- A start with no kept result goes as the first start of a session, behind the old log and the
release of the guest that was live. -/
theorem tryBoot_eq_anew {s t : Session} (hscripts : t.world.scripts = s.world.scripts)
    (hcreated : t.world.created = s.world.created) (hpending : t.pending = .empty) :
    t.tryBoot = (s.anew.tryBoot.1,
      s.anew.tryBoot.2.withPast (t.world.log ++ t.farewell) t.world.disk) := by
  have hreleased := released_eq_anew hscripts hcreated hpending
  have hclosed : (s.anew.withPast (t.world.log ++ t.farewell) t.world.disk).close =
      s.anew.withPast (t.world.log ++ t.farewell) t.world.disk := close_of_none rfl
  -- after the release, a start reads the scripts and their count and nothing else
  rw [← tryBoot_withPast]
  unfold tryBoot
  rw [hreleased, hclosed]
  rfl

end

end Session

/-! ## Only guests to come -/

/-- No guest numbered below `n` has been called in this world, or will be created in it. -/
structure World.Since (n : Nat) (w : World) : Prop where
  created_le : n ≤ w.created
  log_le : ∀ e ∈ w.log, n ≤ e.guest

namespace World.Since

variable {n : Nat} {w : World}

theorem record (h : w.Since n) (e : Event) (he : n ≤ e.guest) : (w.record e).Since n where
  created_le := h.created_le
  log_le := by
    intro d hd
    rcases List.mem_append.mp hd with hd | hd
    · exact h.log_le d hd
    · rw [List.mem_singleton.mp hd]
      exact he

theorem callForGuest (h : w.Since n) : w.callForGuest.Since n where
  created_le := Nat.le_succ_of_le h.created_le
  log_le := (h.record (.create w.created) h.created_le).log_le

theorem onDisk (h : w.Since n) (disk : Disk) : World.Since n { w with disk } :=
  ⟨h.created_le, h.log_le⟩

end World.Since

namespace Session

/-- The session lives in such a world, and its guest is none of those either. -/
structure Since (n : Nat) (s : Session) : Prop where
  world : s.world.Since n
  guest_le : ∀ g, s.guest = some g → n ≤ g.number

section

variable {n : Nat} {s : Session}

theorem since_anew (s : Session) : s.anew.Since s.world.created where
  world := ⟨Nat.le_refl _, List.forall_mem_nil _⟩
  guest_le := by
    intro g hg
    cases hg

theorem since_close (h : s.Since n) : s.close.Since n := by
  cases hguest : s.guest with
  | none =>
      rw [close_of_none hguest]
      exact h
  | some g =>
      rw [close_of_some hguest]
      refine ⟨h.world.record (.close g.number) (h.guest_le g hguest), ?_⟩
      intro next hnext
      cases hnext

theorem since_tryBoot (h : s.Since n) : s.tryBoot.2.Since n := by
  have hclose := since_close h
  have hcreated := hclose.world.created_le
  have hworld := hclose.world.callForGuest
  rw [tryBoot_eq]
  dsimp only
  split
  · exact ⟨hworld, hclose.guest_le⟩
  · exact ⟨(hworld.record (.start _) hcreated).record (.close _) hcreated, hclose.guest_le⟩
  · refine ⟨hworld.record (.start _) hcreated, ?_⟩
    intro g hg
    cases hg
    exact hcreated

theorem since_step (h : s.Since n) (synchronized : Bool) : (s.step synchronized).2.Since n := by
  rcases s.step_cases synchronized with hsame | ⟨g, hguest, hstep⟩
  · rw [hsame]
    exact h
  · have hnumber := h.guest_le g hguest
    rw [hstep]
    refine ⟨(h.world.record (.step g.number synchronized) hnumber).onDisk _, ?_⟩
    intro next hnext
    cases hnext
    rw [Guest.number_nextStep]
    exact hnumber

theorem since_signal (h : s.Since n) (sig : Signal) : (s.signal sig).2.Since n := by
  rcases s.signal_cases sig with hsame | ⟨g, payload, hguest, -, hsignal⟩
  · rw [hsame]
    exact h
  · have hnumber := h.guest_le g hguest
    rw [hsignal]
    refine ⟨h.world.record (.signal g.number payload) hnumber, ?_⟩
    intro next hnext
    cases hnext
    rw [Guest.number_nextSignal]
    exact hnumber

theorem since_call (h : s.Since n) (c : Call) : (s.call c).2.Since n := by
  cases c with
  | boot | tryBoot => exact since_tryBoot h
  | close => exact since_close h
  | step synchronized => exact since_step h synchronized
  | signal sig => exact since_signal h sig
  | store | take => exact ⟨h.world, h.guest_le⟩

end

end Session

end Tether
