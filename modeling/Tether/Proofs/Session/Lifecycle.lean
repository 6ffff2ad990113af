import Tether.Proofs.Session.Blocks

/-! # The life of guests in a session

Between two calls on a session the blocks of all earlier guests are complete, and that of the live
guest, if there is one, lacks nothing but its release. -/

namespace Tether

/-- All guests called for so far are gone. -/
structure World.Idle (scripts : List Script) (w : World) : Prop where
  scripts_eq : w.scripts = scripts
  blocks : Blocks scripts w.created w.log

/-- The guest is the last one called for, and its block is open. -/
structure World.Serving (scripts : List Script) (g : Guest) (past life : List Event) (w : World) :
    Prop where
  scripts_eq : w.scripts = scripts
  created_eq : w.created = g.number + 1
  constructed : Constructed scripts g.number
  ready : Ready scripts g.number
  blocks : Blocks scripts g.number past
  log_eq : w.log = past ++ .create g.number :: .start g.number :: life
  serves : ∀ e ∈ life, e.Serves g.number

namespace World.Serving

variable {scripts : List Script} {g : Guest} {past life : List Event} {w : World}

/-- The release of the guest completes its block. -/
theorem release (h : w.Serving scripts g past life) :
    (w.record (.close g.number)).Idle scripts where
  scripts_eq := h.scripts_eq
  blocks := by
    have hblock : Block scripts g.number (.create g.number :: .start g.number :: (life ++ [.close g.number])) :=
      .lived h.constructed h.ready h.serves
    have hall := Blocks.snoc h.blocks hblock
    rw [World.created_record, World.log_record, h.created_eq, h.log_eq, List.append_assoc]
    exact hall

/-- Another call to the guest leaves its block open, whatever becomes of the disk. -/
theorem serve (h : w.Serving scripts g past life) {next : Guest} (hnumber : next.number = g.number)
    {e : Event} (he : e.Serves g.number) (d : Disk) :
    World.Serving scripts next past (life ++ [e]) { w.record e with disk := d } where
  scripts_eq := h.scripts_eq
  created_eq := by rw [hnumber]; exact h.created_eq
  constructed := by rw [hnumber]; exact h.constructed
  ready := by rw [hnumber]; exact h.ready
  blocks := by rw [hnumber]; exact h.blocks
  log_eq := by
    change w.log ++ [e] = _
    rw [hnumber, h.log_eq, List.append_assoc]
    rfl
  serves := by
    rw [hnumber]
    intro d hd
    rcases List.mem_append.mp hd with hd | hd
    · exact h.serves d hd
    · cases List.mem_singleton.mp hd
      exact he

end World.Serving

namespace World.Idle

variable {scripts : List Script} {w : World}

theorem unconstructed (h : w.Idle scripts) (hc : ¬ Constructed scripts w.created) :
    w.callForGuest.Idle scripts where
  scripts_eq := h.scripts_eq
  blocks := .snoc h.blocks (.unconstructed hc)

theorem unready (h : w.Idle scripts) (hc : Constructed scripts w.created)
    (hr : ¬ Ready scripts w.created) :
    ((w.callForGuest.record (.start w.created)).record (.close w.created)).Idle scripts where
  scripts_eq := h.scripts_eq
  blocks := by
    have hall := Blocks.snoc h.blocks (.unready hc hr)
    simpa [World.callForGuest] using hall

theorem ready (h : w.Idle scripts) (hc : Constructed scripts w.created)
    (hr : Ready scripts w.created) (script : Script) :
    World.Serving scripts ⟨w.created, script⟩ w.log [] (w.callForGuest.record (.start w.created)) where
  scripts_eq := h.scripts_eq
  created_eq := rfl
  constructed := hc
  ready := hr
  blocks := h.blocks
  log_eq := by simp [World.callForGuest]
  serves := by simp

end World.Idle

namespace Session

/-- The invariant of the log. -/
def Logged (scripts : List Script) (s : Session) : Prop :=
  match s.guest with
  | none => s.world.Idle scripts
  | some g => ∃ past life, s.world.Serving scripts g past life

section

variable {scripts : List Script} {s : Session}

theorem idle_close (h : s.Logged scripts) : s.close.world.Idle scripts := by
  unfold Logged at h
  split at h
  · rename_i hguest
    rw [close_of_none hguest]
    exact h
  · rename_i g hguest
    obtain ⟨past, life, h⟩ := h
    rw [close_of_some hguest]
    exact h.release

theorem logged_close (h : s.Logged scripts) : s.close.Logged scripts := by
  unfold Logged
  rw [guest_close]
  exact idle_close h

theorem logged_tryBoot (h : s.Logged scripts) : s.tryBoot.2.Logged scripts := by
  have hidle := idle_close h
  rw [tryBoot_eq, hidle.scripts_eq]
  dsimp only
  split
  · rename_i e hfate
    simp only [Logged, guest_close]
    exact hidle.unconstructed (fate_unconstructed hfate)
  · rename_i e hfate
    obtain ⟨hc, hr⟩ := fate_unready hfate
    simp only [Logged, guest_close]
    exact hidle.unready hc hr
  · rename_i script hfate
    obtain ⟨-, hc, hr⟩ := fate_ready hfate
    exact ⟨_, _, hidle.ready hc hr script⟩

theorem logged_step (h : s.Logged scripts) (synchronized : Bool) :
    (s.step synchronized).2.Logged scripts := by
  rcases s.step_cases synchronized with hsame | ⟨g, hguest, hstep⟩
  · rw [hsame]
    exact h
  · rw [hstep]
    simp only [Logged, hguest] at h
    obtain ⟨past, life, h⟩ := h
    have hserves : Event.Serves g.number (.step g.number synchronized) := rfl
    exact ⟨past, _, h.serve g.number_nextStep hserves _⟩

theorem logged_signal (h : s.Logged scripts) (sig : Signal) : (s.signal sig).2.Logged scripts := by
  rcases s.signal_cases sig with hsame | ⟨g, payload, hguest, -, hsignal⟩
  · rw [hsame]
    exact h
  · rw [hsignal]
    simp only [Logged, hguest] at h
    obtain ⟨past, life, h⟩ := h
    have hserves : Event.Serves g.number (.signal g.number payload) := rfl
    exact ⟨past, _, h.serve g.number_nextSignal hserves s.world.disk⟩

theorem logged_call (h : s.Logged scripts) (c : Call) : (s.call c).2.Logged scripts := by
  cases c with
  | boot => exact logged_tryBoot h
  | tryBoot => exact logged_tryBoot h
  | close => exact logged_close h
  | step synchronized => exact logged_step h synchronized
  | signal sig => exact logged_signal h sig
  | store r => exact h
  | take => exact h

theorem logged_disk (h : s.Logged scripts) (d : Disk) :
    Logged scripts { s with world := { s.world with disk := d } } := by
  unfold Logged at h ⊢
  dsimp only
  split
  · rename_i hguest
    rw [hguest] at h
    exact ⟨h.scripts_eq, h.blocks⟩
  · rename_i g hguest
    rw [hguest] at h
    obtain ⟨past, life, h⟩ := h
    exact ⟨past, life, h.scripts_eq, h.created_eq, h.constructed, h.ready, h.blocks, h.log_eq, h.serves⟩

theorem logged_start (scripts : List Script) (disk : Disk) :
    Logged scripts { world := { scripts, disk } } :=
  ⟨rfl, .nil⟩

theorem logged_run (h : s.Logged scripts) (cs : List Call) : (s.run cs).2.Logged scripts :=
  run_keeps (Logged scripts) (fun _ c h => logged_call h c) h cs

end

/-! ## How many guests are called for -/

/-- A call that calls for a guest. -/
def Call.boots : Call → Bool
  | .boot | .tryBoot => true
  | _ => false

@[simp] theorem created_close (s : Session) : s.close.world.created = s.world.created := by
  cases hguest : s.guest with
  | none => rw [close_of_none hguest]
  | some g =>
      rw [close_of_some hguest]
      rfl

theorem created_tryBoot (s : Session) : s.tryBoot.2.world.created = s.world.created + 1 := by
  have h := created_close s
  rw [tryBoot_eq]
  dsimp only
  split <;> exact congrArg (· + 1) h

theorem created_step (s : Session) (synchronized : Bool) :
    (s.step synchronized).2.world.created = s.world.created := by
  rcases s.step_cases synchronized with hsame | ⟨g, -, hstep⟩
  · rw [hsame]
  · rw [hstep]
    rfl

theorem created_signal (s : Session) (sig : Signal) :
    (s.signal sig).2.world.created = s.world.created := by
  rcases s.signal_cases sig with hsame | ⟨g, payload, -, -, hsignal⟩
  · rw [hsame]
  · rw [hsignal]
    rfl

theorem created_call (s : Session) (c : Call) :
    (s.call c).2.world.created = s.world.created + c.boots.toNat := by
  cases c with
  | boot => exact created_tryBoot s
  | tryBoot => exact created_tryBoot s
  | close => exact created_close s
  | step synchronized => exact created_step s synchronized
  | signal sig => exact created_signal s sig
  | store r => rfl
  | take => rfl

theorem created_run (s : Session) (cs : List Call) :
    (s.run cs).2.world.created = s.world.created + cs.countP Call.boots := by
  induction cs generalizing s with
  | nil => rfl
  | cons c cs ih => rw [run_cons, ih, created_call, countP_cons_toNat, Nat.add_assoc]

/-- A session that is dropped releases its guest, and its log is then complete. -/
theorem blocks_of_logged {scripts : List Script} {s : Session} (h : s.Logged scripts) :
    Blocks scripts s.world.created s.close.world.log := by
  have hblocks := (idle_close h).blocks
  rwa [created_close] at hblocks

end Session

end Tether
