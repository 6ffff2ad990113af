import Tether.Proofs.Session.Machine
import Tether.Proofs.Wire.Plain

/-! # Signals that reach their guest

A guest receives what is encoded of the signals that are pushed while it is live, once each and in
order, and answers them one after another. Nothing of a push that is refused reaches a guest. -/

namespace Tether

/-- The payload that this call hands to the guest of this number. -/
def Event.payload? (i : Nat) : Event → Option Octets
  | .signal guest payload => if guest = i then some payload else none
  | _ => none

/-- The payloads that the guest of this number has received, in order. -/
def received (i : Nat) (log : List Event) : List Octets :=
  log.filterMap (Event.payload? i)

theorem received_append (i : Nat) (log more : List Event) :
    received i (log ++ more) = received i log ++ received i more :=
  List.filterMap_append

/-- A guest that has not been called for has received nothing. -/
theorem received_of_le {scripts : List Script} {n i : Nat} {log : List Event}
    (h : Blocks scripts n log) (hi : n ≤ i) : received i log = [] := by
  apply List.filterMap_eq_nil_iff.mpr
  intro e he
  have hlt : e.guest < n := h.guest_lt e he
  cases e with
  | signal guest payload =>
      have hne : guest ≠ i := Nat.ne_of_lt (Nat.lt_of_lt_of_le hlt hi)
      exact if_neg hne
  | _ => rfl

/-- What a guest receives for a signal, if the signal can be encoded. -/
def Signal.payload? (sig : Signal) : Option Octets :=
  sig.toValue.encode.toOption

theorem Signal.payload?_eq (sig : Signal) : sig.payload? = sig.encode.toOption := by
  rw [payload?, encode_eq]

/-! ## Answers of guests -/

/-- How the guest of this number answers its first signals. -/
def signalReplies (scripts : List Script) (i : Nat) : List (Reply Unit) :=
  (scripts[i]?.map Script.signals).getD []

/-- How the guest of this number answers a signal when it has received `count` others before. -/
def signalReply (scripts : List Script) (i count : Nat) : Reply Unit :=
  (signalReplies scripts i)[count]?.getD (.done ())

/-- What a push returns for the answer of the guest. -/
def Reply.acceptance : Reply Unit → Except SessionError Unit
  | .done () => .ok ()
  | .failed e => .error (.guest e)
  | .panicked p => .error (.guest (.panic p.message))

theorem Reply.mapError_guarded (r : Reply Unit) :
    r.guarded.mapError SessionError.guest = r.acceptance := by
  cases r <;> rfl

theorem Guest.nextSignal_eq {g : Guest} {replies : List (Reply Unit)} {count : Nat}
    (h : g.script.signals = replies.drop count) :
    g.nextSignal.1 = replies[count]?.getD (.done ()) ∧
      g.nextSignal.2.script.signals = replies.drop (count + 1) := by
  have hhead : g.script.signals.head? = replies[count]? := by rw [h, List.head?_drop]
  have htail : g.script.signals.tail = replies.drop (count + 1) := by rw [h, List.tail_drop]
  unfold nextSignal
  split
  · rename_i hnil
    rw [hnil] at hhead htail
    rw [← hhead, ← htail]
    exact ⟨rfl, hnil⟩
  · rename_i reply rest hcons
    rw [hcons] at hhead htail
    rw [← hhead, ← htail]
    exact ⟨rfl, rfl⟩

@[simp] theorem Guest.signals_nextStep (g : Guest) :
    g.nextStep.2.script.signals = g.script.signals := by
  unfold nextStep
  split <;> rfl

/-- The guest apart from the answers it has left for signals. -/
def Guest.apartFromSignals (g : Guest) : Guest :=
  { g with script := { g.script with signals := [] } }

@[simp] theorem Guest.apartFromSignals_nextSignal (g : Guest) :
    g.nextSignal.2.apartFromSignals = g.apartFromSignals := by
  unfold nextSignal
  split <;> rfl

namespace Session

/-! ## Pushes -/

/-- The signals that one call pushes to the guest of this number. -/
def Machine.pushes (i : Nat) (m : Machine) : Call → List Signal
  | .signal sig => if m.live? = some i then [sig] else []
  | _ => []

/-- The signals that calls from here on push to the guest of this number. -/
def Machine.pushedFrom (scripts : List Script) (i : Nat) : Machine → List Call → List Signal
  | _, [] => []
  | m, c :: cs => m.pushes i c ++ pushedFrom scripts i (m.next scripts c) cs

/-- The signals pushed while the guest of this number was live, in order. -/
def pushedTo (scripts : List Script) (i : Nat) (past : List Call) : List Signal :=
  Machine.pushedFrom scripts i {} past

theorem Machine.pushedFrom_concat (scripts : List Script) (i : Nat) (m : Machine) (cs : List Call)
    (c : Call) : pushedFrom scripts i m (cs ++ [c]) =
      pushedFrom scripts i m cs ++ (cs.foldl (next scripts) m).pushes i c := by
  induction cs generalizing m with
  | nil => simp [pushedFrom]
  | cons b cs ih =>
      rw [List.cons_append, pushedFrom, pushedFrom, ih, List.append_assoc, List.foldl_cons]

theorem pushedTo_concat (scripts : List Script) (i : Nat) (past : List Call) (c : Call) :
    pushedTo scripts i (past ++ [c]) =
      pushedTo scripts i past ++ (Machine.after scripts past).pushes i c :=
  Machine.pushedFrom_concat scripts i {} past c

theorem Machine.after_concat (scripts : List Script) (past : List Call) (c : Call) :
    after scripts (past ++ [c]) = (after scripts past).next scripts c := by
  rw [after, List.foldl_append]
  rfl

/-! ## What one call adds to what a guest has received -/

section

variable {scripts : List Script} {m : Machine} {s : Session}

theorem received_close (i : Nat) (s : Session) :
    received i s.close.world.log = received i s.world.log := by
  cases hguest : s.guest with
  | none => rw [close_of_none hguest]
  | some g => simp [close_of_some hguest, received, Event.payload?]

theorem received_tryBoot (i : Nat) (s : Session) :
    received i s.tryBoot.2.world.log = received i s.world.log := by
  rw [← received_close i s, tryBoot_eq]
  dsimp only
  split <;> simp [World.callForGuest, received, Event.payload?]

theorem received_step (i : Nat) (s : Session) (synchronized : Bool) :
    received i (s.step synchronized).2.world.log = received i s.world.log := by
  rcases s.step_cases synchronized with hsame | ⟨g, -, hstep⟩
  · rw [hsame]
  · simp [hstep, received, Event.payload?]

theorem received_signal (h : s.Follows scripts m) (i : Nat) (sig : Signal) :
    received i (s.signal sig).2.world.log =
      received i s.world.log ++ (m.pushes i (.signal sig)).filterMap Signal.payload? := by
  have hlive := h.live_eq
  -- a push without effect is either none to a live guest or one of a signal without a payload
  cases hguest : s.guest with
  | none =>
      have hnone : m.live? = none := by rw [← hlive, hguest, Option.map_none]
      simp [signal_of_none hguest, Machine.pushes, hnone]
  | some g =>
      have hsome : m.live? = some g.number := by rw [← hlive, hguest, Option.map_some]
      cases hsig : sig.encode with
      | error e =>
          have hpayload : sig.payload? = none := by
            rw [sig.payload?_eq, hsig]
            rfl
          rw [signal_of_error hguest hsig, Machine.pushes]
          split <;> simp [hpayload]
      | ok payload =>
          have hpayload : sig.payload? = some payload := by
            rw [sig.payload?_eq, hsig]
            rfl
          rw [signal_of_ok hguest hsig, World.log_record, received_append, Machine.pushes, hsome]
          by_cases hi : g.number = i
          · simp [received, Event.payload?, hi, hpayload]
          · simp [received, Event.payload?, hi]

theorem received_call (h : s.Follows scripts m) (i : Nat) (c : Call) :
    received i (s.call c).2.world.log =
      received i s.world.log ++ (m.pushes i c).filterMap Signal.payload? := by
  cases c with
  | signal sig => exact received_signal h i sig
  | boot => exact (received_tryBoot i s).trans (List.append_nil _).symm
  | tryBoot => exact (received_tryBoot i s).trans (List.append_nil _).symm
  | close => exact (received_close i s).trans (List.append_nil _).symm
  | step synchronized => exact (received_step i s synchronized).trans (List.append_nil _).symm
  | store r => exact (List.append_nil _).symm
  | take => exact (List.append_nil _).symm

end

/-! ## Guests answer in order -/

/-- The live guest has answered as many signals as it has received. -/
def Answering (scripts : List Script) (s : Session) : Prop :=
  ∀ g, s.guest = some g →
    g.script.signals = (signalReplies scripts g.number).drop (received g.number s.world.log).length

section

variable {scripts : List Script} {s : Session}

theorem answering_of_none (h : s.guest = none) : s.Answering scripts := by
  intro g hg
  rw [h] at hg
  cases hg

/-- The guest that a start leaves live is the one called for, at the beginning of its script. -/
theorem guest_tryBoot {g : Guest} (hscripts : s.close.world.scripts = scripts)
    (hg : s.tryBoot.2.guest = some g) : ∃ script,
      scripts[s.close.world.created]? = some script ∧ g = ⟨s.close.world.created, script⟩ := by
  rw [tryBoot_eq, hscripts] at hg
  dsimp only at hg
  split at hg
  · simp at hg
  · simp at hg
  · rename_i script hfate
    cases hg
    exact ⟨script, (fate_ready hfate).1, rfl⟩

theorem answering_tryBoot (h : s.Logged scripts) : s.tryBoot.2.Answering scripts := by
  have hidle := idle_close h
  intro g hg
  obtain ⟨script, hscript, rfl⟩ := guest_tryBoot hidle.scripts_eq hg
  -- no earlier guest had the number of this one, so nothing in the log was meant for it
  have hnothing : received s.close.world.created s.close.world.log = [] :=
    received_of_le hidle.blocks (Nat.le_refl _)
  rw [received_tryBoot, ← received_close, hnothing, signalReplies, hscript]
  rfl

theorem answering_step (h : s.Answering scripts) (synchronized : Bool) :
    (s.step synchronized).2.Answering scripts := by
  rcases s.step_cases synchronized with hsame | ⟨g, hguest, hstep⟩
  · rw [hsame]
    exact h
  · have hlog := received_step g.number s synchronized
    rw [hstep] at hlog ⊢
    intro next hnext
    cases hnext
    rw [Guest.signals_nextStep, Guest.number_nextStep, hlog]
    exact h g hguest

theorem answering_signal (h : s.Answering scripts) (sig : Signal) :
    (s.signal sig).2.Answering scripts := by
  rcases s.signal_cases sig with hsame | ⟨g, payload, hguest, -, hsignal⟩
  · rw [hsame]
    exact h
  · have hone : received g.number [.signal g.number payload] = [payload] := by
      simp [received, Event.payload?]
    rw [hsignal]
    intro next hnext
    cases hnext
    rw [Guest.number_nextSignal, World.log_record, received_append, hone, List.length_append]
    exact (Guest.nextSignal_eq (h g hguest)).2

end

/-! ## Runs -/

/-- The calls so far tell where the session stands and what its guests have received. -/
structure Accounted (scripts : List Script) (past : List Call) (s : Session) : Prop where
  logged : s.Logged scripts
  follows : s.Follows scripts (Machine.after scripts past)
  received_eq : ∀ i, received i s.world.log = (pushedTo scripts i past).filterMap Signal.payload?
  answering : s.Answering scripts

section

variable {scripts : List Script} {past : List Call} {s : Session}

theorem accounted_start (scripts : List Script) (disk : Disk) :
    Accounted scripts [] { world := { scripts, disk } } where
  logged := logged_start scripts disk
  follows := follows_start scripts disk
  received_eq _ := rfl
  answering := answering_of_none rfl

theorem accounted_pending (h : s.Accounted scripts past) (pending : Slot StepResult) :
    Accounted scripts past { s with pending } :=
  ⟨h.logged, follows_pending h.follows pending, h.received_eq, h.answering⟩

theorem accounted_disk (h : s.Accounted scripts past) (d : Disk) :
    Accounted scripts past { s with world := { s.world with disk := d } } where
  logged := logged_disk h.logged d
  follows := ⟨h.follows.scripts_eq, h.follows.called_eq, h.follows.state_eq, h.follows.live_eq⟩
  received_eq := h.received_eq
  answering := h.answering

theorem accounted_call (h : s.Accounted scripts past) (c : Call) :
    (s.call c).2.Accounted scripts (past ++ [c]) where
  logged := logged_call h.logged c
  follows := by
    rw [Machine.after_concat]
    exact follows_call h.follows c
  received_eq i := by
    rw [received_call h.follows, h.received_eq, pushedTo_concat, List.filterMap_append]
  answering := by
    cases c with
    | boot => exact answering_tryBoot h.logged
    | tryBoot => exact answering_tryBoot h.logged
    | close => exact answering_of_none s.guest_close
    | step synchronized => exact answering_step h.answering synchronized
    | signal sig => exact answering_signal h.answering sig
    | store r => exact h.answering
    | take => exact h.answering

theorem accounted_run (h : s.Accounted scripts past) (cs : List Call) :
    (s.run cs).2.Accounted scripts (past ++ cs) := by
  induction cs generalizing s past with
  | nil => simpa using h
  | cons c cs ih =>
      rw [run_cons, List.append_cons]
      exact ih (accounted_call h c)

end

/-! ## What a push answers -/

/-- What a push answers after these calls, and what it leaves of the session. A missing guest is
noticed before an error of the encoding, and that before the guest is called. -/
structure Pushed (scripts : List Script) (past : List Call) (sig : Signal) (s : Session)
    (answer : Except SessionError Unit) (t : Session) : Prop where
  without_guest : (Machine.after scripts past).live? = none → answer = .error .notInitialized ∧ t = s
  unencodable : ∀ i e, (Machine.after scripts past).live? = some i → sig.toValue.encode = .error e →
    answer = .error (.encode e) ∧ t = s
  delivered : ∀ i payload, (Machine.after scripts past).live? = some i →
    sig.toValue.encode = .ok payload →
    answer = (signalReply scripts i (received i s.world.log).length).acceptance ∧
      t.world = s.world.record (.signal i payload)
  state_eq : t.state = s.state
  guest_eq : t.guest.map Guest.apartFromSignals = s.guest.map Guest.apartFromSignals
  pending_eq : t.pending = s.pending

theorem Accounted.pushed {scripts : List Script} {past : List Call} {s : Session}
    (h : s.Accounted scripts past) (sig : Signal) :
    Pushed scripts past sig s (s.signal sig).1 (s.signal sig).2 := by
  have hlive := h.follows.live_eq
  refine ⟨?_, ?_, ?_, state_signal s sig, ?_, pending_signal s sig⟩
  · intro hnone
    have hguest : s.guest = none := by simpa [hnone] using hlive
    rw [signal_of_none hguest]
    exact ⟨rfl, rfl⟩
  · intro i e hsome hsig
    obtain ⟨g, hguest, -⟩ := Option.map_eq_some_iff.mp (hlive.trans hsome)
    rw [signal_of_error hguest (sig.encode_eq.trans hsig)]
    exact ⟨rfl, rfl⟩
  · intro i payload hsome hsig
    obtain ⟨g, hguest, rfl⟩ := Option.map_eq_some_iff.mp (hlive.trans hsome)
    obtain ⟨hreply, -⟩ := Guest.nextSignal_eq (h.answering g hguest)
    rw [signal_of_ok hguest (sig.encode_eq.trans hsig), Reply.mapError_guarded, hreply]
    exact ⟨rfl, rfl⟩
  · rcases s.signal_cases sig with hsame | ⟨g, payload, hguest, -, hsignal⟩
    · rw [hsame]
    · simp [hsignal, hguest]

end Session

end Tether
