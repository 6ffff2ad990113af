import Tether.Proofs.Session.Calls

/-! # Logs made of blocks

A log without gaps is a concatenation of blocks, one for each guest that was called for. The script
of the guest decides which kind of block it is, and all that has to be known about the order of
calls can be read off the blocks. -/

namespace Tether

/-- A call that only a live guest receives, here the guest of this number. -/
def Event.Serves (i : Nat) : Event → Prop
  | .step guest _ | .signal guest _ => guest = i
  | _ => False

/-- All calls that concern the guest of this number, in order. -/
inductive Block (scripts : List Script) (i : Nat) : List Event → Prop
  | unconstructed : ¬ Constructed scripts i → Block scripts i [.create i]
  | unready : Constructed scripts i → ¬ Ready scripts i →
      Block scripts i [.create i, .start i, .close i]
  | lived {life : List Event} : Constructed scripts i → Ready scripts i →
      (∀ e ∈ life, e.Serves i) → Block scripts i (.create i :: .start i :: (life ++ [.close i]))

/-- A concatenation of the blocks of the first `n` guests. -/
inductive Blocks (scripts : List Script) : Nat → List Event → Prop
  | nil : Blocks scripts 0 []
  | snoc {n : Nat} {log block : List Event} :
      Blocks scripts n log → Block scripts n block → Blocks scripts (n + 1) (log ++ block)

/-- A guest that was constructed and not released yet. -/
structure LiveAfter (scripts : List Script) (log : List Event) (i : Nat) : Prop where
  constructed : Constructed scripts i
  called : .create i ∈ log
  unreleased : .close i ∉ log

/-- The discipline of a log in which `n` guests were called for. -/
structure Orderly (scripts : List Script) (n : Nat) (log : List Event) : Prop where
  blocks : Blocks scripts n log
  started_once : ∀ i < n, Constructed scripts i → log.count (.start i) = 1
  closed_once : ∀ i < n, Constructed scripts i → log.count (.close i) = 1
  served_alive : ∀ before e after i, log = before ++ e :: after → e.Serves i →
    Constructed scripts i ∧ Ready scripts i ∧ .start i ∈ before ∧ .close i ∉ before
  silent_after_close : ∀ before after i, log = before ++ .close i :: after → ∀ e ∈ after, e.guest ≠ i
  one_live : ∀ before after i j, log = before ++ after →
    LiveAfter scripts before i → LiveAfter scripts before j → i = j

theorem Event.guest_of_serves {i : Nat} {e : Event} (h : e.Serves i) : e.guest = i := by
  cases e <;> simp_all [Serves, guest]

section

variable {scripts : List Script} {i n : Nat} {log block : List Event}

namespace Block

theorem guest_eq (h : Block scripts i block) : ∀ e ∈ block, e.guest = i := by
  cases h with
  | unconstructed h => simp [Event.guest]
  | unready hc hr => simp [Event.guest]
  | lived hc hr hlife =>
      intro e he
      simp only [List.mem_cons, List.mem_append, List.not_mem_nil, or_false] at he
      rcases he with rfl | rfl | he | rfl
      · rfl
      · rfl
      · exact Event.guest_of_serves (hlife e he)
      · rfl

theorem count_serving {life : List Event} {e : Event} (hlife : ∀ d ∈ life, d.Serves i)
    (he : ¬ e.Serves i) : life.count e = 0 := by
  apply List.count_eq_zero.mpr
  intro hmem
  exact he (hlife e hmem)

theorem count_start (h : Block scripts i block) (hc : Constructed scripts i) :
    block.count (.start i) = 1 := by
  cases h with
  | unconstructed h => exact (h hc).elim
  | unready hc hr => simp
  | lived hc hr hlife => simp [count_serving hlife (e := .start i) (fun h => h)]

theorem count_close (h : Block scripts i block) (hc : Constructed scripts i) :
    block.count (.close i) = 1 := by
  cases h with
  | unconstructed h => exact (h hc).elim
  | unready hc hr => simp
  | lived hc hr hlife => simp [count_serving hlife (e := .close i) (fun h => h)]

/-- A block with more than the call for the guest starts it, serves it and ends with its release. -/
theorem shape (h : Block scripts i block) : block = [.create i] ∨
    ∃ life, (∀ e ∈ life, e.Serves i) ∧ block = .create i :: .start i :: (life ++ [.close i]) := by
  cases h with
  | unconstructed h => exact .inl rfl
  | unready hc hr => exact .inr ⟨[], by simp, rfl⟩
  | lived hc hr hlife => exact .inr ⟨_, hlife, rfl⟩

theorem alive_of_serves (h : Block scripts i block) {e : Event} (he : e ∈ block)
    (hserves : e.Serves i) : Constructed scripts i ∧ Ready scripts i := by
  cases h with
  | unconstructed h =>
      cases List.mem_singleton.mp he
      exact hserves.elim
  | unready hc hr =>
      simp only [List.mem_cons, List.not_mem_nil, or_false] at he
      rcases he with rfl | rfl | rfl <;> exact hserves.elim
  | lived hc hr hlife => exact ⟨hc, hr⟩

end Block

/-! ## Positions in a log -/

theorem append_eq_append_cons {log block before after : List Event} {e : Event}
    (h : log ++ block = before ++ e :: after) :
    (∃ rest, before = log ++ rest ∧ block = rest ++ e :: after) ∨
      ∃ rest, log = before ++ e :: rest ∧ after = rest ++ block := by
  rcases List.append_eq_append_iff.mp h with ⟨rest, hbefore, hblock⟩ | ⟨rest, hlog, hafter⟩
  · exact .inl ⟨rest, hbefore, hblock⟩
  · cases rest with
    | nil => exact .inl ⟨[], by simpa using hlog.symm, by simpa using hafter.symm⟩
    | cons d rest =>
        obtain ⟨rfl, rfl⟩ := List.cons.inj hafter
        exact .inr ⟨rest, hlog, rfl⟩

namespace Block

/-- Inside a block, a position after the start of the guest is within its life or at its release. -/
theorem split_life {life rest after : List Event} {e : Event} (hlife : ∀ d ∈ life, d.Serves i)
    (h : life ++ [.close i] = rest ++ e :: after) : .close i ∉ rest ∧ (e = .close i → after = []) := by
  rcases append_eq_append_cons h with ⟨tail, rfl, htail⟩ | ⟨tail, rfl, -⟩
  · have hsingle : tail = [] ∧ e = .close i ∧ after = [] := by
      cases tail with
      | nil =>
          obtain ⟨he, hafter⟩ := List.cons.inj htail
          exact ⟨rfl, he.symm, hafter.symm⟩
      | cons d tail => simp at htail
    obtain ⟨rfl, -, hafter⟩ := hsingle
    refine ⟨?_, fun _ => hafter⟩
    intro hmem
    exact hlife _ (by simpa using hmem)
  · refine ⟨fun hmem => hlife _ (List.mem_append_left _ hmem), ?_⟩
    rintro rfl
    exact (hlife (.close i) (by simp)).elim

/-- Every call in a block but the first two has the start of the guest before it and its release
neither before it nor, if it is the release, anything after it. -/
theorem split (h : Block scripts i block) {rest after : List Event} {e : Event}
    (hsplit : block = rest ++ e :: after) : e = .create i ∨ e = .start i ∨
      (.start i ∈ rest ∧ .close i ∉ rest ∧ (e = .close i → after = [])) := by
  rcases h.shape with hshape | ⟨life, hlife, hshape⟩
  · have he : e ∈ [Event.create i] := by
      rw [← hshape, hsplit]
      simp
    exact .inl (List.mem_singleton.mp he)
  · rw [hsplit] at hshape
    cases rest with
    | nil => exact .inl (List.cons.inj hshape).1
    | cons a rest =>
        obtain ⟨ha, hshape⟩ := List.cons.inj hshape
        cases rest with
        | nil => exact .inr (.inl (List.cons.inj hshape).1)
        | cons b rest =>
            obtain ⟨hb, hshape⟩ := List.cons.inj hshape
            obtain ⟨hclose, hlast⟩ := split_life hlife hshape.symm
            exact .inr (.inr ⟨by simp [hb], by simp [ha, hb, hclose], hlast⟩)

theorem served_after_start (h : Block scripts i block) {rest after : List Event} {e : Event}
    (hsplit : block = rest ++ e :: after) (hserves : e.Serves i) :
    .start i ∈ rest ∧ .close i ∉ rest := by
  rcases h.split hsplit with rfl | rfl | ⟨hstart, hclose, -⟩
  · exact hserves.elim
  · exact hserves.elim
  · exact ⟨hstart, hclose⟩

theorem close_is_last (h : Block scripts i block) {rest after : List Event}
    (hsplit : block = rest ++ .close i :: after) : after = [] := by
  rcases h.split hsplit with he | he | ⟨-, -, hlast⟩
  · cases he
  · cases he
  · exact hlast rfl

end Block

/-! ## Concatenations -/

namespace Blocks

theorem guest_lt (h : Blocks scripts n log) : ∀ e ∈ log, e.guest < n := by
  induction h with
  | nil => simp
  | snoc hlog hblock ih =>
      intro e he
      rcases List.mem_append.mp he with he | he
      · exact Nat.lt_succ_of_lt (ih e he)
      · rw [hblock.guest_eq e he]
        exact Nat.lt_succ_self _

theorem count_of_le (h : Blocks scripts n log) {e : Event} (he : n ≤ e.guest) : log.count e = 0 := by
  apply List.count_eq_zero.mpr
  intro hmem
  exact Nat.not_lt.mpr he (h.guest_lt e hmem)

/-- What each block has once for its guest, the log has once for every guest. -/
theorem count_once {f : Nat → Event} (hf : ∀ i, (f i).guest = i)
    (hblock : ∀ {i block}, Block scripts i block → Constructed scripts i → block.count (f i) = 1)
    (h : Blocks scripts n log) : ∀ i < n, Constructed scripts i → log.count (f i) = 1 := by
  induction h with
  | nil => exact fun i hi => (Nat.not_lt_zero i hi).elim
  | @snoc n log block hlog hlast ih =>
      intro i hi hc
      rw [List.count_append]
      by_cases hin : i = n
      · subst hin
        rw [hlog.count_of_le (Nat.le_of_eq (hf i).symm), hblock hlast hc]
      · have hzero : block.count (f i) = 0 := by
          apply List.count_eq_zero.mpr
          intro hmem
          exact hin ((hf i).symm.trans (hlast.guest_eq _ hmem))
        rw [ih i (by omega) hc, hzero]

theorem started_once (h : Blocks scripts n log) :
    ∀ i < n, Constructed scripts i → log.count (.start i) = 1 :=
  h.count_once (fun _ => rfl) Block.count_start

theorem closed_once (h : Blocks scripts n log) :
    ∀ i < n, Constructed scripts i → log.count (.close i) = 1 :=
  h.count_once (fun _ => rfl) Block.count_close

theorem served_alive (h : Blocks scripts n log) : ∀ before e after i, log = before ++ e :: after →
    e.Serves i → Constructed scripts i ∧ Ready scripts i ∧ .start i ∈ before ∧ .close i ∉ before := by
  induction h with
  | nil => simp
  | @snoc n log block hlog hlast ih =>
      intro before e after i hsplit hserves
      rcases append_eq_append_cons hsplit with ⟨rest, rfl, hblock⟩ | ⟨rest, hbefore, -⟩
      · have he : e ∈ block := by
          rw [hblock]
          simp
        have hin : i = n := (Event.guest_of_serves hserves).symm.trans (hlast.guest_eq e he)
        subst hin
        obtain ⟨hc, hr⟩ := hlast.alive_of_serves he hserves
        obtain ⟨hstart, hclose⟩ := hlast.served_after_start hblock hserves
        refine ⟨hc, hr, List.mem_append_right _ hstart, ?_⟩
        intro hmem
        rcases List.mem_append.mp hmem with hmem | hmem
        · exact Nat.lt_irrefl _ (hlog.guest_lt _ hmem)
        · exact hclose hmem
      · exact ih before e rest i hbefore hserves

theorem silent_after_close (h : Blocks scripts n log) : ∀ before after i,
    log = before ++ .close i :: after → ∀ e ∈ after, e.guest ≠ i := by
  induction h with
  | nil => simp
  | @snoc n log block hlog hlast ih =>
      intro before after i hsplit e he
      rcases append_eq_append_cons hsplit with ⟨rest, rfl, hblock⟩ | ⟨rest, hbefore, hafter⟩
      · have hin : i = n := hlast.guest_eq (.close i) (by rw [hblock]; simp)
        subst hin
        rw [hlast.close_is_last hblock] at he
        cases he
      · rw [hafter] at he
        rcases List.mem_append.mp he with he | he
        · exact ih before rest i hbefore e he
        · have hi : i < n := hlog.guest_lt (.close i) (by rw [hbefore]; simp)
          rw [hlast.guest_eq e he]
          exact Nat.ne_of_gt hi

/-- A live guest is the last one that was called for. -/
theorem live_is_last (h : Blocks scripts n log) : ∀ before after i, log = before ++ after →
    LiveAfter scripts before i → ∀ e ∈ before, e.guest ≤ i := by
  induction h with
  | nil =>
      intro before after i hsplit hlive e he
      rw [(List.append_eq_nil_iff.mp hsplit.symm).1] at he
      cases he
  | @snoc n log block hlog hlast ih =>
      intro before after i hsplit hlive
      rcases List.append_eq_append_iff.mp hsplit with ⟨rest, rfl, -⟩ | ⟨rest, hbefore, -⟩
      · have hall : Blocks scripts (n + 1) (log ++ block) := .snoc hlog hlast
        have hmem (e : Event) (he : e ∈ log ++ rest) : e.guest < n + 1 := by
          apply hall.guest_lt
          rw [hsplit]
          exact List.mem_append_left _ he
        have hin : i < n + 1 := hmem _ hlive.called
        -- an earlier guest would have been released in a block that is complete
        have hnot : ¬ i < n := by
          intro hlt
          have hcount := hlog.closed_once i hlt hlive.constructed
          have hclose : .close i ∈ log := List.count_pos_iff.mp (by omega)
          exact hlive.unreleased (List.mem_append_left _ hclose)
        intro e he
        have hen := hmem e he
        omega
      · exact ih before rest i hbefore hlive

theorem one_live (h : Blocks scripts n log) : ∀ before after i j, log = before ++ after →
    LiveAfter scripts before i → LiveAfter scripts before j → i = j := by
  intro before after i j hsplit hi hj
  have hij : i ≤ j := h.live_is_last before after j hsplit hj _ hi.called
  have hji : j ≤ i := h.live_is_last before after i hsplit hi _ hj.called
  exact Nat.le_antisymm hij hji

theorem orderly (h : Blocks scripts n log) : Orderly scripts n log where
  blocks := h
  started_once := h.started_once
  closed_once := h.closed_once
  served_alive := h.served_alive
  silent_after_close := h.silent_after_close
  one_live := h.one_live

end Blocks

end

end Tether
