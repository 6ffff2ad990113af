import Tether.Watch

/-! # What a watch can tell of a disk

A watch sees one time, and a change of the disk follows paths and sets times. Neither looks into a
file. So two disks with the same directories, and files with the same times at the same places, stay
as they are to every watch, whatever is done to both. -/

namespace Tether

namespace Disk

variable {d e : Disk}

/-! ## Places after a change -/

theorem lookup_filter {p : Location → Bool} (entries : List (Location × Entry)) (here : Location) :
    (entries.filter fun entry => p entry.1).lookup here =
      if p here then entries.lookup here else none := by
  induction entries with
  | nil => simp
  | cons entry entries ih =>
      obtain ⟨there, content⟩ := entry
      by_cases hthere : here = there
      · subst hthere
        by_cases hp : p here <;> simp [hp, ih]
      · have hne : (here == there) = false := beq_false_of_ne hthere
        by_cases hp : p there <;> simp [List.lookup_cons, hp, hne, ih]

theorem lookup?_place_of_ne {here there : Location} (h : there ≠ here) (d : Disk) (entry : Entry) :
    (d.place here entry).lookup? there = d.lookup? there := by
  have hne : (there == here) = false := beq_false_of_ne h
  simp only [lookup?, place, List.lookup_cons, hne]
  rw [lookup_filter (p := fun at' => decide (at' ≠ here)), if_pos (decide_eq_true h)]

theorem lookup?_prune (d : Disk) (here there : Location) :
    (d.prune here).lookup? there = if here.isPrefixOf there then none else d.lookup? there := by
  simp only [lookup?, prune]
  rw [lookup_filter (p := fun at' => !here.isPrefixOf at')]
  cases here.isPrefixOf there <;> rfl

/-! ## Disks that look alike -/

/-- What is seen of an entry without reading it: whether it is a directory, and its time. -/
def Entry.sight (entry : Entry) : Bool × Instant :=
  match entry.content with
  | .file _ => (false, entry.modified)
  | .directory => (true, entry.modified)

theorem Entry.sight_eq_iff {a b : Entry} : b.sight = a.sight ↔
    b.modified = a.modified ∧
      ((b.content = .directory ∧ a.content = .directory) ∨
        ∃ data data', b.content = .file data ∧ a.content = .file data') := by
  obtain ⟨_ | _, time⟩ := a <;> obtain ⟨_ | _, time'⟩ := b <;> simp [sight]

/-- Two disks with the same directories, and with files of the same times at the same places. -/
structure Alike (d e : Disk) : Prop where
  workingDirectory_eq : e.workingDirectory = d.workingDirectory
  sight_eq : ∀ here, (e.lookup? here).map Entry.sight = (d.lookup? here).map Entry.sight

theorem Alike.lookup?_cases (h : d.Alike e) (here : Location) :
    (d.lookup? here = none ∧ e.lookup? here = none) ∨
      ∃ a b, d.lookup? here = some a ∧ e.lookup? here = some b ∧ b.sight = a.sight := by
  have hsight := h.sight_eq here
  cases hd : d.lookup? here with
  | none =>
      rw [hd, Option.map_none, Option.map_eq_none_iff] at hsight
      exact .inl ⟨rfl, hsight⟩
  | some a =>
      rw [hd, Option.map_some, Option.map_eq_some_iff] at hsight
      obtain ⟨b, he, hb⟩ := hsight
      exact .inr ⟨a, b, rfl, he, hb⟩

theorem Alike.follow_eq (h : d.Alike e) (here : Location) (names : List String) :
    e.follow here names = d.follow here names := by
  induction names generalizing here with
  | nil => rfl
  | cons name names ih =>
      unfold follow
      rcases h.lookup?_cases here with ⟨hd, he⟩ | ⟨⟨content, _⟩, ⟨content', _⟩, hd, he, hsight⟩
      · rw [hd, he]
      · rw [hd, he]
        rcases (Entry.sight_eq_iff.mp hsight).2 with ⟨rfl, rfl⟩ | ⟨data, data', rfl, rfl⟩
        · simp only [ih]
        · rfl

theorem Alike.locate_eq (h : d.Alike e) (path : String) : e.locate path = d.locate path := by
  simp only [locate, start, h.workingDirectory_eq, h.follow_eq]

theorem Alike.modified?_eq (h : d.Alike e) (path : String) : e.modified? path = d.modified? path := by
  unfold modified? find
  rw [h.locate_eq]
  cases d.locate path with
  | error fault => rfl
  | ok here =>
      simp only [bind, Except.bind]
      rcases h.lookup?_cases here with ⟨hd, he⟩ | ⟨a, b, hd, he, hsight⟩
      · rw [hd, he]
      · rw [hd, he]
        exact congrArg some (Entry.sight_eq_iff.mp hsight).1

/-! ### Changes keep disks alike -/

theorem Alike.place (h : d.Alike e) (here : Location) {a b : Entry} (hsight : b.sight = a.sight) :
    (d.place here a).Alike (e.place here b) where
  workingDirectory_eq := h.workingDirectory_eq
  sight_eq there := by
    by_cases hthere : there = here
    · rw [hthere, lookup?_place, lookup?_place, Option.map_some, Option.map_some, hsight]
    · rw [lookup?_place_of_ne hthere, lookup?_place_of_ne hthere, h.sight_eq]

theorem Alike.prune (h : d.Alike e) (here : Location) : (d.prune here).Alike (e.prune here) where
  workingDirectory_eq := h.workingDirectory_eq
  sight_eq there := by
    rw [lookup?_prune, lookup?_prune]
    split
    · rfl
    · exact h.sight_eq there

theorem Alike.apply (h : d.Alike e) (change : Change) : (d.apply change).Alike (e.apply change) := by
  cases change with
  | touch path time =>
      simp only [Disk.apply, h.locate_eq]
      cases d.locate path with
      | error fault => exact h
      | ok here =>
          rcases h.lookup?_cases here with ⟨hd, he⟩ | ⟨a, b, hd, he, hsight⟩
          · simp only [hd, he]
            exact h.place here rfl
          · simp only [hd, he]
            exact h.place here (Entry.sight_eq_iff.mpr ⟨rfl, (Entry.sight_eq_iff.mp hsight).2⟩)
  | remove path =>
      simp only [Disk.apply, h.locate_eq]
      cases d.locate path with
      | error fault => exact h
      | ok here => exact h.prune here

theorem Alike.foldl_apply (h : d.Alike e) (changes : List Change) :
    (changes.foldl Disk.apply d).Alike (changes.foldl Disk.apply e) := by
  induction changes generalizing d e with
  | nil => exact h
  | cons change changes ih => exact ih (h.apply change)

end Disk

namespace Watch

variable {w : Watch} {d e : Disk}

/-- The watch sees the same on both disks, now and after whatever is done to both. -/
def SameImage (w : Watch) (d e : Disk) : Prop :=
  ∀ changes : List Disk.Change,
    w.sample (changes.foldl Disk.apply e) = w.sample (changes.foldl Disk.apply d)

theorem SameImage.sample_eq (h : w.SameImage d e) : w.sample e = w.sample d :=
  h []

theorem SameImage.foldl_apply (h : w.SameImage d e) (changes : List Disk.Change) :
    w.SameImage (changes.foldl Disk.apply d) (changes.foldl Disk.apply e) := by
  intro more
  rw [← List.foldl_append, ← List.foldl_append]
  exact h (changes ++ more)

theorem sameImage_of_alike (h : d.Alike e) : w.SameImage d e := by
  intro changes
  cases hpath : w.path with
  | none => simp [sample, hpath]
  | some path => simp [sample, hpath, (h.foldl_apply changes).modified?_eq]

end Watch

end Tether
