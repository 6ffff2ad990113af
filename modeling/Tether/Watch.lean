import Tether.Disk
import Tether.Text.Printed

/-! # Image watches

A watch looks at nothing but the time of last modification of one path. A time that cannot be read
is absent, and an absent time is no sign of a change. -/

namespace Tether

structure Watch where
  path : Option String
  deriving DecidableEq, Inhabited

namespace Watch

/-- A watch that never sees anything. -/
def disabled : Watch :=
  ⟨none⟩

def on (path : String) : Watch :=
  ⟨some path⟩

/-- The time the watch sees now. -/
def sample (w : Watch) (d : Disk) : Option Instant :=
  w.path.bind d.modified?

/-- Two times tell of a change if both are there and differ, in whichever direction. -/
def changed : Option Instant → Option Instant → Bool
  | some before, some after => before ≠ after
  | _, _ => false

theorem changed_iff (before after : Option Instant) :
    changed before after ↔ ∃ s t, before = some s ∧ after = some t ∧ s ≠ t := by
  cases before <;> cases after <;> simp [changed]

@[simp] theorem sample_disabled (d : Disk) : disabled.sample d = none := rfl

def print (w : Watch) : String :=
  "ImageWatch \x7b path: " ++ Text.printOption (w.path.map Text.print) ++ " \x7d"

end Watch

end Tether
