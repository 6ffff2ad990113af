import Tether.Json.Record
import Tether.Watch

/-! # Configuration

A configuration is a JSON record of two sections, each a record itself. -/

namespace Tether

namespace Config

structure General where
  /-- Whether everything that happens is logged. -/
  trace : Bool := false
  deriving DecidableEq

structure Firmware where
  image : Option String := none
  /-- Whether a change of the image forces a reboot. -/
  watch : Bool := true
  deriving DecidableEq

end Config

structure Config where
  general : Config.General := {}
  firmware : Config.Firmware := {}
  deriving DecidableEq

namespace Config

/-- Why there is no configuration. -/
inductive Error where
  | read (path : String) (fault : FileFault)
  | parse (fault : Json.Fault)
  deriving DecidableEq

def Error.message : Error → String
  | .read path fault => "failed to read config '" ++ path ++ "': " ++ fault.message
  | .parse fault => "invalid config: " ++ fault.message

open Json

def General.fields : List (RecordField General) :=
  [⟨"trace", fun t g => do return { g with trace := ← t.toBool }⟩]

def Firmware.fields : List (RecordField Firmware) :=
  [ ⟨"image", fun t f => do return { f with image := ← t.toOptionalText }⟩,
    ⟨"watch", fun t f => do return { f with watch := ← t.toBool }⟩ ]

def fields : List (RecordField Config) :=
  [ ⟨"general", fun t c => do return { c with general := ← t.readRecord General.fields {} }⟩,
    ⟨"firmware", fun t c => do return { c with firmware := ← t.readRecord Firmware.fields {} }⟩ ]

/-- The configuration that a JSON text spells. -/
def ofText (s : String) : Except Error Config :=
  ((Document.ofText s).interpret (Tree.readRecord fields {})).mapError .parse

/-- The configuration in a file, from what reading the file gave. -/
def ofFile (path : String) (contents : Except FileFault Octets) : Except Error Config := do
  ofText (← (contents.bind FileFault.text).mapError (.read path))

/-- The watch on the image, unless there is none or it is not to be watched. -/
def imageWatch (c : Config) : Watch :=
  if c.firmware.watch then ⟨c.firmware.image⟩ else .disabled

end Config

end Tether
