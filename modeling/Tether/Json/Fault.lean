/-! # What can be wrong with a JSON text -/

namespace Tether.Json

/-- The first problem met when a text is read from left to right. -/
inductive Fault where
  /-- The text ends before the value does. -/
  | cutShort
  /-- A character that cannot stand where it stands, or a number out of range. -/
  | malformed
  /-- A value of the wrong type, or a field given twice. -/
  | mistyped
  deriving DecidableEq

def Fault.category : Fault → String
  | .cutShort => "eof"
  | .malformed => "syntax"
  | .mistyped => "data"

def Fault.message : Fault → String
  | .cutShort => "the text ends too early"
  | .malformed => "the text is malformed"
  | .mistyped => "a value has the wrong type or a field is repeated"

end Tether.Json
