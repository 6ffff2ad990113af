/-! # Failure records -/

namespace Tether

/-- A host error reduced to the qualified name of its type and its message. -/
structure Failure where
  typeName : String
  message : String
  deriving DecidableEq, Inhabited

namespace Failure

/-- The line under which a failure is reported: the type name, a colon and the message. -/
def text (f : Failure) : String :=
  f.typeName ++ ": " ++ f.message

end Failure

/-- An error that can be reported: the qualified name of its type, its message, and the messages of
the errors it stems from, nearest first. -/
class Reportable (ε : Type) where
  typeName : String
  message : ε → String
  sources : ε → List String

def Failure.capture {ε : Type} [Reportable ε] (e : ε) : Failure :=
  ⟨Reportable.typeName ε, Reportable.message e⟩

end Tether
