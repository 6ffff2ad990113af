import Tether.Failure

/-! # Errors at the boundary between host and guest

Each boundary has its own type of error. The constructors are the causes; the wording of each is in
`message`, and `sources` lists the messages of the errors behind it. An error that only passes on
another one has the other's message and sources. -/

namespace Tether

/-- Why a value could not be written. -/
inductive EncodeError where
  /-- A handle whose printed form is not a 32-bit integer. -/
  | unsupportedType (typeName display : String)
  /-- A container or payload longer than a 32-bit length. -/
  | tooLarge (kind : String) (length : Nat)
  /-- The sink refused a value of several octets. -/
  | writeValue (fault : String)
  /-- The sink refused a marker of one octet. -/
  | writeMarker (fault : String)
  deriving DecidableEq

/-- What a guest reports, or is caught doing. -/
inductive GuestError where
  | image (detail : String)
  | fault (detail : String)
  | signal (detail : String)
  | panic (detail : String)
  | encode (cause : EncodeError)
  deriving DecidableEq

/-- Why a session has no live guest after an attempt to start one. -/
inductive InitError where
  | construct (cause : GuestError)
  | startup (cause : GuestError)
  | notReady
  deriving DecidableEq

/-- Why a call on a session could not be carried out. -/
inductive SessionError where
  | notInitialized
  | encode (cause : EncodeError)
  | guest (cause : GuestError)
  deriving DecidableEq

/-- The qualified name under which an error type is reported. -/
def qualifiedErrorName (name : String) : String :=
  "guestlink_core::common::error::" ++ name

namespace EncodeError

/-- The message of the sink for any value it could not take whole. -/
def shortWrite : String :=
  "error while writing multi-byte MessagePack value"

def message : EncodeError → String
  | .unsupportedType typeName display => "unsupported type " ++ typeName ++ " => " ++ display
  | .tooLarge kind length =>
    kind ++ " of " ++ toString length ++ " entries exceeds the wire format limit"
  | .writeValue _ => "failed to write wire value: " ++ shortWrite
  | .writeMarker fault => "failed to write wire marker: " ++ fault

def sources : EncodeError → List String
  | .unsupportedType _ _ | .tooLarge _ _ => []
  | .writeValue fault => [shortWrite, fault]
  | .writeMarker fault => [fault]

instance : Reportable EncodeError := ⟨qualifiedErrorName "EncodeError", message, sources⟩

end EncodeError

namespace GuestError

def message : GuestError → String
  | .image detail => "guest image unavailable: " ++ detail
  | .fault detail => "guest faulted: " ++ detail
  | .signal detail => "guest rejected signal: " ++ detail
  | .panic detail => "guest panicked: " ++ detail
  | .encode cause => cause.message

def sources : GuestError → List String
  | .encode cause => cause.sources
  | _ => []

instance : Reportable GuestError := ⟨qualifiedErrorName "GuestError", message, sources⟩

end GuestError

namespace InitError

def message : InitError → String
  | .construct cause => "failed to construct guest: " ++ cause.message
  | .startup cause => "guest startup failed: " ++ cause.message
  | .notReady => "guest reported not ready after startup"

def sources : InitError → List String
  | .construct cause | .startup cause => cause.message :: cause.sources
  | .notReady => []

instance : Reportable InitError := ⟨qualifiedErrorName "InitError", message, sources⟩

end InitError

namespace SessionError

def message : SessionError → String
  | .notInitialized => "session has no live guest"
  | .encode cause => cause.message
  | .guest cause => cause.message

def sources : SessionError → List String
  | .notInitialized => []
  | .encode cause => cause.sources
  | .guest cause => cause.sources

instance : Reportable SessionError := ⟨qualifiedErrorName "SessionError", message, sources⟩

end SessionError

end Tether
