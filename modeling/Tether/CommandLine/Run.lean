import Tether.CommandLine.Arguments
import Tether.Config
import Tether.Json.Conversion
import Tether.Wire.Packer

/-! # Running commands

What a command does is decided here, from what its host lets it read: files, the times of files, and
standard input. The result is what it writes and the status it ends with. -/

namespace Tether.CommandLine

structure Host (m : Type → Type) where
  readFile : String → m (Except FileFault Octets)
  /-- The time of last modification of a path, if it can be read. -/
  modified? : String → m (Option Instant)
  readInput : m (Except FileFault Octets)

/-- A host whose files are those of a disk. -/
def Host.ofDisk (d : Disk) (input : Octets) : Host Id :=
  ⟨d.read, d.modified?, .ok input⟩

/-- How a command ends: its status, what it writes to standard output, and what it complains of. -/
structure Outcome where
  status : UInt8
  output : Octets
  complaint : Option String
  deriving DecidableEq

namespace Outcome

def success (output : Octets) : Outcome :=
  ⟨0, output, none⟩

/-- A failure writes nothing but its complaint. -/
def failure (message : String) : Outcome :=
  ⟨1, [], some ("[!] " ++ message)⟩

end Outcome

/-! ## Commands -/

/-- Writes encoded octets as they are, or their hexadecimal text on a line. -/
def emit (hex : Bool) : Except EncodeError Octets → Outcome
  | .ok data => .success (if hex then Octets.ofText (Octets.hex data ++ "\n") else data)
  | .error e => .failure e.message

/-- Encodes a JSON document, from what reading it gave. -/
def encodeDocument (hex : Bool) (contents : Except FileFault Octets) : Outcome :=
  match contents.bind FileFault.text with
  | .error f => .failure f.message
  | .ok text =>
    match Json.value? text with
    | .error f => .failure f.message
    | .ok v => emit hex v.encode

/-- Encodes a signal whose arguments are JSON documents. -/
def encodeSignal (name : String) (args : List String) : Outcome :=
  match args.mapM Json.value? with
  | .error f => .failure f.message
  | .ok values => emit true (Signal.encode ⟨name, values⟩)

def imageLine (path : String) : Option Instant → String
  | some t => path ++ ": modified " ++ t.seconds.fixedPlaces 3 ++ " (unix seconds)\n"
  | none => path ++ ": absent\n"

variable {m : Type → Type} [Monad m]

def probeImage (host : Host m) (watch : Watch) : m Outcome := do
  match watch.path with
  | some path => return .success (Octets.ofText (imageLine path (← host.modified? path)))
  | none => return .success (Octets.ofText "no firmware image configured\n")

/-- The configuration in a file, or the default one if there is no file. -/
def loadConfig (host : Host m) : Option String → m (Except Config.Error Config)
  | some path => do return Config.ofFile path (← host.readFile path)
  | none => return .ok {}

def Command.run (host : Host m) (config : Config) : Command → m Outcome
  | .encode (some path) hex => do return encodeDocument hex (← host.readFile path)
  | .encode none hex => do return encodeDocument hex (← host.readInput)
  | .signal name args => return encodeSignal name args
  | .probe (some path) => probeImage host (.on path)
  | .probe none => probeImage host config.imageWatch

def Invocation.run (host : Host m) (i : Invocation) : m Outcome := do
  match ← loadConfig host i.config with
  | .ok config => i.command.run host config
  | .error e => return .failure e.message

/-! ## The whole program -/

def usageText : String :=
  "Usage: guestlink [-c FILE] encode [-i FILE] [--hex]\n" ++
  "       guestlink [-c FILE] signal NAME [JSON]...\n" ++
  "       guestlink [-c FILE] probe [--image FILE]\n"

def versionText : String :=
  "guestlink 0.3.0\n"

/-- How the program ends without a command. -/
def Stop.outcome : Stop → Outcome
  | .usage => ⟨2, [], some usageText⟩
  | .help => .success (Octets.ofText usageText)
  | .version => .success (Octets.ofText versionText)

def run (host : Host m) (args : List String) : m Outcome :=
  match Invocation.ofArguments args with
  | .ok i => i.run host
  | .error stop => return stop.outcome

end Tether.CommandLine
