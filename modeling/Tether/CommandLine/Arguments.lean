/-! # Arguments of the command line

Options stand before the operands of their level. A level ends at its first operand or after `--`.
Options of the whole program may be given again after the name of a command. -/

namespace Tether.CommandLine

/-- What an option sets or asks for. -/
inductive Key where
  | config
  | input
  | image
  | hex
  | help
  | version
  deriving DecidableEq

namespace Key

def long : Key → List Char
  | .config => ['c', 'o', 'n', 'f', 'i', 'g']
  | .input => ['i', 'n', 'p', 'u', 't']
  | .image => ['i', 'm', 'a', 'g', 'e']
  | .hex => ['h', 'e', 'x']
  | .help => ['h', 'e', 'l', 'p']
  | .version => ['v', 'e', 'r', 's', 'i', 'o', 'n']

def short : Key → Option Char
  | .config => some 'c'
  | .input => some 'i'
  | .help => some 'h'
  | .version => some 'V'
  | .image | .hex => none

def takesPath : Key → Bool
  | .config | .input | .image => true
  | .hex | .help | .version => false

end Key

/-- Why the arguments name no command to carry out. -/
inductive Stop where
  | usage
  | help
  | version
  deriving DecidableEq

structure Settings where
  config : Option String := none
  input : Option String := none
  image : Option String := none
  hex : Bool := false
  deriving DecidableEq

namespace Settings

/-- The paths of an option, before and after it is given. It may be given once. -/
def setPath (before : Option String) (path : String) : Except Stop (Option String) :=
  if path = "" ∨ before.isSome then .error .usage else .ok (some path)

def withPath (s : Settings) (path : String) : Key → Except Stop Settings
  | .config => do return { s with config := ← setPath s.config path }
  | .input => do return { s with input := ← setPath s.input path }
  | .image => do return { s with image := ← setPath s.image path }
  | .hex | .help | .version => .error .usage

def withFlag (s : Settings) : Key → Except Stop Settings
  | .hex => if s.hex then .error .usage else .ok { s with hex := true }
  | .help => .error .help
  | .version => .error .version
  | .config | .input | .image => .error .usage

end Settings

/-! ## One argument -/

/-- The part before the first `=`, and the part after it. -/
def splitValue : List Char → List Char × Option (List Char)
  | [] => ([], none)
  | '=' :: cs => ([], some cs)
  | c :: cs =>
    let (name, value) := splitValue cs
    (c :: name, value)

def findLong (keys : List Key) (name : List Char) : Option Key :=
  keys.find? fun key => key.long = name

def findShort (keys : List Key) (c : Char) : Option Key :=
  keys.find? fun key => key.short = some c

/-- What an argument is at its place. -/
inductive Argument where
  | operand
  /-- Two dashes: nothing after them is an option. -/
  | dashes
  /-- An option by its long name, perhaps with a value. -/
  | long (name : List Char) (value : Option (List Char))
  | letters (cs : List Char)
  deriving DecidableEq

/-- Sorts an argument. Where operands may look like options, only known options are options. -/
def Argument.sort (keys : List Key) (lenient : Bool) (arg : String) : Argument :=
  match arg.toList with
  | ['-', '-'] => .dashes
  | '-' :: '-' :: cs =>
    let (name, value) := splitValue cs
    if lenient ∧ (findLong keys name).isNone then .operand else .long name value
  | '-' :: c :: cs =>
    if lenient ∧ (c :: cs).any fun c => (findShort keys c).isNone then .operand
    else .letters (c :: cs)
  | _ => .operand

/-- Reads an option by its long name. The answer may be a key whose path is still to come. -/
def readLong (keys : List Key) (s : Settings) (name : List Char) (value : Option (List Char)) :
    Except Stop (Settings × Option Key) :=
  match findLong keys name with
  | none => .error .usage
  | some key =>
    match key.takesPath, value with
    | true, some path => do return (← s.withPath (String.ofList path) key, none)
    | true, none => .ok (s, some key)
    | false, some _ => .error .usage
    | false, none => do return (← s.withFlag key, none)

/-- Reads options by their letters. What follows the letter of an option with a path is the path,
perhaps after `=`. -/
def readLetters (keys : List Key) (s : Settings) : List Char → Except Stop (Settings × Option Key)
  | [] => .ok (s, none)
  | c :: cs =>
    match findShort keys c with
    | none => .error .usage
    | some key =>
      if key.takesPath then
        match cs with
        | [] => .ok (s, some key)
        | '=' :: path => do return (← s.withPath (String.ofList path) key, none)
        | path => do return (← s.withPath (String.ofList path) key, none)
      else do readLetters keys (← s.withFlag key) cs

/-! ## The options of a level -/

/-- Reads options up to the first operand. The answer tells whether two dashes were met, and what is
left. A key in `awaiting` takes the next argument for its path. -/
def readOptions (keys : List Key) (lenient : Bool) (s : Settings) :
    Option Key → List String → Except Stop (Settings × Bool × List String)
  | none, [] => .ok (s, false, [])
  | some _, [] => .error .usage
  | some key, arg :: args =>
    match Argument.sort keys lenient arg with
    | .operand => do readOptions keys lenient (← s.withPath arg key) none args
    | _ => .error .usage
  | none, arg :: args =>
    match Argument.sort keys lenient arg with
    | .operand => .ok (s, false, arg :: args)
    | .dashes => .ok (s, true, args)
    | .long name value => do
      let (s, awaiting) ← readLong keys s name value
      readOptions keys lenient s awaiting args
    | .letters cs => do
      let (s, awaiting) ← readLetters keys s cs
      readOptions keys lenient s awaiting args

/-! ## Commands -/

/-- A command with its own options and operands. -/
inductive Command where
  /-- Encodes a JSON document from a file or from standard input. -/
  | encode (input : Option String) (hex : Bool)
  /-- Encodes a signal whose arguments are JSON documents. -/
  | signal (name : String) (args : List String)
  | probe (image : Option String)
  deriving DecidableEq

/-- A command with the path of the configuration it runs under. -/
structure Invocation where
  config : Option String
  command : Command
  deriving DecidableEq

namespace Invocation

/-- A command that takes options alone. -/
def ofOptions (keys : List Key) (make : Settings → Command) (args : List String) :
    Except Stop Invocation := do
  match ← readOptions keys false {} none args with
  | (s, _, []) => return ⟨s.config, make s⟩
  | _ => .error .usage

/-- A signal. The operands after its name may look like options, except for the known ones right
after the name; from the first such operand on, everything is one. -/
def ofSignal (args : List String) : Except Stop Invocation := do
  let keys := [Key.config, .help]
  match ← readOptions keys false {} none args with
  | (_, _, []) => .error .usage
  | (s, true, name :: args) => return ⟨s.config, .signal name args⟩
  | (s, false, name :: args) =>
    let (s, _, args) ← readOptions keys true s none args
    return ⟨s.config, .signal name args⟩

def commandNames : List String :=
  ["encode", "signal", "probe", "help"]

def ofCommand (name : String) (args : List String) : Except Stop Invocation :=
  match name with
  | "encode" => ofOptions [.config, .input, .hex, .help] (fun s => .encode s.input s.hex) args
  | "signal" => ofSignal args
  | "probe" => ofOptions [.config, .image, .help] (fun s => .probe s.image) args
  | "help" =>
    match args with
    | [] => .error .help
    | [topic] => .error (if topic ∈ commandNames then .help else .usage)
    | _ => .error .usage
  | _ => .error .usage

/-- The invocation that arguments spell. A configuration given after the command counts before one
given in front of it. -/
def ofArguments (args : List String) : Except Stop Invocation := do
  match ← readOptions [.config, .help, .version] false {} none args with
  | (s, false, name :: args) =>
    let i ← ofCommand name args
    return { i with config := i.config <|> s.config }
  | _ => .error .usage

end Invocation

end Tether.CommandLine
