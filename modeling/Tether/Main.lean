import Tether.CommandLine.Run

/-! # The program -/

namespace Tether.CommandLine

/-- What a system error means for the reading of a file. -/
def faultOf : IO.Error → FileFault
  | .noFileOrDirectory .. => .notFound
  | e => .other (toString e)

def guardedRead (read : IO ByteArray) : IO (Except FileFault Octets) := do
  try return .ok (← read).data.toList
  catch e => return .error (faultOf e)

partial def readToEnd (input : IO.FS.Stream) (data : ByteArray) : IO ByteArray := do
  let chunk ← input.read 65536
  if chunk.isEmpty then return data else readToEnd input (data ++ chunk)

def modifiedTime (path : String) : IO (Option Instant) := do
  try
    let time := (← (← IO.FS.realPath path).metadata).modified
    return some (.ofParts time.sec time.nsec.toNat)
  catch _ => return none

def systemHost : Host IO where
  readFile path := guardedRead (IO.FS.readBinFile path)
  modified? := modifiedTime
  readInput := do guardedRead (readToEnd (← IO.getStdin) .empty)

end Tether.CommandLine

def main (args : List String) : IO UInt32 := do
  let outcome ← Tether.CommandLine.run Tether.CommandLine.systemHost args
  let output ← IO.getStdout
  output.write ⟨outcome.output.toArray⟩
  output.flush
  if let some complaint := outcome.complaint then
    IO.eprintln complaint
  return outcome.status.toUInt32
