import TapeMachine.CommandLine.Response

/-! The command line program. -/
namespace TapeMachine.CommandLine
open Description

/-- The system's own account of a failure. -/
def readErrorOf : IO.Error → ReadError
  | .noFileOrDirectory _ number text => .system text number.toNat
  | .inappropriateType _ number text => .system text number.toNat
  | .permissionDenied _ number text => .system text number.toNat
  | .otherError number text => .system text number.toNat
  | e => .system (toString e) 0

def attempt (act : IO ByteArray) : IO (Except ReadError ByteArray) := do
  try
    return .ok (← act)
  catch e =>
    return .error (readErrorOf e)

partial def readAll (stream : IO.FS.Stream) (bytes : ByteArray) : IO ByteArray := do
  let more ← stream.read 65536
  if more.isEmpty then return bytes else readAll stream (bytes ++ more)

def fetch (o : Options) : IO (Except ReadError ByteArray) :=
  match o.list, o.source with
  | false, .file path => attempt (IO.FS.readBinFile path)
  | false, .standardInput => do attempt (readAll (← IO.getStdin) ByteArray.empty)
  | _, _ => return .ok ByteArray.empty

def lacksMachine (o : Options) : IO Bool := do
  if o.list || o.source != .standardInput then return false
  else (← IO.getStdin).isTty

def serve (args : List String) : IO UInt32 := do
  match Options.ofArguments? args with
  | none =>
    IO.eprintln "usage: tape-machine [OPTIONS] [MACHINE]"
    return 2
  | some o =>
    let response ← if ← lacksMachine o then pure (.failure noMachine) else o.respond <$> fetch o
    IO.print response.stdout
    IO.eprint response.stderr
    return response.code.toUInt32

end TapeMachine.CommandLine

def main (args : List String) : IO UInt32 := TapeMachine.CommandLine.serve args
