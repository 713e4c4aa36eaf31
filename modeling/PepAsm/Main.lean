import PepAsm.Command.Run

namespace PepAsm.Command

def readFile? (path : String) : IO (Option ByteArray) := do
  try
    return some (← IO.FS.readBinFile path)
  catch _ =>
    return none

def readNamedFile? (arguments : List String) : IO (Option ByteArray) :=
  match Request.ofArguments arguments with
  | .run _ (.file path) => readFile? path
  | _ => return none

def Outcome.write (outcome : Outcome) : IO UInt32 := do
  IO.print outcome.output
  IO.eprint outcome.errors
  match outcome.failure with
  | none => return 0
  | some failure =>
    IO.eprintln (failure.message.getD "the text cannot be read")
    return 1

end PepAsm.Command

open PepAsm.Command

def main (arguments : List String) : IO UInt32 := do
  let content ← readNamedFile? arguments
  match run (fun _ ↦ content) arguments with
  | .outcome outcome => outcome.write
  | .exit code =>
    if code = 0 then IO.print overview else IO.eprint overview
    return code.toUInt32
