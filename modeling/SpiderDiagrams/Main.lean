import SpiderDiagrams.CommandLine.Run

namespace SpiderDiagrams.CommandLine

/-- Whether an error number, which may come with either sign, is the given one. -/
def isCode (code n : UInt32) : Bool := code == n || code == 0 - n

def faultOf (e : IO.Error) : FileFault :=
  match e with
  | .noFileOrDirectory .. => .notFound
  | .permissionDenied .. => .permissionDenied
  | .inappropriateType _ code _ => if isCode code 20 then .notADirectory else .isDirectory
  | .invalidArgument _ code _ => if isCode code 36 then .nameTooLong else .other (toString e)
  | _ => .other (toString e)

def readFile (path : String) : IO (Except FileFault ByteArray) := do
  try
    return .ok (← IO.FS.readBinFile path)
  catch e =>
    return .error (faultOf e)

end SpiderDiagrams.CommandLine

open SpiderDiagrams.CommandLine in
def main (arguments : List String) : IO UInt32 := do
  match Options.ofArguments arguments with
  | .error .help =>
    IO.println UsageFault.help.message
    return 0
  | .error f =>
    IO.eprintln s!"error: {f.message}"
    return 2
  | .ok o =>
    let filter := LogFilter.ofText (← IO.getEnv "RUST_LOG")
    let output := run o filter (← readFile o.problem)
    IO.print output.stdout
    IO.eprint output.stderr
    return output.exitCode.toUInt32
