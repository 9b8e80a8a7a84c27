import HeadDriven.CommandLine
import HeadDriven.Session

/-! The command line program: reads the files it is given and answers standard
input line by line. -/
namespace HeadDriven.Main

def program : String := "cli"

def causeText : IO.Error → String
  | .noFileOrDirectory .. => "No such file or directory (os error 2)"
  | .permissionDenied .. => "Permission denied (os error 13)"
  | .inappropriateType .. => "Is a directory (os error 21)"
  | .userError _ => "stream did not contain valid UTF-8"
  | cause => toString cause

def readFile (path : String) : IO Session.File := do
  try
    return ⟨path, .ok (← IO.FS.readFile path)⟩
  catch cause => return ⟨path, .error (causeText cause)⟩

partial def loop (session : Session) : IO UInt32 := do
  let out ← IO.getStdout
  out.putStr Session.prompt
  out.flush
  let line ← (← IO.getStdin).getLine
  if line.isEmpty then return 0
  let (session, reply) := session.answer line.toList
  out.putStr reply.out
  (← IO.getStderr).putStr reply.err
  if reply.fault.isSome then return 101
  loop session

def run (options : CommandLine.Options) : IO UInt32 := do
  let settings ← options.settings.mapM readFile
  match Session.start (← readFile options.model) settings options.showChart with
  | .ok session => loop session
  | .error cause =>
    (← IO.getStderr).putStr cause.report
    return 1

end HeadDriven.Main

def main (args : List String) : IO UInt32 := do
  match HeadDriven.CommandLine.parse args with
  | .ok .help =>
    IO.println (HeadDriven.CommandLine.usage HeadDriven.Main.program)
    return 0
  | .ok (.run options) => HeadDriven.Main.run options
  | .error cause =>
    IO.eprintln (HeadDriven.CommandLine.complaint HeadDriven.Main.program cause)
    return 255
