import Parlance.CommandLine
import Parlance.Trace

/-!
# The program

Reads the arguments, runs one compilation on the files of the system and reports how it went. The decisions are those of
`CommandLine` and `File`; here files are read and written.
-/

namespace Parlance

/-- The number of a failure; some calls of the system give it negated. -/
def failureNumber (code : UInt32) : Nat := if code.toNat < UInt32.size / 2 then code.toNat else UInt32.size - code.toNat

/-- A failure of the system as a fault. -/
def faultOf (e : IO.Error) : Fault :=
  match e with
  | .noFileOrDirectory .. => .missing
  | .inappropriateType _ code _ | .invalidArgument _ code _ =>
    match failureNumber code with
    | 20 => .notDirectory
    | 21 => .isDirectory
    | 36 => .nameTooLong
    | _ => .other (toString e)
  | _ => .other (toString e)

/-- The bytes of a source file. -/
def loadSource (source : String) : IO (Except CompileError ByteArray) := do
  try
    return .ok (← IO.FS.readBinFile source)
  catch e =>
    match faultOf e with
    | .missing | .notDirectory | .nameTooLong => return .error (.sourceNotFound source)
    | fault => return .error (.unreadable source fault)

/-- Writes the events that the verbosity asks for: from one on those of a truncated file, from two on all of them. -/
def logEvents (verbosity : Nat) (text : List Char) : IO Unit := do
  if 0 < verbosity then
    for event in trace text do
      let subject := event.subject
      match event.level with
      | .trace =>
        if 1 < verbosity then
          IO.eprintln ("TRACE " ++ event.message ++ " " ++ subject.1 ++ "=" ++ String.ofList subject.2)
      | .debug => IO.eprintln ("DEBUG " ++ event.message ++ " " ++ subject.1 ++ "=" ++ String.ofList subject.2)

/-- Compiles a file of the system. -/
def compileJob (job : Job) (verbosity : Nat) : IO (Except CompileError File) := do
  match ← loadSource job.source with
  | .error e => return .error e
  | .ok bytes =>
    let file := File.ofBytes bytes
    logEvents verbosity (widened bytes)
    try
      IO.FS.writeBinFile job.output file.bytes
      return .ok file
    catch e => return .error (.unwritable job.output (faultOf e))

/-- Prints a report. -/
def present (report : CommandLine.Report) : IO UInt32 := do
  IO.print report.stdout
  for line in report.error do IO.eprintln line
  for text in report.usage do IO.eprint text
  return report.exitCode.toUInt32

end Parlance

open Parlance in
/-- Answers one command line. -/
def main (arguments : List String) : IO UInt32 := do
  match CommandLine.parse arguments with
  | .error e => present (.ofUsageError e)
  | .ok .version => present (.success CommandLine.versionText)
  | .ok .help => present (.success CommandLine.helpText)
  | .ok (.compile job verbosity) => present (.ofCompilation job.source (← compileJob job verbosity))
