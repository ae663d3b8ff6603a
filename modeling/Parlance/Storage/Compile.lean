import Parlance.Grammar.File
import Parlance.Storage.FileSystem
import Parlance.Tree.Json

/-!
# Compiling files

A compilation reads a source file, parses it and writes its syntax tree to an output file. A source is read as bytes, each
of which stands for the character with its number, so every file has a text. The output is not touched before the
source is read.
-/

namespace Parlance

/-- The text of a file: each byte is one character. -/
def widened (bytes : ByteArray) : List Char := bytes.data.toList.map Char.ofUInt8

def File.ofBytes (bytes : ByteArray) : File := .ofText (widened bytes)

/-- The content of a syntax tree file. -/
def File.bytes (f : File) : ByteArray := (String.ofList f.text).toUTF8

/-! ## Errors -/

inductive CompileError where
  | sourceNotFound (source : String)
  | unreadable (source : String) (cause : Fault)
  | unwritable (output : String) (cause : Fault)

namespace CompileError

def message : CompileError → String
  | sourceNotFound source => "source file not found: " ++ source
  | unreadable source _ => "failed to read " ++ source
  | unwritable output _ => "failed to write " ++ output

def cause? : CompileError → Option Fault
  | sourceNotFound _ => none
  | unreadable _ cause => some cause
  | unwritable _ cause => some cause

/-- The message of a failed run on a source. -/
def report (source : String) (e : CompileError) : String :=
  "Error: could not compile " ++ source ++ ": " ++ e.message ++
    match e.cause? with
    | some cause => ": " ++ cause.message
    | none => ""

end CompileError

/-! ## Runs -/

/-- What to compile, and where to write the tree. -/
structure Job where
  source : String
  output : String

namespace FileSystem

/-- The bytes of a source. One that cannot be found at all is told from one that is no file. -/
def readSource (fs : FileSystem) (source : String) : Except CompileError ByteArray :=
  match fs.find source with
  | .error _ => .error (.sourceNotFound source)
  | .ok .directory => .error (.unreadable source .isDirectory)
  | .ok (.file bytes) => .ok bytes

/-- Compiles one source; answers with its tree and with the file system afterwards. -/
def compile (fs : FileSystem) (job : Job) : Except CompileError File × FileSystem :=
  match fs.readSource job.source with
  | .error e => (.error e, fs)
  | .ok bytes =>
    match fs.write job.output (File.ofBytes bytes).bytes with
    | .error cause => (.error (.unwritable job.output cause), fs)
    | .ok written => (.ok (File.ofBytes bytes), written)

/-- Compiles one source after the other. -/
def compileAll (fs : FileSystem) : List Job → List (Except CompileError File) × FileSystem
  | [] => ([], fs)
  | job :: jobs =>
    let first := fs.compile job
    let rest := first.2.compileAll jobs
    (first.1 :: rest.1, rest.2)

end FileSystem

end Parlance
