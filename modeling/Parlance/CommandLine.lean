import Parlance.Storage.Compile

/-!
# The command line

`-s`/`--source` and `-o`/`--output` name the two files, each once; `-v`/`--verbose` may be repeated. The value of an option
is attached to it or is the next argument, unless that looks like an option. Arguments are read from the left, and the
first that cannot be understood, asks for the version or asks for help decides.
-/

namespace Parlance

/-- Why a command line cannot be understood. -/
inductive UsageError where
  | unknown (argument : String)
  | repeated (option : String)
  | valueMissing (option : String)
  | valueUnwanted (option : String)
  | optionMissing (option : String)

namespace UsageError

def message : UsageError → String
  | unknown argument => "unexpected argument '" ++ argument ++ "'"
  | repeated option => "'" ++ option ++ "' is given twice"
  | valueMissing option => "'" ++ option ++ "' needs a value"
  | valueUnwanted option => "'" ++ option ++ "' takes no value"
  | optionMissing option => "'" ++ option ++ "' is required"

end UsageError

/-- What a command line asks for. -/
inductive Request where
  | compile (job : Job) (verbosity : Nat)
  | version
  | help

namespace CommandLine

/-! ## Reading -/

/-- The options that take a value. -/
inductive Target where
  | source
  | output
deriving DecidableEq

def Target.name : Target → String
  | source => "--source"
  | output => "--output"

/-- What the arguments read so far have set. -/
structure Settings where
  source : Option String
  output : Option String
  verbosity : Nat

namespace Settings

def initial : Settings := ⟨none, none, 0⟩

def get (s : Settings) : Target → Option String
  | .source => s.source
  | .output => s.output

/-- Sets a file that is not set yet; a file name is not empty. -/
def set (s : Settings) (t : Target) (value : String) : Except UsageError Settings :=
  if value.isEmpty then .error (.valueMissing t.name)
  else if (s.get t).isSome then .error (.repeated t.name)
  else match t with
    | .source => .ok { s with source := some value }
    | .output => .ok { s with output := some value }

def louder (s : Settings) : Settings := { s with verbosity := s.verbosity + 1 }

/-- The request at the end of the arguments. -/
def request (s : Settings) : Except UsageError Request :=
  match s.source, s.output with
  | some source, some output => .ok (.compile ⟨source, output⟩ s.verbosity)
  | none, _ => .error (.optionMissing Target.source.name)
  | _, none => .error (.optionMissing Target.output.name)

end Settings

/-- What one argument does. -/
inductive Effect where
  /-- It is complete. -/
  | done (settings : Settings)
  /-- The next argument is the value of its last option. -/
  | pending (settings : Settings) (target : Target)
  /-- It decides the request. -/
  | decided (request : Request)
  | failed (error : UsageError)

def Effect.ofSettings : Except UsageError Settings → Effect
  | .ok s => done s
  | .error e => failed e

/-- An argument with one dash: a run of flags, of which the last may be an option with its value. -/
def shortEffect (s : Settings) : List Char → Effect
  | [] => .done s
  | 'v' :: rest => shortEffect s.louder rest
  | 'V' :: _ => .decided .version
  | 'h' :: _ => .decided .help
  | 's' :: rest => valueEffect .source rest
  | 'o' :: rest => valueEffect .output rest
  | c :: _ => .failed (.unknown (.ofList ['-', c]))
where
  valueEffect (t : Target) : List Char → Effect
    | [] => .pending s t
    | '=' :: value => .ofSettings (s.set t (.ofList value))
    | value => .ofSettings (s.set t (.ofList value))

/-- An argument with two dashes: its name up to an equals sign, and the value behind it. -/
def longEffect (s : Settings) (name : String) (value : Option String) : Effect :=
  match name, value with
  | "source", some v => .ofSettings (s.set .source v)
  | "output", some v => .ofSettings (s.set .output v)
  | "source", none => .pending s .source
  | "output", none => .pending s .output
  | "verbose", none => .done s.louder
  | "version", none => .decided .version
  | "help", none => .decided .help
  | "verbose", some _ | "version", some _ | "help", some _ => .failed (.valueUnwanted ("--" ++ name))
  | _, _ => .failed (.unknown ("--" ++ name))

def effect (s : Settings) (argument : String) : Effect :=
  match argument.toList with
  | '-' :: '-' :: rest =>
    let name := rest.takeWhile (· != '=')
    longEffect s (.ofList name)
      (if name.length < rest.length then some (.ofList (rest.drop (name.length + 1))) else none)
  | '-' :: c :: rest => shortEffect s (c :: rest)
  | _ => .failed (.unknown argument)

/-- Whether an argument looks like an option, so that it is nobody's value. -/
def isOption (argument : String) : Bool := argument.startsWith "-" && argument != "-"

def parseFrom (s : Settings) : List String → Except UsageError Request
  | [] => s.request
  -- two dashes alone say that only values follow, and there are none
  | ["--"] => s.request
  | "--" :: argument :: _ => .error (.unknown argument)
  | argument :: rest =>
    match effect s argument with
    | .failed e => .error e
    | .decided r => .ok r
    | .done s => parseFrom s rest
    | .pending s t =>
      match rest with
      | [] => .error (.valueMissing t.name)
      | value :: rest =>
        if isOption value then .error (.valueMissing t.name)
        else match s.set t value with
          | .error e => .error e
          | .ok s => parseFrom s rest

/-- The request of a list of arguments. -/
def parse (arguments : List String) : Except UsageError Request := parseFrom .initial arguments

/-! ## Answering -/

def programName : String := "parsotangue"

def versionText : String := programName ++ " 0.1.0\n"

def usageText : String :=
  "Usage: " ++ programName ++ " [OPTIONS] --source <FILE> --output <FILE>\n"

def helpText : String :=
  "Parse a source file and write its syntax tree as JSON\n\n" ++ usageText ++
  "\nOptions:\n" ++
  "  -s, --source <FILE>  Source file to parse\n" ++
  "  -o, --output <FILE>  Where to write the JSON syntax tree (created or truncated)\n" ++
  "  -v, --verbose...     Increase logging verbosity (-v: debug, -vv+: trace)\n" ++
  "  -h, --help           Print help\n" ++
  "  -V, --version        Print version\n"

/-- What a run leaves behind, the files apart. -/
structure Report where
  exitCode : UInt8
  stdout : String
  /-- What a failed compilation says. -/
  error : Option String
  /-- What a command line that cannot be understood says. -/
  usage : Option String

namespace Report

def success (stdout : String) : Report := ⟨0, stdout, none, none⟩

def ofCompilation (source : String) : Except CompileError File → Report
  | .ok _ => success ""
  | .error e => ⟨1, "", some (e.report source), none⟩

def ofUsageError (e : UsageError) : Report := ⟨2, "", none, some ("error: " ++ e.message ++ "\n\n" ++ usageText)⟩

end Report

/-- Runs the program on a file system. -/
def run (arguments : List String) (fs : FileSystem) : Report × FileSystem :=
  match parse arguments with
  | .error e => (.ofUsageError e, fs)
  | .ok .version => (.success versionText, fs)
  | .ok .help => (.success helpText, fs)
  | .ok (.compile job _) =>
    let compiled := fs.compile job
    (.ofCompilation job.source compiled.1, compiled.2)

end CommandLine

end Parlance
