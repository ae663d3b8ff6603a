/-!
# Faults

Why a file cannot be read or written, with the number that the system gives the failure.
-/

namespace Parlance

inductive Fault where
  | missing
  | notDirectory
  | isDirectory
  | nameTooLong
  /-- U+0000 in a path, which the system cannot be asked for. -/
  | nulInPath
  /-- A failure of another kind, in the system's words. -/
  | other (description : String)
deriving DecidableEq

def Fault.message : Fault → String
  | missing => "No such file or directory (os error 2)"
  | notDirectory => "Not a directory (os error 20)"
  | isDirectory => "Is a directory (os error 21)"
  | nameTooLong => "File name too long (os error 36)"
  | nulInPath => "file name contained an unexpected NUL byte"
  | other description => description

end Parlance
