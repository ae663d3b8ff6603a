import Parlance.Storage.Fault

/-!
# Paths

A path names a place by the folders on the way to it, from the root if it starts with a slash and from the working
directory if not. Empty names between slashes say nothing; a slash at the end says that the place is a directory.
-/

namespace Parlance

structure Path where
  /-- The names along the way, `.` and `..` among them. -/
  names : List String
  /-- The path starts with a slash. -/
  isAbsolute : Bool
  /-- The path ends in a slash. -/
  isFolder : Bool

namespace Path

/-- The bytes that a path may take, the one that closes it included. -/
def limit : Nat := 4096

/-- The bytes that one name may take. -/
def nameLimit : Nat := 255

/-- U+0000 is refused first; the empty text names nothing. -/
def ofText (text : String) : Except Fault Path :=
  if text.contains '\x00' then .error .nulInPath
  else if text.isEmpty then .error .missing
  else if limit ≤ text.utf8ByteSize then .error .nameTooLong
  else .ok ⟨(text.splitOn "/").filter (!·.isEmpty), text.startsWith "/", text.endsWith "/"⟩

end Path

end Parlance
