import Parlance.Storage.Path

/-!
# File systems

A file system is a finite map from places to files and directories. A path is followed name by name, and every step has to
start in a directory: `.` stays there and `..` goes up, at the root it stays. Writing creates or replaces one file in a
directory that exists.
-/

namespace Parlance

/-- The names from the root down. -/
abbrev Place := List String

/-- Where a name leads from a place. -/
def Place.step (p : Place) (name : String) : Place :=
  if name = "." then p else if name = ".." then p.dropLast else p ++ [name]

inductive Node where
  | file (bytes : ByteArray)
  | directory

structure FileSystem where
  /-- The entries below the root; the first one for a place counts. -/
  entries : List (Place × Node)
  /-- Where the paths start that are not absolute. -/
  workingDirectory : Place

namespace FileSystem

/-- Nothing but the root, which is the working directory too. -/
def empty : FileSystem := ⟨[], []⟩

/-- What is at a place; the root is always a directory. -/
def node? (fs : FileSystem) (p : Place) : Option Node :=
  if p = [] then some .directory else fs.entries.lookup p

def insert (fs : FileSystem) (p : Place) (n : Node) : FileSystem := { fs with entries := (p, n) :: fs.entries }

theorem node?_insert_self (fs : FileSystem) {p : Place} (n : Node) (h : p ≠ []) : (fs.insert p n).node? p = some n := by
  simp [node?, insert, h]

theorem node?_insert_of_ne (fs : FileSystem) {p q : Place} (n : Node) (h : q ≠ p) :
    (fs.insert p n).node? q = fs.node? q := by
  simp [node?, insert, List.lookup_cons, beq_eq_false_iff_ne.mpr h]

/-- Where a path starts. -/
def start (fs : FileSystem) (path : Path) : Place := if path.isAbsolute then [] else fs.workingDirectory

/-! ## Following names -/

/-- The place itself where it is a directory. -/
def directory (fs : FileSystem) (p : Place) : Except Fault Place :=
  match fs.node? p with
  | none => .error .missing
  | some (.file _) => .error .notDirectory
  | some .directory => .ok p

/-- The name itself where the system can look it up. -/
def lookable (name : String) : Except Fault String :=
  if Path.nameLimit < name.utf8ByteSize then .error .nameTooLong else .ok name

/-- Follows names from a place. Whether there is anything at the last one is not asked. -/
def follow (fs : FileSystem) (p : Place) : List String → Except Fault Place
  | [] => .ok p
  | name :: rest =>
    match fs.directory p with
    | .error e => .error e
    | .ok p =>
      match lookable name with
      | .error e => .error e
      | .ok name => fs.follow (p.step name) rest

/-! ## Setting up -/

/-- Follows names from a place and makes a directory wherever nothing is yet. -/
def makeFolders (fs : FileSystem) (p : Place) : List String → FileSystem × Place
  | [] => (fs, p)
  | name :: rest =>
    let q := p.step name
    (if (fs.node? q).isSome then fs else fs.insert q .directory).makeFolders q rest

/-- Adds a directory and those on the way to it. -/
def withFolder (fs : FileSystem) (path : String) : FileSystem :=
  match Path.ofText path with
  | .error _ => fs
  | .ok path => (fs.makeFolders (fs.start path) path.names).1

/-- Adds a file and the directories on the way to it. -/
def withFile (fs : FileSystem) (path : String) (bytes : ByteArray) : FileSystem :=
  match Path.ofText path with
  | .error _ => fs
  | .ok path =>
    let folder := fs.makeFolders (fs.start path) path.names.dropLast
    match path.names.getLast? with
    | none => folder.1
    | some name => folder.1.insert (folder.2.step name) (.file bytes)

/-- The file system with this working directory, with these directories and then these files in it. -/
def ofContents (workingDirectory : Place) (folders : List String) (files : List (String × ByteArray)) : FileSystem :=
  let bare := { (empty.makeFolders [] workingDirectory).1 with workingDirectory }
  files.foldl (fun fs f => fs.withFile f.1 f.2) (folders.foldl withFolder bare)

/-! ## Reading -/

/-- What a path names. -/
def find (fs : FileSystem) (path : String) : Except Fault Node :=
  match Path.ofText path with
  | .error e => .error e
  | .ok path =>
    match fs.follow (fs.start path) path.names with
    | .error e => .error e
    | .ok p =>
      match fs.node? p with
      | none => .error .missing
      | some (.file bytes) => if path.isFolder then .error .notDirectory else .ok (.file bytes)
      | some .directory => .ok .directory

/-- The content of the file that a path names. -/
def read (fs : FileSystem) (path : String) : Except Fault ByteArray :=
  match fs.find path with
  | .error e => .error e
  | .ok (.file bytes) => .ok bytes
  | .ok .directory => .error .isDirectory

/-! ## Writing -/

/-- The place of the file that writing to a path creates or replaces. -/
def target (fs : FileSystem) (path : String) : Except Fault Place :=
  match Path.ofText path with
  | .error e => .error e
  | .ok path =>
    match (fs.follow (fs.start path) path.names.dropLast).bind fs.directory with
    | .error e => .error e
    | .ok folder =>
      match path.names.getLast? with
      | none => .error .isDirectory
      | some name =>
        if path.isFolder ∨ name = "." ∨ name = ".." then .error .isDirectory
        else match lookable name with
          | .error e => .error e
          | .ok name =>
            match fs.node? (folder ++ [name]) with
            | some .directory => .error .isDirectory
            | _ => .ok (folder ++ [name])

def write (fs : FileSystem) (path : String) (bytes : ByteArray) : Except Fault FileSystem :=
  match fs.target path with
  | .error e => .error e
  | .ok p => .ok (fs.insert p (.file bytes))

end FileSystem

end Parlance
