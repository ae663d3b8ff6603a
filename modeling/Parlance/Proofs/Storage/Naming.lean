import Parlance.Storage.FileSystem

/-!
# What paths name

A walk by names as a relation: `Leads` looks up each name in a directory. With it, `Names` says what is at a path, and
`Receives` where writing to a path puts a file; reading and writing do exactly this (`find_eq_ok_iff`, `target_eq_ok_iff`).
`Unwritable` lists the reasons why a path receives nothing (`unwritable_iff`).

Walks depend on the directories alone. A file never takes the place of a directory, so where one is written all walks stay
as they are (`Replaced.sameFolders`), and with them the places that paths write to (`SameFolders.receives_iff`).
-/

namespace Parlance

namespace FileSystem

variable {fs now next last : FileSystem} {path : String} {p q r folder : Place} {n m : Node} {bytes : ByteArray}

/-! ## Walks -/

/-- Names lead from a place to another, each of them from a directory. -/
inductive Leads (fs : FileSystem) : Place → List String → Place → Prop where
  | here {p : Place} : Leads fs p [] p
  | step {p q : Place} {name : String} {names : List String} (folder : fs.node? p = some .directory)
      (short : name.utf8ByteSize ≤ Path.nameLimit) (rest : Leads fs (p.step name) names q) : Leads fs p (name :: names) q

section Walks

variable {name : String} {names more : List String}

theorem directory_eq_ok_iff : fs.directory p = .ok q ↔ fs.node? p = some .directory ∧ p = q := by
  unfold directory
  split <;> simp_all

theorem lookable_eq_ok_iff {same : String} :
    lookable name = .ok same ↔ name.utf8ByteSize ≤ Path.nameLimit ∧ name = same := by
  unfold lookable
  split
  · simp
    omega
  · simp
    omega

theorem follow_eq_ok_iff : fs.follow p names = .ok q ↔ fs.Leads p names q := by
  induction names generalizing p with
  | nil =>
    constructor
    · intro h
      cases h
      exact .here
    · intro h
      cases h
      rfl
  | cons name names ih =>
    constructor
    · intro h
      rw [follow] at h
      split at h
      · cases h
      rename_i hfolder
      split at h
      · cases h
      rename_i hshort
      obtain ⟨hp, rfl⟩ := directory_eq_ok_iff.mp hfolder
      obtain ⟨hname, rfl⟩ := lookable_eq_ok_iff.mp hshort
      exact .step hp hname (ih.mp h)
    · intro h
      cases h with
      | step folder short rest =>
        rw [follow, directory_eq_ok_iff.mpr ⟨folder, rfl⟩, lookable_eq_ok_iff.mpr ⟨short, rfl⟩]
        exact ih.mpr rest

/-- A walk ends in one place only. -/
theorem Leads.unique (hq : fs.Leads p names q) (hr : fs.Leads p names r) : q = r := by
  have h := (follow_eq_ok_iff.mpr hq).symm.trans (follow_eq_ok_iff.mpr hr)
  cases h
  rfl

theorem Leads.append (hq : fs.Leads p names q) (hr : fs.Leads q more r) : fs.Leads p (names ++ more) r := by
  induction hq with
  | here => exact hr
  | step folder short rest ih => exact .step folder short (ih hr)

end Walks

/-! ## What is read -/

/-- A path names what its walk ends at. One that ends in a slash names directories only. -/
inductive Names (fs : FileSystem) (path : String) (p : Place) (n : Node) : Prop where
  | intro {route : Path} (parsed : Path.ofText path = .ok route) (walk : fs.Leads (fs.start route) route.names p)
      (found : fs.node? p = some n) (folder : route.isFolder = true → n = .directory)

theorem find_eq_ok_iff : fs.find path = .ok n ↔ ∃ p, fs.Names path p n := by
  constructor
  · intro h
    unfold find at h
    split at h
    · cases h
    rename_i route hroute
    split at h
    · cases h
    rename_i p hwalk
    have hleads := follow_eq_ok_iff.mp hwalk
    split at h
    · cases h
    · rename_i bytes hnode
      split at h
      · cases h
      · rename_i hfolder
        cases h
        exact ⟨p, .intro hroute hleads hnode fun hf => absurd hf hfolder⟩
    · rename_i hnode
      cases h
      exact ⟨p, .intro hroute hleads hnode fun _ => rfl⟩
  · rintro ⟨p, @⟨route, hroute, hleads, hnode, hfolder⟩⟩
    simp only [find, hroute, follow_eq_ok_iff.mpr hleads, hnode]
    cases n with
    | directory => rfl
    | file bytes =>
      have hfile : ¬route.isFolder = true := fun hf => nomatch hfolder hf
      exact if_neg hfile

/-- A path names one thing at most. -/
theorem Names.unique (hn : fs.Names path p n) (hm : fs.Names path q m) : n = m := by
  have h := (find_eq_ok_iff.mpr ⟨p, hn⟩).symm.trans (find_eq_ok_iff.mpr ⟨q, hm⟩)
  cases h
  rfl

/-! ## What is written -/

/-- Writing to a path creates or replaces a file: the path without its last name leads to a directory, and the last name is
one that a file can have there. -/
inductive Receives (fs : FileSystem) (path : String) : Place → Prop where
  | intro {route : Path} {folder : Place} {name : String} (parsed : Path.ofText path = .ok route)
      (file : route.isFolder = false) (last : route.names.getLast? = some name)
      (walk : fs.Leads (fs.start route) route.names.dropLast folder) (found : fs.node? folder = some .directory)
      (notHere : name ≠ ".") (notUp : name ≠ "..") (short : name.utf8ByteSize ≤ Path.nameLimit)
      (free : fs.node? (folder ++ [name]) ≠ some .directory) : Receives fs path (folder ++ [name])

theorem target_eq_ok_iff : fs.target path = .ok p ↔ fs.Receives path p := by
  constructor
  · intro h
    unfold target at h
    split at h
    · cases h
    rename_i route hroute
    split at h
    · cases h
    rename_i folder hbind
    obtain ⟨hleads, hfolder⟩ :
        fs.Leads (fs.start route) route.names.dropLast folder ∧ fs.node? folder = some .directory := by
      cases hwalk : fs.follow (fs.start route) route.names.dropLast with
      | error e =>
        rw [hwalk] at hbind
        cases hbind
      | ok reached =>
        rw [hwalk] at hbind
        obtain ⟨hnode, rfl⟩ := directory_eq_ok_iff.mp hbind
        exact ⟨follow_eq_ok_iff.mp hwalk, hnode⟩
    split at h
    · cases h
    rename_i name hlast
    split at h
    · cases h
    rename_i hplain
    obtain ⟨hfile, hdot, hdots⟩ : ¬route.isFolder = true ∧ name ≠ "." ∧ name ≠ ".." := by simpa using hplain
    split at h
    · cases h
    rename_i same hname
    obtain ⟨hshort, rfl⟩ := lookable_eq_ok_iff.mp hname
    split at h
    · cases h
    rename_i hnode
    cases h
    exact .intro hroute (Bool.eq_false_iff.mpr hfile) hlast hleads hfolder hdot hdots hshort hnode
  · rintro @⟨route, folder, name, hroute, hfile, hlast, hleads, hfolder, hdot, hdots, hshort, hnode⟩
    have hwalk : (fs.follow (fs.start route) route.names.dropLast).bind fs.directory = .ok folder := by
      rw [follow_eq_ok_iff.mpr hleads]
      exact directory_eq_ok_iff.mpr ⟨hfolder, rfl⟩
    have hplain : ¬(route.isFolder = true ∨ name = "." ∨ name = "..") := by simp [hfile, hdot, hdots]
    simp only [target, hroute, hwalk, hlast, if_neg hplain, lookable_eq_ok_iff.mpr ⟨hshort, rfl⟩]

/-- Writing to a path does nothing else. -/
theorem write_eq_ok_iff : fs.write path bytes = .ok next ↔ ∃ p, fs.Receives path p ∧ next = fs.insert p (.file bytes) := by
  unfold write
  cases htarget : fs.target path with
  | error e =>
    have hnone : ∀ p, ¬fs.Receives path p := by
      intro p hp
      rw [target_eq_ok_iff.mpr hp] at htarget
      cases htarget
    simp [hnone]
  | ok p =>
    have hp := target_eq_ok_iff.mp htarget
    constructor
    · intro h
      cases h
      exact ⟨p, hp, rfl⟩
    · rintro ⟨q, hq, rfl⟩
      have hsame := htarget.symm.trans (target_eq_ok_iff.mpr hq)
      cases hsame
      rfl

/-! ### Why a path cannot be written to -/

/-- The reasons why a path receives nothing. -/
inductive Unwritable (fs : FileSystem) (path : String) : Prop where
  | empty (h : path = "")
  /-- The system has no such paths. -/
  | noPath (h : path.contains '\x00' = true ∨ Path.limit ≤ path.utf8ByteSize)
  /-- The parent is missing. -/
  | noFolder {route : Path} (parsed : Path.ofText path = .ok route)
      (nothing : ∀ folder n, fs.Leads (fs.start route) route.names.dropLast folder → fs.node? folder ≠ some n)
  /-- The parent is a file. -/
  | folderIsFile {route : Path} {folder : Place} {bytes : ByteArray} (parsed : Path.ofText path = .ok route)
      (walk : fs.Leads (fs.start route) route.names.dropLast folder) (file : fs.node? folder = some (.file bytes))
  /-- The output is a directory, by the way its path is written or by what is there. -/
  | isDirectory {route : Path} {folder : Place} (parsed : Path.ofText path = .ok route)
      (walk : fs.Leads (fs.start route) route.names.dropLast folder) (found : fs.node? folder = some .directory)
      (directory : route.isFolder = true ∨ ∀ name ∈ route.names.getLast?,
        name = "." ∨ name = ".." ∨ fs.node? (folder ++ [name]) = some .directory)
  /-- The system has no such names. -/
  | noName {route : Path} {name : String} (parsed : Path.ofText path = .ok route)
      (last : route.names.getLast? = some name) (long : Path.nameLimit < name.utf8ByteSize)

theorem ofText_error {e : Fault} (h : Path.ofText path = .error e) :
    path = "" ∨ path.contains '\x00' = true ∨ Path.limit ≤ path.utf8ByteSize := by
  unfold Path.ofText at h
  split at h
  · rename_i hnul
    exact .inr (.inl hnul)
  split at h
  · rename_i hempty
    exact .inl (by simpa using hempty)
  split at h
  · rename_i hlong
    exact .inr (.inr hlong)
  · cases h

theorem ofText_ok {route : Path} (h : Path.ofText path = .ok route) :
    path ≠ "" ∧ ¬path.contains '\x00' = true ∧ path.utf8ByteSize < Path.limit := by
  unfold Path.ofText at h
  split at h
  · cases h
  split at h
  · cases h
  split at h
  · cases h
  · rename_i hnul hempty hlong
    exact ⟨by simpa using hempty, hnul, Nat.lt_of_not_le hlong⟩

theorem Unwritable.not_receives (h : fs.Unwritable path) : ¬fs.Receives path p := by
  rintro @⟨route, folder, name, hroute, hfile, hlast, hleads, hfolder, hdot, hdots, hshort, hnode⟩
  obtain ⟨hne, hnul, hlimit⟩ := ofText_ok hroute
  cases h with
  | empty h => exact hne h
  | noPath h =>
    rcases h with h | h
    · exact hnul h
    · omega
  | noFolder parsed nothing =>
    cases hroute.symm.trans parsed
    exact nothing folder _ hleads hfolder
  | folderIsFile parsed walk file =>
    cases hroute.symm.trans parsed
    rw [walk.unique hleads, hfolder] at file
    cases file
  | isDirectory parsed walk found directory =>
    cases hroute.symm.trans parsed
    rw [walk.unique hleads] at directory
    rcases directory with hf | hname
    · rw [hfile] at hf
      cases hf
    · rcases hname name hlast with h | h | h
      · exact hdot h
      · exact hdots h
      · exact hnode h
  | noName parsed last long =>
    cases hroute.symm.trans parsed
    cases hlast.symm.trans last
    omega

theorem unwritable_iff : fs.Unwritable path ↔ ¬∃ p, fs.Receives path p := by
  constructor
  · rintro h ⟨p, hp⟩
    exact h.not_receives hp
  intro h
  cases hroute : Path.ofText path with
  | error e =>
    rcases ofText_error hroute with hempty | hpath
    · exact .empty hempty
    · exact .noPath hpath
  | ok route =>
    by_cases hwalk : ∃ folder, fs.Leads (fs.start route) route.names.dropLast folder
    · obtain ⟨folder, hleads⟩ := hwalk
      cases hfolder : fs.node? folder with
      | none =>
        refine .noFolder hroute (fun q n hq => ?_)
        rw [hq.unique hleads, hfolder]
        nofun
      | some node =>
        cases node with
        | file bytes => exact .folderIsFile hroute hleads hfolder
        | directory =>
          by_cases hdirectory : route.isFolder = true ∨ ∀ name ∈ route.names.getLast?,
              name = "." ∨ name = ".." ∨ fs.node? (folder ++ [name]) = some .directory
          · exact .isDirectory hroute hleads hfolder hdirectory
          · simp only [not_or, Classical.not_forall] at hdirectory
            obtain ⟨hfile, name, hlast, hdot, hdots, hnode⟩ := hdirectory
            by_cases hshort : name.utf8ByteSize ≤ Path.nameLimit
            · exact absurd ⟨_, .intro hroute (Bool.eq_false_iff.mpr hfile) hlast hleads hfolder hdot hdots hshort hnode⟩ h
            · exact .noName hroute hlast (Nat.lt_of_not_le hshort)
    · exact .noFolder hroute (fun folder n hleads => absurd ⟨folder, hleads⟩ hwalk)

/-! ## What a written file changes -/

/-- The same directories, and the same place to start from. -/
structure SameFolders (now next : FileSystem) : Prop where
  workingDirectory : next.workingDirectory = now.workingDirectory
  directory_iff (p : Place) : next.node? p = some .directory ↔ now.node? p = some .directory

namespace SameFolders

theorem refl (fs : FileSystem) : SameFolders fs fs := ⟨rfl, fun _ => Iff.rfl⟩

theorem symm (h : SameFolders now next) : SameFolders next now :=
  ⟨h.workingDirectory.symm, fun p => (h.directory_iff p).symm⟩

theorem trans (h : SameFolders now next) (h' : SameFolders next last) : SameFolders now last :=
  ⟨h'.workingDirectory.trans h.workingDirectory, fun p => (h'.directory_iff p).trans (h.directory_iff p)⟩

theorem start (h : SameFolders now next) (route : Path) : next.start route = now.start route := by
  rw [FileSystem.start, FileSystem.start, h.workingDirectory]

/-- Walks are the same. -/
theorem leads {names : List String} (h : SameFolders now next) (hleads : now.Leads p names q) : next.Leads p names q := by
  induction hleads with
  | here => exact .here
  | step folder short rest ih => exact .step ((h.directory_iff _).mpr folder) short ih

/-- Paths write to the same places. -/
theorem receives (h : SameFolders now next) (hreceives : now.Receives path p) : next.Receives path p := by
  cases hreceives with
  | intro parsed file last walk found notHere notUp short free =>
    rw [← h.start] at walk
    exact .intro parsed file last (h.leads walk) ((h.directory_iff _).mpr found) notHere notUp short
      fun hd => free ((h.directory_iff _).mp hd)

theorem receives_iff (h : SameFolders now next) : next.Receives path p ↔ now.Receives path p :=
  ⟨h.symm.receives, h.receives⟩

end SameFolders

/-- The file systems differ in the file `p` only, which holds these bytes now. -/
structure Replaced (now next : FileSystem) (p : Place) (bytes : ByteArray) : Prop where
  workingDirectory : next.workingDirectory = now.workingDirectory
  content : next.node? p = some (.file bytes)
  elsewhere : ∀ q, q ≠ p → next.node? q = now.node? q

/-- A file takes the place of no directory. -/
theorem Replaced.sameFolders (h : Replaced now next p bytes) (hp : now.node? p ≠ some .directory) :
    SameFolders now next := by
  refine ⟨h.workingDirectory, fun q => ?_⟩
  by_cases hq : q = p
  · rw [hq, h.content]
    simp [hp]
  · rw [h.elsewhere q hq]

theorem Receives.not_directory (h : fs.Receives path p) : fs.node? p ≠ some .directory := by
  cases h with
  | intro _ _ _ _ _ _ _ _ free => exact free

theorem Receives.replaced_insert (h : fs.Receives path p) (bytes : ByteArray) :
    Replaced fs (fs.insert p (.file bytes)) p bytes := by
  have hroot : p ≠ [] := by
    rintro rfl
    exact h.not_directory rfl
  exact ⟨rfl, node?_insert_self fs _ hroot, fun _ hq => node?_insert_of_ne fs _ hq⟩

/-- A path that is written to names the new file. -/
theorem Receives.names (h : now.Receives path p) (hnext : Replaced now next p bytes) : next.Names path p (.file bytes) := by
  have hsame := hnext.sameFolders h.not_directory
  have hfound := hnext.content
  cases h with
  | @intro route folder name parsed file last walk found notHere notUp short free =>
    have hstep : folder.step name = folder ++ [name] := by rw [Place.step, if_neg notHere, if_neg notUp]
    have hnames : route.names = route.names.dropLast ++ [name] := by
      obtain ⟨front, hfront⟩ := List.getLast?_eq_some_iff.mp last
      rw [hfront, List.dropLast_concat]
    have hwalk : now.Leads (now.start route) route.names (folder ++ [name]) := by
      rw [hnames]
      exact walk.append (.step found short (hstep ▸ .here))
    rw [← hsame.start] at hwalk
    refine .intro parsed (hsame.leads hwalk) hfound (fun hf => ?_)
    rw [file] at hf
    cases hf

end FileSystem

end Parlance
