import Parlance.Proofs.Storage.Naming
import Parlance.Storage.Compile

/-!
# Compilations are all or nothing

One compilation either fails and leaves every file as it was, or writes the tree of its source to its output and changes
nothing else (`compile_allOrNothing`). Which of them happens, and with which error, depends on what the two paths name and on
no content of a file. In a run of compilations each starts from the files that the one before it left, so that a source may
be an earlier output, or the output itself (`compileAll_allOrNothing`). The directories stay the same throughout, so it is
known from the start which places a run can change.
-/

namespace Parlance

namespace FileSystem

variable {fs now next last : FileSystem} {job : Job} {jobs : List Job} {p q : Place} {n : Node} {bytes : ByteArray}

/-! ## One compilation -/

/-- What a compilation answers, and what it leaves of the file system that it found. -/
structure AllOrNothing (now : FileSystem) (job : Job) (answer : Except CompileError File) (next : FileSystem) : Prop where
  /-- An error changes nothing. -/
  failed {e : CompileError} (h : answer = .error e) : next = now
  /-- The tree is that of the bytes that the source had, and the output path names its text. -/
  compiled {f : File} (h : answer = .ok f) : ∃ q bytes p,
    now.Names job.source q (.file bytes) ∧ f = File.ofTokens (lex (widened bytes)) ∧
    now.Receives job.output p ∧ Replaced now next p (String.ofList f.text).toUTF8 ∧
    next.Names job.output p (.file (String.ofList f.text).toUTF8)
  /-- A source that is a file is compiled wherever its output can be written, whatever it holds. -/
  compiled_iff : (∃ f, answer = .ok f) ↔
    (∃ q bytes, now.Names job.source q (.file bytes)) ∧ ∃ p, now.Receives job.output p
  sourceNotFound_iff : answer = .error (.sourceNotFound job.source) ↔ ¬∃ q n, now.Names job.source q n
  unreadable_iff : answer = .error (.unreadable job.source .isDirectory) ↔ ∃ q, now.Names job.source q .directory
  unwritable_iff : (∃ cause, answer = .error (.unwritable job.output cause)) ↔
    (∃ q bytes, now.Names job.source q (.file bytes)) ∧ now.Unwritable job.output

section Cases

theorem readSource_of_names_file (h : fs.Names job.source q (.file bytes)) : fs.readSource job.source = .ok bytes := by
  rw [readSource, find_eq_ok_iff.mpr ⟨q, h⟩]

/-- A source that can be read is compiled where its output can be written. -/
theorem compile_of_readSource (hread : fs.readSource job.source = .ok bytes) (htarget : fs.target job.output = .ok p) :
    fs.compile job = (.ok (File.ofBytes bytes), fs.insert p (.file (File.ofBytes bytes).bytes)) := by
  rw [compile, hread]
  simp only [write, htarget]

theorem compile_of_nothing (h : ¬∃ q n, fs.Names job.source q n) :
    fs.compile job = (.error (.sourceNotFound job.source), fs) := by
  cases hfind : fs.find job.source with
  | ok n =>
    obtain ⟨q, hq⟩ := find_eq_ok_iff.mp hfind
    exact absurd ⟨q, n, hq⟩ h
  | error e => rw [compile, readSource, hfind]

theorem compile_of_directory (h : fs.Names job.source q .directory) :
    fs.compile job = (.error (.unreadable job.source .isDirectory), fs) := by
  rw [compile, readSource, find_eq_ok_iff.mpr ⟨q, h⟩]

theorem compile_of_unwritable (hsource : fs.Names job.source q (.file bytes)) (h : fs.Unwritable job.output) :
    ∃ cause, fs.compile job = (.error (.unwritable job.output cause), fs) := by
  cases hwrite : fs.write job.output (File.ofBytes bytes).bytes with
  | ok next =>
    obtain ⟨p, hp, -⟩ := write_eq_ok_iff.mp hwrite
    exact absurd hp h.not_receives
  | error cause =>
    refine ⟨cause, ?_⟩
    rw [compile, readSource_of_names_file hsource]
    simp only [hwrite]

end Cases

theorem compile_allOrNothing (fs : FileSystem) (job : Job) : AllOrNothing fs job (fs.compile job).1 (fs.compile job).2 := by
  by_cases hsource : ∃ q n, fs.Names job.source q n
  case neg =>
    rw [compile_of_nothing hsource]
    exact {
      failed := fun _ => rfl
      compiled := nofun
      compiled_iff := ⟨nofun, fun ⟨⟨q, bytes, h⟩, _⟩ => absurd ⟨q, _, h⟩ hsource⟩
      sourceNotFound_iff := ⟨fun _ => hsource, fun _ => rfl⟩
      unreadable_iff := ⟨nofun, fun ⟨q, h⟩ => absurd ⟨q, _, h⟩ hsource⟩
      unwritable_iff := ⟨nofun, fun ⟨⟨q, bytes, h⟩, _⟩ => absurd ⟨q, _, h⟩ hsource⟩ }
  obtain ⟨q, n, hq⟩ := hsource
  cases n with
  | directory =>
    rw [compile_of_directory hq]
    have hfile : ¬∃ r bytes, fs.Names job.source r (.file bytes) := fun ⟨r, bytes, h⟩ => nomatch hq.unique h
    exact {
      failed := fun _ => rfl
      compiled := nofun
      compiled_iff := ⟨nofun, fun h => absurd h.1 hfile⟩
      sourceNotFound_iff := ⟨nofun, fun h => absurd ⟨q, _, hq⟩ h⟩
      unreadable_iff := ⟨fun _ => ⟨q, hq⟩, fun _ => rfl⟩
      unwritable_iff := ⟨nofun, fun h => absurd h.1 hfile⟩ }
  | file bytes =>
    have hdirectory : ¬∃ r, fs.Names job.source r .directory := fun ⟨r, h⟩ => nomatch hq.unique h
    by_cases houtput : ∃ p, fs.Receives job.output p
    case pos =>
      obtain ⟨p, hp⟩ := houtput
      rw [compile_of_readSource (readSource_of_names_file hq) (target_eq_ok_iff.mpr hp)]
      exact {
        failed := nofun
        compiled := by
          intro f h
          cases h
          exact ⟨q, bytes, p, hq, rfl, hp, hp.replaced_insert _, hp.names (hp.replaced_insert _)⟩
        compiled_iff := ⟨fun _ => ⟨⟨q, bytes, hq⟩, p, hp⟩, fun _ => ⟨_, rfl⟩⟩
        sourceNotFound_iff := ⟨nofun, fun h => absurd ⟨q, _, hq⟩ h⟩
        unreadable_iff := ⟨nofun, fun h => absurd h hdirectory⟩
        unwritable_iff := ⟨nofun, fun h => absurd hp h.2.not_receives⟩ }
    case neg =>
      obtain ⟨cause, hcompile⟩ := compile_of_unwritable hq (unwritable_iff.mpr houtput)
      rw [hcompile]
      exact {
        failed := fun _ => rfl
        compiled := nofun
        compiled_iff := ⟨nofun, fun h => absurd h.2 houtput⟩
        sourceNotFound_iff := ⟨nofun, fun h => absurd ⟨q, _, hq⟩ h⟩
        unreadable_iff := ⟨nofun, fun h => absurd h hdirectory⟩
        unwritable_iff := ⟨fun _ => ⟨⟨q, bytes, hq⟩, unwritable_iff.mpr houtput⟩, fun _ => ⟨cause, rfl⟩⟩ }

namespace AllOrNothing

variable {answer : Except CompileError File}

theorem sameFolders (h : AllOrNothing now job answer next) : SameFolders now next := by
  cases ha : answer with
  | error e =>
    rw [h.failed ha]
    exact .refl now
  | ok f =>
    obtain ⟨q, bytes, p, -, -, hp, hreplaced, -⟩ := h.compiled ha
    exact hreplaced.sameFolders hp.not_directory

/-- Nothing changes but what is at the output. -/
theorem node?_eq (h : AllOrNothing now job answer next) (hq : ¬now.Receives job.output q) : next.node? q = now.node? q := by
  cases ha : answer with
  | error e => rw [h.failed ha]
  | ok f =>
    obtain ⟨-, -, p, -, -, hp, hreplaced, -⟩ := h.compiled ha
    refine hreplaced.elsewhere q ?_
    rintro rfl
    exact hq hp

end AllOrNothing

/-! ## Runs -/

/-- A run of compilations, each on the files that the one before it left. -/
inductive Run : FileSystem → List Job → List (Except CompileError File) → FileSystem → Prop where
  | done {fs : FileSystem} : Run fs [] [] fs
  | step {now next last : FileSystem} {job : Job} {jobs : List Job} {answer : Except CompileError File}
      {answers : List (Except CompileError File)} (first : AllOrNothing now job answer next)
      (rest : Run next jobs answers last) : Run now (job :: jobs) (answer :: answers) last

namespace Run

variable {answers : List (Except CompileError File)}

/-- A run makes no directories and removes none. -/
theorem sameFolders (h : Run now jobs answers last) : SameFolders now last := by
  induction h with
  | done => exact .refl _
  | step first rest ih => exact first.sameFolders.trans ih

/-- A place that no output writes to at the start stays as it is to the end. -/
theorem node?_eq (h : Run now jobs answers last) (hq : ∀ job ∈ jobs, ¬now.Receives job.output q) :
    last.node? q = now.node? q := by
  induction h with
  | done => rfl
  | step first rest ih =>
    obtain ⟨hfirst, hrest⟩ := List.forall_mem_cons.mp hq
    rw [ih fun job hjob => mt first.sameFolders.receives_iff.mp (hrest job hjob), first.node?_eq hfirst]

end Run

theorem run_compileAll (fs : FileSystem) (jobs : List Job) : Run fs jobs (fs.compileAll jobs).1 (fs.compileAll jobs).2 := by
  induction jobs generalizing fs with
  | nil => exact .done
  | cons job jobs ih => exact .step (compile_allOrNothing fs job) (ih _)

/-- **Compilations are all or nothing**, each of them in a run of any length on any file system. What is at a place to which
no output of the run would have been written at its start is the same in the end. -/
theorem compileAll_allOrNothing (fs : FileSystem) (jobs : List Job) :
    Run fs jobs (fs.compileAll jobs).1 (fs.compileAll jobs).2 ∧
    ∀ q, (∀ job ∈ jobs, ¬fs.Receives job.output q) → (fs.compileAll jobs).2.node? q = fs.node? q :=
  ⟨run_compileAll fs jobs, fun _ hq => (run_compileAll fs jobs).node?_eq hq⟩

end FileSystem

end Parlance
