import Gsnet.Lib.Fallible
import Gsnet.Proof.Confine

/-!
# gsnet export and gsnet import

`cmdExport` prints the name of the node and its host file. `cmdImport` reads host
files from its input, each after a line that gives the name, and writes them to the
hosts directory. What comes before the first name goes into the first file. An import
that fails stops where it is; the files written so far stay, and so does a part of a file
whose write was broken off. Beside the tree the model records which host files were
opened to be written and where.
-/

namespace Gsnet.Cli

open Go Config Daemon FileSystem Lib

/-! ## Exporting -/

inductive ExportError where
  | config (e : Config.Error)
  /-- `Name not set in %s`. -/
  | noName (path : GoString)
  | readHost (e : OsError)
  deriving DecidableEq

/-- `cmdExport`: what it prints. -/
def cmdExport (p : Paths) (fs : FileSystem) : Except ExportError GoString := do
  let entries ← wrap .config (loadDirectory fs p.confFile)
  let name ← match entries.getFirst (str "Name") with
    | some name => .ok name
    | none => .error (.noName p.confFile)
  let host ← wrap .readHost (fs.readFile (p.hostFile name))
  .ok (str "Name = " ++ name ++ 0x0A :: host)

/-! ## Importing -/

/-- The lines `ReadString('\n')` delivers up to the end of the input, with their newlines. -/
def readLines : GoString → List GoString
  | [] => []
  | c :: t =>
    if c = 0x0A then [c] :: readLines t
    else match readLines t with
      | [] => [[c]]
      | line :: rest => (c :: line) :: rest

/-- The name, if the line starts a new host file. -/
def importedName (line : GoString) : Option GoString :=
  let trimmed := trimSpace line
  if isBlank trimmed then none
  else match cut 0x3D trimmed with
    | (_, none) => none
    | (k, some v) => if equalFold (trimSpace k) (str "Name") then some (trimSpace v) else none

/-- `writeHost` of the command. -/
def writeHost (p : Paths) (fs : FileSystem) (name : GoString) (lines : List GoString) :
    Except FileSystem FileSystem :=
  Daemon.writeHost fs p name lines.flatten

structure Import where
  fs : FileSystem
  name : GoString := []
  lines : List GoString := []
  /-- The host files written so far, by name and place, the last of them perhaps in part. -/
  written : List (GoString × Location) := []

namespace Import

/-- What is recorded of the host file that comes next, if it can be opened. -/
def opened (p : Paths) (st : Import) : List (GoString × Location) :=
  (touchedByWriteHost st.fs p st.name).map fun _ => (st.name, st.fs.locate (p.hostFile st.name))

/-- The end of a host file. Without a name nothing is written, and the lines are kept. -/
def finish (p : Paths) (st : Import) : Except Import Import :=
  if st.name = [] then .ok st
  else match writeHost p st.fs st.name st.lines with
    | .error fs => .error { st with fs := fs, written := st.written ++ st.opened p }
    | .ok fs => .ok { st with fs := fs, lines := [], written := st.written ++ st.opened p }

/-- One line of the input. -/
def step (p : Paths) (st : Import) (line : GoString) : Except Import Import :=
  match importedName line with
  | none => .ok { st with lines := st.lines ++ [line] }
  | some name => do
    let st ← st.finish p
    .ok { st with name := name }

end Import

/-- `cmdImport`, with how far it got as its error. -/
def cmdImport (p : Paths) (fs : FileSystem) (input : GoString) : Except Import Import := do
  let st ← (readLines input).foldlM (Import.step p) { fs := fs }
  st.finish p

/-- How far an import got. -/
def imported : Except Import Import → Import
  | .ok st => st
  | .error st => st

/-! ## What an import leaves alone -/

/-- The record is right: the places are those of the names, and no other file has changed. -/
structure Import.Recorded (p : Paths) (fs : FileSystem) (st : Import) : Prop where
  cwd : st.fs.cwd = fs.cwd
  place : ∀ w ∈ st.written, w.2 = fs.locate (p.hostFile w.1)
  others : ∀ l c, l ∉ st.written.map Prod.snd → fs.nodes.get? l = some (.file c) →
    st.fs.nodes.get? l = some (.file c)

namespace Import

variable {p : Paths} {fs : FileSystem} {st : Import}

theorem recorded_start (p : Paths) (fs : FileSystem) : Recorded p fs { fs := fs } where
  cwd := rfl
  place := by intro w hw; cases hw
  others := fun _ _ _ h => h

/-- The record is right after the next file, whatever came of it. -/
theorem recorded_opened (h : Recorded p fs st) {fs' : FileSystem} {lines : List GoString}
    (honly : OnlyHost st.fs p st.name fs') :
    Recorded p fs { st with fs := fs', lines := lines, written := st.written ++ st.opened p } := by
  refine ⟨honly.cwd.trans h.cwd, fun w hmem => ?_, fun l c hl hc => ?_⟩
  · rcases List.mem_append.mp hmem with hmem | hmem
    · exact h.place w hmem
    · obtain ⟨-, -, rfl⟩ := List.mem_map.mp hmem
      exact locate_congr h.cwd _
  · rw [List.map_append, List.mem_append, not_or] at hl
    refine (honly.files l c fun hcan heq => hl.2 ?_).mpr (h.others l c hl.1 hc)
    unfold opened
    rw [touchedByWriteHost_eq.1 hcan, heq, ← locate_hostFile]
    exact List.mem_singleton_self _

theorem recorded_finish (h : Recorded p fs st) : Ends (Recorded p fs) (st.finish p) := by
  unfold finish
  split
  · exact h
  · have honly := @onlyHost_writeHost st.fs p st.name st.lines.flatten
    unfold writeHost
    cases hw : Daemon.writeHost st.fs p st.name st.lines.flatten with
    | error fs' =>
        rw [hw] at honly
        exact recorded_opened h honly
    | ok fs' =>
        rw [hw] at honly
        exact recorded_opened h honly

theorem recorded_step (h : Recorded p fs st) (line : GoString) :
    Ends (Recorded p fs) (st.step p line) := by
  unfold step
  split
  · exact ⟨h.cwd, h.place, h.others⟩
  · exact (recorded_finish h).bind fun st' h' => ⟨h'.cwd, h'.place, h'.others⟩

end Import

/-- **Whatever the input, the import touches the files it has recorded and no others.** -/
theorem recorded_cmdImport (p : Paths) (fs : FileSystem) (input : GoString) :
    (imported (cmdImport p fs input)).Recorded p fs := by
  have hrun : Ends (Import.Recorded p fs) (cmdImport p fs input) :=
    (ends_foldlM (fun st line h => Import.recorded_step h line) (readLines input)
      (Import.recorded_start p fs)).bind fun st h => Import.recorded_finish h
  cases hr : cmdImport p fs input with
  | ok st => rw [hr] at hrun; exact hrun
  | error st => rw [hr] at hrun; exact hrun

end Gsnet.Cli
