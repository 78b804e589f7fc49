import Gsnet.Daemon
import Gsnet.ConfigProof

/-!
# Commands on the configuration file

`gsnet set`, `gsnet add` and `gsnet del`: the file is read, its entries are
changed, and it is written anew, in its place. The arguments go into the file as they
are given.
-/

namespace Gsnet.Cli

open Go Config Daemon

inductive StoreError where
  /-- The number of arguments is wrong; the text is the usage. -/
  | usage (text : GoString)
  | config (e : Config.Error)
  /-- `os.WriteFile` has failed. -/
  | write
  deriving DecidableEq

/-- The tree after a command, and the error it returned. -/
abbrev StoreOutcome := FileSystem × Option StoreError

section Commands

variable [CaseFold] (p : Paths) (fs : FileSystem)

def writeConf (es : Entries) : StoreOutcome :=
  match fs.writeFile p.confFile es.render with
  | .ok fs' => (fs', none)
  | .error fs' => (fs', some .write)

/-- The entries under other keys. -/
def without (es : Entries) (key : GoString) : Entries := es.filter fun e => ¬ EqualFold e.key key

/-- The entries that are changed; here a file that is missing counts as empty. -/
def storedEntries : Except StoreError Entries :=
  match parseFile fs p.confFile with
  | .ok es => .ok es
  | .error (.os .notExist) => .ok []
  | .error e => .error (.config e)

def mutateConf (key value : GoString) (replace : Bool) : StoreOutcome :=
  match storedEntries p fs with
  | .error e => (fs, some e)
  | .ok es => writeConf p fs ((if replace then without es key else es) ++ [⟨key, value⟩])

def cmdSet : List GoString → StoreOutcome
  | [key, value] => mutateConf p fs key value true
  | _ => (fs, some (.usage (str "set <key> <value>")))

def cmdAdd : List GoString → StoreOutcome
  | [key, value] => mutateConf p fs key value false
  | _ => (fs, some (.usage (str "add <key> <value>")))

/-- Whether `del` takes an entry out. An empty value stands for all of them. -/
def isDeleted (key value : GoString) (e : Entry) : Bool :=
  EqualFold e.key key && (value = [] || e.value = value)

def deleteFrom (key value : GoString) : StoreOutcome :=
  match parseFile fs p.confFile with
  | .error e => (fs, some (.config e))
  | .ok es => writeConf p fs (es.filter fun e => !isDeleted key value e)

def cmdDel : List GoString → StoreOutcome
  | [key] => deleteFrom p fs key []
  | [key, value] => deleteFrom p fs key value
  | _ => (fs, some (.usage (str "del <key> [value]")))

/-! ## Sequences of commands -/

inductive Command where
  | set (args : List GoString)
  | add (args : List GoString)
  | del (args : List GoString)
  deriving DecidableEq

def Command.run : Command → StoreOutcome
  | .set args => cmdSet p fs args
  | .add args => cmdAdd p fs args
  | .del args => cmdDel p fs args

/--
The tree after a sequence of commands, whatever they returned. Which writes the system
carries out may be another matter for each of them.
-/
def runAll (cs : List (GoMap Location Fault × Command)) : FileSystem :=
  cs.foldl (fun fs c => (c.2.run p { fs with faults := c.1 }).1) fs

end Commands

/-- What a command writes if the file holds these entries; `none` if its usage is wrong. -/
def Command.result [CaseFold] (old : Entries) : Command → Option Entries
  | .set [key, value] => some (without old key ++ [⟨key, value⟩])
  | .add [key, value] => some (old ++ [⟨key, value⟩])
  | .del [key] => some (old.filter fun e => !isDeleted key [] e)
  | .del [key, value] => some (old.filter fun e => !isDeleted key value e)
  | _ => none

/-! ## What a command does to the file -/

section Effects

variable {p : Paths} {fs fs' : FileSystem}

/-- What was written is what is read next. -/
theorem writeConf_ok {es : Entries} (h : writeConf p fs es = (fs', none)) :
    parseFile fs' p.confFile = Config.parse es.render := by
  unfold writeConf at h
  cases hw : fs.writeFile p.confFile es.render with
  | ok fs₁ =>
      rw [hw] at h
      cases h
      rw [parseFile, FileSystem.readFile_writeFile hw]
  | error fs₁ =>
      rw [hw] at h
      cases h

/-- A command on a file that parses writes its result. -/
theorem run_result [CaseFold] {old es : Entries} {c : Command}
    (hold : parseFile fs p.confFile = .ok old) (h : c.result old = some es) :
    c.run p fs = writeConf p fs es := by
  have hstored : storedEntries p fs = .ok old := by rw [storedEntries, hold]
  unfold Command.result at h
  split at h
  · cases h
    simp only [Command.run, cmdSet, mutateConf, hstored, if_true]
  · cases h
    simp only [Command.run, cmdAdd, mutateConf, hstored, Bool.false_eq_true, if_false]
  · cases h
    simp only [Command.run, cmdDel, deleteFrom, hold]
  · cases h
    simp only [Command.run, cmdDel, deleteFrom, hold]
  · cases h

/-- A command with the wrong number of arguments does nothing. -/
theorem run_usage [CaseFold] (p : Paths) (fs : FileSystem) {old : Entries} {c : Command}
    (h : c.result old = none) :
    ∃ text, c.run p fs = (fs, some (.usage text)) := by
  unfold Command.result at h
  split at h
  · cases h
  · cases h
  · cases h
  · cases h
  · rename_i h1 h2 h3 h4
    cases c with
    | set args =>
        refine ⟨str "set <key> <value>", ?_⟩
        simp only [Command.run]
        rw [cmdSet]
        exact fun key value h => h1 key value (by rw [h])
    | add args =>
        refine ⟨str "add <key> <value>", ?_⟩
        simp only [Command.run]
        rw [cmdAdd]
        exact fun key value h => h2 key value (by rw [h])
    | del args =>
        refine ⟨str "del <key> [value]", ?_⟩
        simp only [Command.run]
        rw [cmdDel]
        · exact fun key h => h3 key (by rw [h])
        · exact fun key value h => h4 key value (by rw [h])

/-- **What a command does on a file that parses**, whatever the system does to its write. -/
theorem run_cases [CaseFold] {old : Entries} (hold : parseFile fs p.confFile = .ok old)
    (c : Command) :
    (c.result old = none ∧ ∃ text, c.run p fs = (fs, some (.usage text)))
      ∨ ∃ es, c.result old = some es
        ∧ (¬ fs.Opens p.confFile ∧ c.run p fs = (fs, some .write)
          ∨ c.run p fs = (fs.put (fs.locate p.confFile) es.render, none)
          ∨ fs.Opens p.confFile ∧ ∃ written, fs.brokenOff (fs.locate p.confFile) = some written
            ∧ c.run p fs
              = (fs.put (fs.locate p.confFile) (es.render.take written), some .write)) := by
  cases hres : c.result old with
  | none => exact .inl ⟨rfl, run_usage p fs hres⟩
  | some es =>
      refine .inr ⟨es, rfl, ?_⟩
      rw [run_result hold hres, writeConf]
      cases hw : fs.writeFile p.confFile es.render with
      | ok fs' =>
          obtain ⟨-, -, rfl⟩ := FileSystem.writeFile_eq_ok.mp hw
          exact .inr (.inl rfl)
      | error fs' =>
          rcases FileSystem.writeFile_eq_error hw with
            ⟨hclosed, rfl⟩ | ⟨hopens, written, hbroken, rfl⟩
          · exact .inl ⟨hclosed, rfl⟩
          · exact .inr (.inr ⟨hopens, written, hbroken, rfl⟩)

end Effects

end Gsnet.Cli
