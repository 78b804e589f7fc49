import Gsnet.Proof.Installed

/-!
# The tree of a new node

`Init` makes two directories and then four files, one after the other, none of which
may be there yet. Nothing is looked at before the first file is written, and nothing
is taken back: where a file is in the way, or the system refuses it, those before it
stay; and of a file whose write is broken off a part stays as well. So what a failed
`Init` has left is told by the file that it could not create, and only the first of
the four can fail without a trace.

A tree that was made passes `Fsck` in what `Init` has written. The configuration has
one line, which a long name makes too long to be read, and it is read with `conf.d`,
which `Init` does not look at.
-/

namespace Gsnet.Cli

open Go Config Daemon FileSystem Lib

/-! ## Init -/

inductive InitError where
  | name (e : Nodename.NameError)
  | mkdir
  /-- `create %s: %w`. -/
  | create (path : GoString)
  /-- The error of `f.Write`. -/
  | write (path : GoString)
  deriving DecidableEq

/-- `os.MkdirAll`. -/
def makeDirs (path : GoString) : EStateM InitError FileSystem Unit := fun fs =>
  match fs.mkdirAll path with
  | some fs' => .ok () fs'
  | none => .error .mkdir fs

/-- `os.OpenFile` and the write. -/
def createFile (path data : GoString) : EStateM InitError FileSystem Unit := fun fs =>
  if fs.Vacant path then
    match fs.fill (fs.locate path) data with
    | .ok fs' => .ok () fs'
    | .error fs' => .error (.write path) fs'
  else .error (.create path) fs

def writeFileExclusive (path data : GoString) : EStateM InitError FileSystem Unit := do
  makeDirs (dirname path)
  createFile path data

def initConf (name : GoString) : Entries := [⟨str "Name", name⟩]

/-- `daemon.Init`, with the keys it generates on the way. -/
def init [Curve25519] (p : Paths) (name : GoString) (keys : FreshKeys) :
    EStateM InitError FileSystem Unit :=
  match Nodename.validate name with
  | .error e => throw (.name e)
  | .ok () => do
    makeDirs p.hostsDir
    makeDirs p.invitationsDir
    writeFileExclusive p.ed25519Private keys.edPEM
    writeFileExclusive p.wgPrivate (keys.wgPriv.string ++ [0x0A])
    writeFileExclusive p.confFile (initConf name).render
    writeFileExclusive (p.hostFile name) (myHost keys).render

/-- The files of the tree, in the order they are written. -/
def initFiles [Curve25519] (p : Paths) (name : GoString) (keys : FreshKeys) :
    List (GoString × GoString) :=
  [(p.ed25519Private, keys.edPEM),
    (p.wgPrivate, keys.wgPriv.string ++ [0x0A]),
    (p.confFile, (initConf name).render),
    (p.hostFile name, (myHost keys).render)]

/-! ## What is asked for -/

/-- The files of the second tree are those of the first and these. -/
def Adds (fs fs' : FileSystem) (files : List (GoString × GoString)) : Prop :=
  ∀ loc content, fs'.nodes.get? loc = some (.file content)
    ↔ fs.nodes.get? loc = some (.file content) ∨ ∃ f ∈ files, fs.locate f.1 = loc ∧ f.2 = content

/-- How the creation of a file fails: with which error, and with what left of the file. -/
inductive Fails (fs : FileSystem) (f : GoString × GoString) :
    InitError → List (GoString × GoString) → Prop where
  /-- The file was there before. -/
  | taken (h : fs.nodes.get? (fs.locate f.1) ≠ none) : Fails fs f (.create f.1) []
  | refused (h : fs.faults.get? (fs.locate f.1) = some .refused) : Fails fs f (.create f.1) []
  | brokenOff {written : Nat} (h : fs.faults.get? (fs.locate f.1) = some (.brokenOff written)) :
      Fails fs f (.write f.1) [(f.1, f.2.take written)]

/-- The directory of the fragments. -/
def confd (p : Paths) : GoString := join [dirname p.confFile, str "conf.d"]

def NoFragment (fs : FileSystem) (p : Paths) : Prop :=
  ∀ entries, fs.readDir (confd p) = .ok entries → fragments entries = []

/-! ## One file after the other -/

def writeFilesExclusive : List (GoString × GoString) → EStateM InitError FileSystem Unit
  | [] => pure ()
  | f :: files => do
    writeFileExclusive f.1 f.2
    writeFilesExclusive files

/-- A path to a place in a directory that is there. -/
structure Ready (fs : FileSystem) (path : GoString) : Prop where
  nul : 0 ∉ path
  nul_dir : 0 ∉ dirname path
  place : ∃ n, fs.locate path = fs.locate (dirname path) ++ [n]
  dirs : ∀ l ∈ steps (fs.locate (dirname path)), fs.nodes.get? l = some .dir

theorem ready_join {fs : FileSystem} {dir name : GoString} (hname : PlainName name)
    (h0 : 0 ∉ join [dir, name]) (hdirs : ∀ l ∈ steps (fs.locate dir), fs.nodes.get? l = some .dir) :
    Ready fs (join [dir, name]) := by
  have hdir := fs.locate_dirname_join dir hname
  refine ⟨h0, fun hm => ?_, ⟨name, ?_⟩, ?_⟩
  · rcases mem_of_mem_dirname hm with h | h | h
    · cases h
    · cases h
    · exact h0 h
  · rw [hdir, fs.locate_join_plain dir hname]
  · rwa [hdir]

section Step

variable {fs : FileSystem} {path : GoString}

/-- The directories that are there are made again. -/
theorem Ready.mkdirAll (h : Ready fs path) : fs.mkdirAll (dirname path) = some fs := by
  have hclear : ∀ l ∈ steps (fs.locate (dirname path)), ∀ c, fs.nodes.get? l ≠ some (.file c) := by
    intro l hl c hc
    cases (h.dirs l hl).symm.trans hc
  obtain ⟨fs', hfs'⟩ := mkdirAll_eq_some.mpr ⟨h.nul_dir, hclear⟩
  obtain ⟨hcwd, hget⟩ := mkdirAll_get? hfs'
  have hnodes : fs'.nodes = fs.nodes := by
    refine GoMap.ext_get? fun l => ?_
    rw [hget, if_neg]
    rintro ⟨hl, hnone⟩
    cases (h.dirs l hl).symm.trans hnone
  rw [hfs']
  have hfaults := mkdirAll_faults hfs'
  exact congrArg some (by cases fs; cases fs'; cases hcwd; cases hnodes; cases hfaults; rfl)

theorem Ready.isDir (h : Ready fs path) : fs.isDir (fs.locate path).dropLast = true := by
  obtain ⟨n, hn⟩ := h.place
  rw [hn, List.dropLast_concat, FileSystem.isDir]
  by_cases hroot : fs.locate (dirname path) = []
  · simp [hroot]
  · have hdir := h.dirs _ (mem_steps.mpr ⟨List.prefix_rfl, hroot⟩)
    simp [hdir]

theorem Ready.vacant_iff (h : Ready fs path) :
    fs.Vacant path ↔ fs.nodes.get? (fs.locate path) = none
      ∧ fs.faults.get? (fs.locate path) ≠ some .refused := by
  have hroot : fs.locate path ≠ [] := by
    obtain ⟨n, hn⟩ := h.place
    simp [hn]
  constructor
  · rintro ⟨-, -, hfree, -, hallowed⟩
    exact ⟨hfree, hallowed⟩
  · rintro ⟨hfree, hallowed⟩
    exact ⟨h.nul, hroot, hfree, h.isDir, hallowed⟩

/-- **A file is created, or it fails.** -/
theorem Ready.writeFileExclusive (h : Ready fs path) (data : GoString) :
    fs.nodes.get? (fs.locate path) = none
        ∧ writeFileExclusive path data fs = .ok () (fs.put (fs.locate path) data)
      ∨ (∃ e, Fails fs (path, data) e [] ∧ writeFileExclusive path data fs = .error e fs)
      ∨ ∃ e part, fs.nodes.get? (fs.locate path) = none ∧ Fails fs (path, data) e [(path, part)]
        ∧ writeFileExclusive path data fs = .error e (fs.put (fs.locate path) part) := by
  have hdirs : makeDirs (dirname path) fs = .ok () fs := by rw [makeDirs, h.mkdirAll]
  have hrun : Cli.writeFileExclusive path data fs = createFile path data fs :=
    estate_bind_of_ok hdirs
  rw [hrun, createFile]
  by_cases hvacant : fs.Vacant path
  · rw [if_pos hvacant, fill]
    have hfree := (h.vacant_iff.mp hvacant).1
    cases hbroken : fs.brokenOff (fs.locate path) with
    | none => exact .inl ⟨hfree, rfl⟩
    | some written =>
        exact .inr (.inr ⟨_, _, hfree, .brokenOff (brokenOff_eq_some.mp hbroken), rfl⟩)
  · rw [if_neg hvacant]
    refine .inr (.inl ⟨_, ?_, rfl⟩)
    by_cases hfree : fs.nodes.get? (fs.locate path) = none
    · by_cases hrefused : fs.faults.get? (fs.locate path) = some .refused
      · exact .refused hrefused
      · exact absurd (h.vacant_iff.mpr ⟨hfree, hrefused⟩) hvacant
    · exact .taken hfree

/-- A new file is not in the way of the others. -/
theorem Ready.put (h : Ready fs path) {loc : Location} (hfree : fs.nodes.get? loc = none)
    (data : GoString) : Ready (fs.put loc data) path := by
  refine ⟨h.nul, h.nul_dir, h.place, fun l hl => ?_⟩
  have hdir := h.dirs l hl
  have hne : l ≠ loc := by
    rintro rfl
    cases hdir.symm.trans hfree
  rw [get?_put, if_neg hne]
  exact hdir

/-- Nor does it change how they fail. -/
theorem Fails.of_put {f : GoString × GoString} {e : InitError} {left : List (GoString × GoString)}
    {loc : Location} {data : GoString} (h : Fails (fs.put loc data) f e left)
    (hne : fs.locate f.1 ≠ loc) : Fails fs f e left := by
  cases h with
  | taken h =>
      rw [locate_put, get?_put, if_neg hne] at h
      exact .taken h
  | refused h => exact .refused h
  | brokenOff h => exact .brokenOff h

end Step

/-- These files are new in the second tree, and nothing else is. -/
structure Created (fs fs' : FileSystem) (files : List (GoString × GoString)) : Prop where
  cwd : fs'.cwd = fs.cwd
  free : ∀ f ∈ files, fs.nodes.get? (fs.locate f.1) = none
  written : ∀ f ∈ files, fs'.nodes.get? (fs.locate f.1) = some (.file f.2)
  other : ∀ loc, (∀ f ∈ files, fs.locate f.1 ≠ loc) → fs'.nodes.get? loc = fs.nodes.get? loc

theorem created_nil (fs : FileSystem) : Created fs fs [] :=
  ⟨rfl, by simp, by simp, fun _ _ => rfl⟩

theorem created_cons {fs fs' : FileSystem} {f : GoString × GoString}
    {files : List (GoString × GoString)} (hfree : fs.nodes.get? (fs.locate f.1) = none)
    (h : Created (fs.put (fs.locate f.1) f.2) fs' files) : Created fs fs' (f :: files) := by
  -- the files that follow are elsewhere, since they were free after the first one
  have hother : ∀ g ∈ files, fs.locate g.1 ≠ fs.locate f.1 := by
    intro g hg heq
    have hnone := h.free g hg
    rw [locate_put, heq, get?_put, if_pos rfl] at hnone
    cases hnone
  refine ⟨h.cwd, List.forall_mem_cons.mpr ⟨hfree, fun g hg => ?_⟩,
    List.forall_mem_cons.mpr ⟨?_, h.written⟩, fun loc hloc => ?_⟩
  · have hnone := h.free g hg
    rwa [locate_put, get?_put, if_neg (hother g hg)] at hnone
  · rw [h.other _ hother, get?_put, if_pos rfl]
  · obtain ⟨hne, hrest⟩ := List.forall_mem_cons.mp hloc
    rw [h.other loc hrest, get?_put, if_neg hne.symm]

theorem Created.readFile {fs fs' : FileSystem} {files : List (GoString × GoString)}
    (h : Created fs fs' files) (hready : ∀ f ∈ files, Ready fs f.1) :
    ∀ f ∈ files, fs'.readFile f.1 = .ok f.2 := by
  intro f hf
  obtain ⟨n, hn⟩ := (hready f hf).place
  rw [readFile_eq_ok, locate_congr h.cwd]
  exact ⟨(hready f hf).nul, by simp [hn], h.written f hf⟩

/-- **Files are created up to the first that fails.** -/
theorem writeFilesExclusive_spec {files : List (GoString × GoString)} {fs : FileSystem}
    (hready : ∀ f ∈ files, Ready fs f.1)
    (hplaces : files.Pairwise fun f g => fs.locate f.1 ≠ fs.locate g.1) :
    (∃ fs', writeFilesExclusive files fs = .ok () fs' ∧ Created fs fs' files)
      ∨ ∃ pre f post left e fs', files = pre ++ f :: post ∧ Fails fs f e left
        ∧ writeFilesExclusive files fs = .error e fs' ∧ Created fs fs' (pre ++ left) := by
  induction files generalizing fs with
  | nil => exact .inl ⟨fs, rfl, created_nil fs⟩
  | cons f files ih =>
      obtain ⟨hf, hfiles⟩ := List.forall_mem_cons.mp hready
      obtain ⟨hapart, hplaces⟩ := List.pairwise_cons.mp hplaces
      rw [writeFilesExclusive]
      rcases hf.writeFileExclusive f.2 with
        ⟨hfree, hstep⟩ | ⟨e, hfails, hstep⟩ | ⟨e, part, hfree, hfails, hstep⟩
      · rw [estate_bind_of_ok hstep]
        rcases ih (fun g hg => (hfiles g hg).put hfree f.2) hplaces with
          ⟨fs', hok, hcreated⟩ | ⟨pre, g, post, left, e, fs', rfl, hfails, herr, hcreated⟩
        · exact .inl ⟨fs', hok, created_cons hfree hcreated⟩
        · have hne : fs.locate g.1 ≠ fs.locate f.1 := (hapart g (by simp)).symm
          exact .inr ⟨f :: pre, g, post, left, e, fs', rfl, hfails.of_put hne, herr,
            created_cons hfree hcreated⟩
      · exact .inr ⟨[], f, files, [], e, fs, rfl, hfails, estate_bind_error.mpr (.inl hstep),
          created_nil fs⟩
      · exact .inr ⟨[], f, files, [(f.1, part)], e, _, rfl, hfails,
          estate_bind_error.mpr (.inl hstep), created_cons hfree (created_nil _)⟩

/-! ## The tree of a node -/

/-- Only its own step is beside a place on the way to it. -/
theorem mem_steps_append {base rest : Location} {n m : GoString} :
    base ++ n :: rest ∈ steps (base ++ [m]) ↔ n = m ∧ rest = [] := by
  rw [mem_steps, List.prefix_append_right_inj, List.cons_prefix_cons, List.prefix_nil]
  simp

/-- The directories of a tree have been made, and nothing else. -/
structure Made (fs made : FileSystem) (p : Paths) : Prop where
  cwd : made.cwd = fs.cwd
  faults : made.faults = fs.faults
  nul : 0 ∉ p.hostsDir
  dirs : ∀ l ∈ steps (fs.locate p.hostsDir), made.nodes.get? l = some .dir
  get? : ∀ loc, made.nodes.get? loc
    = if (loc ∈ steps (fs.locate p.hostsDir) ∨ loc ∈ steps (fs.locate p.invitationsDir))
        ∧ fs.nodes.get? loc = none then some .dir
      else fs.nodes.get? loc

theorem made_of_mkdirAll {fs made₁ made : FileSystem} {p : Paths}
    (h₁ : fs.mkdirAll p.hostsDir = some made₁) (h₂ : made₁.mkdirAll p.invitationsDir = some made) :
    Made fs made p := by
  obtain ⟨hcwd, hget⟩ := get?_made h₁ h₂
  obtain ⟨h0, hclear⟩ := mkdirAll_eq_some.mp ⟨made₁, h₁⟩
  refine ⟨hcwd, (mkdirAll_faults h₂).trans (mkdirAll_faults h₁), h0, fun l hl => ?_, hget⟩
  rw [hget]
  cases hnode : fs.nodes.get? l with
  | none => rw [if_pos ⟨.inl hl, rfl⟩]
  | some node =>
      cases node with
      | dir => rw [if_neg (by simp)]
      | file c => exact absurd hnode (hclear l hl c)

namespace Made

variable {fs made : FileSystem} {p : Paths} (h : Made fs made p)

include h

theorem locate (path : GoString) : made.locate path = fs.locate path := locate_congr h.cwd path

theorem file_iff (loc : Location) (content : GoString) :
    made.nodes.get? loc = some (.file content) ↔ fs.nodes.get? loc = some (.file content) := by
  rw [h.get?]
  split
  · rename_i hnew
    simp [hnew.2]
  · rfl

theorem get?_none {loc : Location} (hnone : made.nodes.get? loc = none) :
    fs.nodes.get? loc = none := by
  rw [h.get?] at hnone
  split at hnone
  · cases hnone
  · exact hnone

/-- What is no directory of a tree is as it was. -/
theorem get?_beside {n : GoString} {rest : Location}
    (hbeside : n ≠ str "hosts" ∧ n ≠ str "invitations" ∨ rest ≠ []) :
    made.nodes.get? (fs.locate p.netDir ++ n :: rest)
      = fs.nodes.get? (fs.locate p.netDir ++ n :: rest) := by
  obtain ⟨hhosts, hinv⟩ := locate_dirs fs p
  rw [h.get?, if_neg]
  rw [hhosts, hinv, mem_steps_append, mem_steps_append]
  rintro ⟨⟨hn, hrest⟩ | ⟨hn, hrest⟩, -⟩
  · rcases hbeside with hb | hb
    · exact hb.1 hn
    · exact hb hrest
  · rcases hbeside with hb | hb
    · exact hb.2 hn
    · exact hb hrest

/-- A file fails for what was there before the directories were made. -/
theorem fails {f : GoString × GoString} {e : InitError} {left : List (GoString × GoString)}
    {n : GoString} {rest : Location} (hplace : fs.locate f.1 = fs.locate p.netDir ++ n :: rest)
    (hbeside : n ≠ str "hosts" ∧ n ≠ str "invitations" ∨ rest ≠ []) (hf : Fails made f e left) :
    Fails fs f e left := by
  cases hf with
  | taken hf =>
      rw [h.locate, hplace, h.get?_beside hbeside] at hf
      exact .taken (by rwa [hplace])
  | refused hf =>
      rw [h.locate, h.faults] at hf
      exact .refused hf
  | brokenOff hf =>
      rw [h.locate, h.faults] at hf
      exact .brokenOff hf

end Made

/-- Of the files, those are new that were created. -/
theorem Created.adds {fs made fs' : FileSystem} {p : Paths} {pre : List (GoString × GoString)}
    (hmade : Made fs made p) (h : Created made fs' pre) : Adds fs fs' pre := by
  intro loc content
  by_cases hnew : ∃ f ∈ pre, fs.locate f.1 = loc
  · obtain ⟨f, hf, rfl⟩ := hnew
    have hfree := h.free f hf
    have hwritten := h.written f hf
    rw [hmade.locate] at hfree hwritten
    rw [hwritten, hmade.get?_none hfree, Option.some.injEq, Node.file.injEq]
    constructor
    · rintro rfl
      exact .inr ⟨f, hf, rfl, rfl⟩
    · rintro (hold | ⟨g, hg, hloc, rfl⟩)
      · cases hold
      · have hother := h.written g hg
        rw [hmade.locate, hloc, hwritten, Option.some.injEq, Node.file.injEq] at hother
        exact hother
  · have hnone : ∀ f ∈ pre, made.locate f.1 ≠ loc := by
      intro f hf heq
      exact hnew ⟨f, hf, (hmade.locate _).symm.trans heq⟩
    rw [h.other loc hnone, hmade.file_iff]
    constructor
    · exact .inl
    · rintro (hold | ⟨f, hf, hloc, -⟩)
      · exact hold
      · exact absurd ⟨f, hf, hloc⟩ hnew

section Tree

variable [Curve25519] {fs made fs' : FileSystem} {p : Paths} {name : GoString} {keys : FreshKeys}

/-- The places of the files. -/
theorem locate_initFiles (fs : FileSystem) (hname : PlainName name) {f : GoString × GoString}
    (hf : f ∈ initFiles p name keys) : ∃ n rest, fs.locate f.1 = fs.locate p.netDir ++ n :: rest
      ∧ n ≠ str "conf.d" ∧ (n ≠ str "hosts" ∧ n ≠ str "invitations" ∨ rest ≠ []) := by
  obtain ⟨hconf, hed, hwg, -⟩ := locate_files fs p
  have hhost := locate_host fs p hname
  rw [(locate_dirs fs p).1, List.append_assoc] at hhost
  simp only [initFiles, List.mem_cons, List.not_mem_nil, or_false] at hf
  rcases hf with rfl | rfl | rfl | rfl
  · exact ⟨_, [], hed, by decide, .inl (by decide)⟩
  · exact ⟨_, [], hwg, by decide, .inl (by decide)⟩
  · exact ⟨_, [], hconf, by decide, .inl (by decide)⟩
  · exact ⟨_, [name], hhost, by decide, .inr (by simp)⟩

theorem pairwise_initFiles (fs : FileSystem) (hname : PlainName name) :
    (initFiles p name keys).Pairwise fun f g => fs.locate f.1 ≠ fs.locate g.1 := by
  obtain ⟨hconf, hed, hwg, -⟩ := locate_files fs p
  have hhost := beside_hosts fs p hname
  rw [walk_plainName hname, ← locate_host fs p hname] at hhost
  have hnames : str "ed25519_key.priv" ≠ str "wg.priv" ∧ str "ed25519_key.priv" ≠ str "gsnet.conf"
      ∧ str "wg.priv" ≠ str "gsnet.conf" := by decide
  simp [initFiles, hconf, hed, hwg, hhost, hnames]

/-- Once there are directories, every file has one to be created in. -/
theorem Made.ready (h : Made fs made p) (hvalid : Nodename.validate name = .ok ()) :
    ∀ f ∈ initFiles p name keys, Ready made f.1 := by
  have hname := plainName_of_validate hvalid
  obtain ⟨hhosts, -⟩ := locate_dirs fs p
  -- the files beside the hosts directory share its path up to the name
  obtain ⟨front, -, hjoin⟩ := join_eq_append p.netDir
  have hfront : 0 ∉ front := by
    have h0 := h.nul
    rw [Paths.hostsDir, hjoin _ (by decide), List.mem_append, not_or] at h0
    exact h0.1
  have hdirs : ∀ l ∈ steps (made.locate p.hostsDir), made.nodes.get? l = some .dir := by
    rw [h.locate]
    exact h.dirs
  have hnet : ∀ l ∈ steps (made.locate p.netDir), made.nodes.get? l = some .dir := by
    intro l hl
    rw [h.locate, mem_steps] at hl
    refine h.dirs l (mem_steps.mpr ⟨?_, hl.2⟩)
    rw [hhosts]
    exact hl.1.trans (List.prefix_append _ _)
  have hbeside : ∀ n, PlainName n → 0 ∉ n → Ready made (join [p.netDir, n]) := by
    intro n hn h0
    refine ready_join hn ?_ hnet
    rw [hjoin n hn, List.mem_append, not_or]
    exact ⟨hfront, h0⟩
  have hhost : Ready made (p.hostFile name) := by
    refine ready_join hname (fun hm => ?_) hdirs
    rcases mem_of_mem_join hname.standing.1 hm with hm | hm | hm | hm
    · cases hm
    · cases hm
    · exact h.nul hm
    · exact absurd (Nodename.validate_ok hvalid 0 hm) (by decide)
  intro f hf
  simp only [initFiles, List.mem_cons, List.not_mem_nil, or_false] at hf
  rcases hf with rfl | rfl | rfl | rfl
  · exact hbeside _ (by decide) (by decide)
  · exact hbeside _ (by decide) (by decide)
  · exact hbeside _ (by decide) (by decide)
  · exact hhost

/-- **`Init` fails before it writes, or goes on to write its files where directories are.** -/
theorem init_spec (fs : FileSystem) (p : Paths) (name : GoString) (keys : FreshKeys) :
    (∃ e fs', init p name keys fs = .error e fs' ∧ Adds fs fs' [])
      ∨ ∃ made, Nodename.validate name = .ok () ∧ Made fs made p
        ∧ init p name keys fs = writeFilesExclusive (initFiles p name keys) made := by
  unfold init
  cases hvalid : Nodename.validate name with
  | error e => exact .inl ⟨.name e, fs, rfl, by simp [Adds]⟩
  | ok u =>
  cases h₁ : fs.mkdirAll p.hostsDir with
  | none =>
      have hdirs : makeDirs p.hostsDir fs = .error .mkdir fs := by rw [makeDirs, h₁]
      exact .inl ⟨.mkdir, fs, estate_bind_error.mpr (.inl hdirs), by simp [Adds]⟩
  | some made₁ =>
  have hdirs₁ : makeDirs p.hostsDir fs = .ok () made₁ := by rw [makeDirs, h₁]
  cases h₂ : made₁.mkdirAll p.invitationsDir with
  | none =>
      have hdirs₂ : makeDirs p.invitationsDir made₁ = .error .mkdir made₁ := by rw [makeDirs, h₂]
      refine .inl ⟨.mkdir, made₁, ?_, fun loc content => ?_⟩
      · dsimp only
        rw [estate_bind_of_ok hdirs₁]
        exact estate_bind_error.mpr (.inl hdirs₂)
      · rw [(mkdirAll_get? h₁).2]
        split
        · rename_i hnew
          simp [hnew.2]
        · simp
  | some made =>
      have hdirs₂ : makeDirs p.invitationsDir made₁ = .ok () made := by rw [makeDirs, h₂]
      refine .inr ⟨made, rfl, made_of_mkdirAll h₁ h₂, ?_⟩
      dsimp only
      rw [estate_bind_of_ok hdirs₁, estate_bind_of_ok hdirs₂]
      simp only [initFiles, writeFilesExclusive, bind_pure_unit]

/-! ## What Fsck finds -/

/-- `Init` leaves the fragments alone. -/
theorem Created.readDir_confd (hmade : Made fs made p) (hname : PlainName name)
    (h : Created made fs' (initFiles p name keys)) :
    fs'.readDir (confd p) = fs.readDir (confd p) := by
  obtain ⟨-, -, -, hconfd⟩ := locate_files fs p
  -- none of the files is there, nor on the way
  have hother : ∀ loc, (∀ n rest, n ≠ str "conf.d" → fs.locate p.netDir ++ n :: rest ≠ loc) →
      fs'.nodes.get? loc = made.nodes.get? loc := by
    intro loc hloc
    refine h.other loc fun f hf => ?_
    obtain ⟨n, rest, hplace, hn, -⟩ := locate_initFiles fs hname hf
    rw [hmade.locate, hplace]
    exact hloc n rest hn
  have hsame : ∀ rest, fs'.nodes.get? (fs.locate p.netDir ++ str "conf.d" :: rest)
      = fs.nodes.get? (fs.locate p.netDir ++ str "conf.d" :: rest) := by
    intro rest
    rw [hother, hmade.get?_beside (.inl (by decide))]
    intro n rest' hn heq
    exact hn (List.cons.inj (List.append_cancel_left heq)).1
  refine readDir_congr (h.cwd.trans hmade.cwd) (fun l hl hne => ?_) ?_ fun n => ?_
  · have hlen := hl.length_le
    have hlt : l.length ≠ (fs.locate (confd p)).length := fun heq => hne (hl.eq_of_length heq)
    rw [confd, hconfd, List.length_append, List.length_singleton] at hlen hlt
    rw [hother l]
    · exact exists_congr fun c => hmade.file_iff l c
    · rintro n rest - rfl
      simp only [List.length_append, List.length_cons] at hlen hlt
      omega
  · rw [confd, hconfd]
    exact hsame []
  · rw [confd, hconfd, List.append_assoc]
    exact hsame [n]

end Tree

/-- The configuration is the line that was written, if that can be read. -/
theorem parse_initConf {name : GoString} {es : Entries}
    (hvalid : Nodename.validate name = .ok ()) :
    Config.parse (initConf name).render = .ok es ↔ name.length ≤ 65528 ∧ es = initConf name := by
  have hparsed : (initConf name).Parsed := by
    intro e he
    cases List.mem_singleton.mp he
    exact known_of_validate hvalid (by decide +kernel)
  have hkeys : (str "Name").length = 4 ∧ (str " = ").length = 3 ∧ maxLine = 65535 := by decide
  obtain ⟨h1, h2, h3⟩ := hkeys
  rw [parse_render_iff fun e he => (hparsed e he).1, hparsed.map_canon]
  refine and_congr_left fun _ => ?_
  simp only [Entries.Short, initConf, List.mem_singleton, forall_eq, Entry.line,
    List.length_append, h1, h2, h3]
  omega

/-- Without fragments, it only matters whether some could have been read. -/
theorem loadFragments_eq_ok {fs : FileSystem} {p : Paths} {more : Entries} (hno : NoFragment fs p) :
    loadFragments fs p.confFile = .ok more ↔ more = [] ∧ fs.readDir (confd p) ≠ .error .other := by
  unfold loadFragments
  rw [← confd]
  cases hread : fs.readDir (confd p) with
  | error e =>
      cases e with
      | notExist => simp [hread, eq_comm]
      | other => simp [hread]
  | ok entries =>
      simp only [hread, hno entries hread, List.mapM_nil, pure_bind]
      simp [eq_comm]

/-- **What `Fsck` finds in a new tree without fragments** comes from the name and from `conf.d`. -/
theorem Created.fsck_iff [PKCS8] [Curve25519] {fs made fs' : FileSystem} {p : Paths}
    {name : GoString} {keys : FreshKeys} (hmade : Made fs made p)
    (hvalid : Nodename.validate name = .ok ()) (h : Created made fs' (initFiles p name keys))
    (hlength : keys.edPriv.raw.length = 64)
    (hparses : parseEd25519PrivatePEM keys.edPEM = some keys.edPriv) (hno : NoFragment fs p)
    (perm : GoString → UInt32) :
    NoError (fsck fs' perm p)
      ↔ name.length ≤ 65528 ∧ fs.readDir (confd p) ≠ .error .other := by
  have hname := plainName_of_validate hvalid
  have hready := @Made.ready _ fs made p name keys hmade hvalid
  have hread := h.readFile hready
  simp only [initFiles, List.forall_mem_cons] at hread
  obtain ⟨hed, hwg, hconf, hhost, -⟩ := hread
  have hdir := h.readDir_confd hmade hname
  have hno' : NoFragment fs' p := by
    intro entries hentries
    rw [hdir] at hentries
    exact hno entries hentries
  have hload : ∀ es, loadDirectory fs' p.confFile = .ok es
      ↔ (name.length ≤ 65528 ∧ fs.readDir (confd p) ≠ .error .other) ∧ es = initConf name := by
    intro es
    rw [loadDirectory_eq_ok hconf]
    simp only [parse_initConf hvalid, loadFragments_eq_ok hno', hdir]
    constructor
    · rintro ⟨own, more, ⟨hshort, rfl⟩, ⟨rfl, hconfd⟩, rfl⟩
      exact ⟨⟨hshort, hconfd⟩, List.append_nil _⟩
    · rintro ⟨⟨hshort, hconfd⟩, rfl⟩
      exact ⟨_, [], ⟨hshort, rfl⟩, ⟨rfl, hconfd⟩, (List.append_nil _).symm⟩
  have hkeys : (initConf name).getFirst (str "Name") = some name
      ∧ (initConf name).getAll (str "Subnet") = []
      ∧ (initConf name).getAll (str "ConnectTo") = [] := by
    have hfold : equalFold (str "Name") (str "Name") = true
        ∧ equalFold (str "Name") (str "Subnet") = false
        ∧ equalFold (str "Name") (str "ConnectTo") = false := by decide
    simp [initConf, Entries.getFirst, Entries.getAll, hfold]
  obtain ⟨hfirst, hsubnets, hconnect⟩ := hkeys
  rw [fsck_clean_iff]
  constructor
  · rintro ⟨es, hclean⟩
    exact ((hload es).mp hclean.conf).1
  · intro hcond
    refine ⟨initConf name, stat_of_readFile hconf, (hload _).mpr ⟨hcond, rfl⟩, by simp [hsubnets],
      ?_, by simp [hconnect]⟩
    exact ⟨_, _, _, _, _, _, _, hfirst, hvalid, hed, FreshKeys.edPublicText hparses, hwg,
      wgPublicText_string _, hhost, FreshKeys.parse_myHost hlength,
      FreshKeys.getFirst_myHost hlength⟩

/-! ## What is left of an Init -/

/--
**A failed `Init` leaves the files that come before the one it could not create**, and
what was written of that one; a file that was left tells that the next one was there
before, or that the system has refused it or broken it off. An `Init` that succeeds has
created all four. A tree without fragments that it made passes `Fsck` exactly if the
name fits on a line and `conf.d` can be read.
-/
theorem init_outcome [PKCS8] [Curve25519] (fs : FileSystem) (p : Paths) (name : GoString)
    (keys : FreshKeys) (hlength : keys.edPriv.raw.length = 64)
    (hparses : parseEd25519PrivatePEM keys.edPEM = some keys.edPriv) (perm : GoString → UInt32) :
    (∀ e fs', init p name keys fs = .error e fs' →
      ∃ pre f post left, initFiles p name keys = pre ++ f :: post ∧ Adds fs fs' (pre ++ left)
        ∧ (∀ g ∈ pre ++ left, fs.nodes.get? (fs.locate g.1) = none)
        ∧ (pre ++ left = [] ∨ Fails fs f e left))
    ∧ ∀ fs', init p name keys fs = .ok () fs' →
      Adds fs fs' (initFiles p name keys)
        ∧ (∀ f ∈ initFiles p name keys, fs.nodes.get? (fs.locate f.1) = none
          ∧ fs'.readFile f.1 = .ok f.2)
        ∧ (NoFragment fs p → (NoError (fsck fs' perm p)
          ↔ name.length ≤ 65528 ∧ fs.readDir (confd p) ≠ .error .other)) := by
  rcases init_spec fs p name keys with ⟨e, fs₁, hinit, hadds⟩ | ⟨made, hvalid, hmade, hinit⟩
  · refine ⟨fun e' fs' h => ?_, fun fs' h => ?_⟩
    · cases hinit.symm.trans h
      exact ⟨[], _, _, [], rfl, hadds, by simp, .inl rfl⟩
    · cases hinit.symm.trans h
  have hname := plainName_of_validate hvalid
  have hready := @Made.ready _ fs made p name keys hmade hvalid
  rcases writeFilesExclusive_spec hready (pairwise_initFiles made hname) with
    ⟨fs₁, hok, hcreated⟩ | ⟨pre, f, post, left, e₁, fs₁, hsplit, hfails, herr, hcreated⟩
  · refine ⟨fun e fs' h => ?_, fun fs' h => ?_⟩
    · cases hok.symm.trans (hinit.symm.trans h)
    · cases hok.symm.trans (hinit.symm.trans h)
      refine ⟨hcreated.adds hmade, fun f hf => ⟨?_, hcreated.readFile hready f hf⟩,
        fun hno => hcreated.fsck_iff hmade hvalid hlength hparses hno perm⟩
      rw [← hmade.locate]
      exact hmade.get?_none (hcreated.free f hf)
  · refine ⟨fun e fs' h => ?_, fun fs' h => ?_⟩
    · cases herr.symm.trans (hinit.symm.trans h)
      obtain ⟨n, rest, hplace, -, hbeside⟩ :=
        locate_initFiles fs hname (hsplit ▸ List.mem_append_right pre List.mem_cons_self)
      refine ⟨pre, f, post, left, hsplit, hcreated.adds hmade, fun g hg => ?_,
        .inr (hmade.fails hplace hbeside hfails)⟩
      rw [← hmade.locate]
      exact hmade.get?_none (hcreated.free g hg)
    · cases herr.symm.trans (hinit.symm.trans h)

section Sample

attribute [local instance] clearPKCS8 clearCurve25519

/-- How an `Init` of node `a` ends, and the tree it leaves. -/
def sampleInit (fs : FileSystem) : Option InitError × FileSystem :=
  match init samplePaths (str "a") sampleKeys fs with
  | .ok _ fs' => (none, fs')
  | .error e fs' => (some e, fs')

theorem init_of_sampleInit_none {fs : FileSystem} (h : (sampleInit fs).1 = none) :
    init samplePaths (str "a") sampleKeys fs = .ok () (sampleInit fs).2 := by
  unfold sampleInit at h ⊢
  cases hinit : init samplePaths (str "a") sampleKeys fs with
  | ok u fs' => rfl
  | error e fs' =>
      rw [hinit] at h
      cases h

theorem init_of_sampleInit_some {fs : FileSystem} {e : InitError} (h : (sampleInit fs).1 = some e) :
    init samplePaths (str "a") sampleKeys fs = .error e (sampleInit fs).2 := by
  unfold sampleInit at h ⊢
  cases hinit : init samplePaths (str "a") sampleKeys fs with
  | ok u fs' =>
      rw [hinit] at h
      cases h
  | error e' fs' =>
      rw [hinit] at h
      cases h
      rfl

/-- In an empty place the tree is made, and it passes. -/
theorem init_outcome_empty : ∃ fs', init samplePaths (str "a") sampleKeys (.ofFiles []) = .ok () fs'
    ∧ (∀ f ∈ initFiles samplePaths (str "a") sampleKeys, fs'.readFile f.1 = .ok f.2)
    ∧ NoError (fsck fs' (fun _ => 0o600) samplePaths) := by
  have hinit := @init_of_sampleInit_none (.ofFiles []) (by decide +kernel)
  have hnone : FileSystem.readDir (.ofFiles []) (confd samplePaths) = .error .notExist := by
    decide +kernel
  have hno : NoFragment (.ofFiles []) samplePaths := by
    intro entries hentries
    rw [hnone] at hentries
    cases hentries
  obtain ⟨-, hcreated, hfsck⟩ := (init_outcome (.ofFiles []) samplePaths (str "a") sampleKeys
    (by decide) rfl fun _ => 0o600).2 _ hinit
  refine ⟨_, hinit, fun f hf => (hcreated f hf).2, (hfsck hno).mpr ⟨by decide, ?_⟩⟩
  rw [hnone]
  decide

/-- A tree that has the host file of the node already. -/
def importedTree : FileSystem := .ofFiles [(sampleLoc ["hosts", "a"], str "Address = h\n")]

/-- A tree in which `conf.d` is a file. -/
def confdFile : FileSystem := .ofFiles [(sampleLoc ["conf.d"], [])]

/--
`Init` fails on the host file with both keys and the configuration written. Where
`conf.d` is a file, it succeeds, there is no fragment, and `Fsck` reports an error.
-/
theorem failed_init_leaves_files :
    (∃ fs', init samplePaths (str "a") sampleKeys importedTree
        = .error (.create (samplePaths.hostFile (str "a"))) fs'
      ∧ ∀ f ∈ (initFiles samplePaths (str "a") sampleKeys).take 3,
        importedTree.nodes.get? (importedTree.locate f.1) = none
          ∧ fs'.nodes.get? (importedTree.locate f.1) = some (.file f.2))
    ∧ ∃ fs', init samplePaths (str "a") sampleKeys confdFile = .ok () fs'
      ∧ confdFile.readDir (confd samplePaths) = .error .other
      ∧ ¬ NoError (fsck fs' (fun _ => 0o600) samplePaths) := by
  refine ⟨⟨_, init_of_sampleInit_some (by decide +kernel), by decide +kernel⟩,
    ⟨_, init_of_sampleInit_none (by decide +kernel), by decide +kernel, by decide +kernel⟩⟩

end Sample

end Gsnet.Cli
