import Gsnet.Cli.Import
import Gsnet.ConfigProof

/-!
# Host files that are exported and imported

An export begins with a line that looks like an entry `Name = <name>` and goes on
with the host file. So the concatenation of exports is the rendering of a list of
entries, and the import goes through these: an entry with the key `Name` ends one
host file and begins the next, and the line of every other entry goes into the file
at hand as it is. Nothing is lost as long as no host file has such an entry itself.
-/

namespace Gsnet.Cli

open Go Config Daemon FileSystem Lib

/-! ## Exports -/

/-- A node that exports, and the entries of its host file. -/
structure Exporter where
  paths : Paths
  fs : FileSystem
  name : GoString
  entries : Entries

/-- The node is set up: it has a valid name, and a host file that was read and written back. -/
structure Exporter.Ready (x : Exporter) : Prop where
  valid : Nodename.validate x.name = .ok ()
  conf : ∃ es, loadDirectory x.fs x.paths.confFile = .ok es
    ∧ es.getFirst (str "Name") = some x.name
  host : x.fs.readFile (x.paths.hostFile x.name) = .ok x.entries.render
  parsed : ∃ text, Config.parse text = .ok x.entries
  /-- No entry would be taken for the beginning of another file. -/
  unnamed : ∀ e ∈ x.entries, equalFold e.key (str "Name") = false

theorem render_cons (e : Entry) (es : Entries) :
    Entries.render (e :: es) = e.line ++ 0x0A :: Entries.render es := by
  rw [Entries.render, List.flatMap_cons, List.append_assoc]
  rfl

namespace Exporter

/-- What an export looks like to whoever reads it. -/
def block (x : Exporter) : Entries := ⟨str "Name", x.name⟩ :: x.entries

/-- Where the import puts the host file. -/
def place (x : Exporter) (p : Paths) (fs : FileSystem) : Location := fs.locate (p.hostFile x.name)

variable {x : Exporter}

theorem Ready.cmdExport (h : x.Ready) : cmdExport x.paths x.fs = .ok x.block.render := by
  obtain ⟨es, hes, hname⟩ := h.conf
  unfold Cli.cmdExport
  simp only [hes, wrap, ok_bind, hname, h.host]
  rw [block, render_cons]
  rfl

theorem Ready.clean (h : x.Ready) : ∀ e ∈ x.block, e.Clean := by
  intro e he
  rcases List.mem_cons.mp he with rfl | he
  · exact clean_of_validate h.valid (by decide +kernel)
  · obtain ⟨text, htext⟩ := h.parsed
    exact (parse_clean htext e he).1

theorem Ready.place_eq (h : x.Ready) (p : Paths) (fs : FileSystem) :
    x.place p fs = fs.locate p.hostsDir ++ [x.name] := by
  rw [place, locate_hostFile, walk_plainName (plainName_of_validate h.valid)]

end Exporter

/-! ## Lines -/

theorem readLines_cons {l : GoString} (h : 0x0A ∉ l) (t : GoString) :
    readLines (l ++ 0x0A :: t) = (l ++ [0x0A]) :: readLines t := by
  induction l with
  | nil => rfl
  | cons c l ih =>
      obtain ⟨hc, hl⟩ := not_or.mp (mt List.mem_cons.mpr h)
      rw [List.cons_append, readLines, if_neg (Ne.symm hc), ih hl]
      rfl

/-- What was rendered is read line by line. -/
theorem readLines_render {es : Entries} (h : ∀ e ∈ es, e.Clean) :
    readLines (Entries.render es) = es.map fun e => e.line ++ [0x0A] := by
  induction es with
  | nil => rfl
  | cons e es ih =>
      rw [render_cons, readLines_cons (h e List.mem_cons_self).line_line,
        ih fun e' he => h e' (List.mem_cons_of_mem e he), List.map_cons]

/-- A line of the import is the entry it was rendered from. -/
theorem importedName_line {e : Entry} (h : e.Clean) :
    importedName (e.line ++ [0x0A])
      = if equalFold e.key (str "Name") then some e.value else none := by
  have hne : e.line ≠ [] := by simp [Entry.line, h.key_ne_nil]
  have htrim : trimSpace (e.line ++ [0x0A]) = e.line :=
    trimSpace_append_space h.line_trimmed hne (by decide) (by decide)
  obtain ⟨k, v, hcut, hk, hv⟩ := h.cut_line
  unfold importedName
  simp only [htrim, h.not_isBlank, hcut, hk, hv, Bool.false_eq_true, if_false]

/-! ## What an import touches -/

/-- Only files of the listed names are being written, and no other file is touched. -/
structure Import.Tidy (p : Paths) (fs : FileSystem) (names : List GoString) (st : Import) :
    Prop where
  cwd : st.fs.cwd = fs.cwd
  name : st.name = [] ∨ st.name ∈ names
  others : ∀ l c, (∀ n ∈ names, l ≠ fs.locate (p.hostFile n)) →
    (st.fs.nodes.get? l = some (.file c) ↔ fs.nodes.get? l = some (.file c))

section Tidy

variable {p : Paths} {fs : FileSystem} {names : List GoString} {st : Import}

theorem Import.Tidy.finish (h : st.Tidy p fs names) : Ends (Tidy p fs names) (st.finish p) := by
  unfold Import.finish
  split
  · exact h
  · rename_i hne
    have hmem : st.name ∈ names := h.name.resolve_left hne
    have honly := @onlyHost_writeHost st.fs p st.name st.lines.flatten
    have hkeep : ∀ {fs'}, OnlyHost st.fs p st.name fs' →
        ∀ l c, (∀ n ∈ names, l ≠ fs.locate (p.hostFile n)) →
          (fs'.nodes.get? l = some (.file c) ↔ fs.nodes.get? l = some (.file c)) := by
      intro fs' honly l c hl
      have hplace := hl st.name hmem
      rw [← locate_congr h.cwd, locate_hostFile] at hplace
      exact (honly.files l c fun _ => hplace).trans (h.others l c hl)
    unfold Cli.writeHost
    cases hw : Daemon.writeHost st.fs p st.name st.lines.flatten with
    | error fs' =>
        rw [hw] at honly
        exact ⟨honly.cwd.trans h.cwd, h.name, hkeep honly⟩
    | ok fs' =>
        rw [hw] at honly
        exact ⟨honly.cwd.trans h.cwd, h.name, hkeep honly⟩

theorem Import.Tidy.step (h : st.Tidy p fs names) {line : GoString}
    (hline : ∀ n, importedName line = some n → n ∈ names) :
    Ends (Tidy p fs names) (st.step p line) := by
  unfold Import.step
  split
  · exact ⟨h.cwd, h.name, h.others⟩
  · rename_i n hn
    exact h.finish.bind fun st' h' => ⟨h'.cwd, .inr (hline n hn), h'.others⟩

/-- **An import writes to the hosts files of the names that its input gives, and to no others.** -/
theorem tidy_cmdImport (p : Paths) (fs : FileSystem) {input : GoString}
    (hinput : ∀ line ∈ readLines input, ∀ n, importedName line = some n → n ∈ names) :
    (imported (cmdImport p fs input)).Tidy p fs names := by
  have hstart : Import.Tidy p fs names { fs := fs } := ⟨rfl, .inl rfl, fun _ _ _ => .rfl⟩
  have hlines : ∀ (ls : List GoString) (st : Import),
      (∀ line ∈ ls, ∀ n, importedName line = some n → n ∈ names) → st.Tidy p fs names →
      Ends (Import.Tidy p fs names) (ls.foldlM (Import.step p) st) := by
    intro ls
    induction ls with
    | nil => exact fun st _ h => h
    | cons line ls ih =>
        intro st hls h
        rw [List.foldlM_cons]
        exact (h.step (hls line List.mem_cons_self)).bind fun st' h' =>
          ih st' (fun l hl => hls l (List.mem_cons_of_mem line hl)) h'
  have hrun : Ends (Import.Tidy p fs names) (cmdImport p fs input) :=
    (hlines _ _ hinput hstart).bind fun st h => h.finish
  cases hr : cmdImport p fs input with
  | ok st => rw [hr] at hrun; exact hrun
  | error st => rw [hr] at hrun; exact hrun

end Tidy

/-! ## What an import writes -/

/-- The tree after the host files of these nodes were written to it. -/
structure Wrote (p : Paths) (fs : FileSystem) (done : List Exporter) (fs' : FileSystem) :
    Prop where
  cwd : fs'.cwd = fs.cwd
  faults : fs'.faults = fs.faults
  file : ∀ x ∈ done, fs'.nodes.get? (x.place p fs) = some (.file x.entries.render)
  others : ∀ l c, (∀ x ∈ done, l ≠ x.place p fs) →
    (fs'.nodes.get? l = some (.file c) ↔ fs.nodes.get? l = some (.file c))
  dirs : ∀ l, fs'.isDir l = true → fs.isDir l = true ∨ l ∈ steps (fs.locate p.hostsDir)

/-- The import has read the host file of a node, and has written those of the nodes before. -/
structure Import.Holds (p : Paths) (fs : FileSystem) (done : List Exporter) (x : Exporter)
    (st : Import) : Prop where
  name : st.name = x.name
  lines : st.lines.flatten = x.entries.render
  wrote : Wrote p fs done st.fs

section Run

variable {p : Paths} {fs : FileSystem} {done : List Exporter} {x : Exporter} {st : Import}

theorem place_inj {y : Exporter} (hx : x.Ready) (hy : y.Ready)
    (h : x.place p fs = y.place p fs) : x.name = y.name := by
  rw [hx.place_eq, hy.place_eq] at h
  exact List.singleton_inj.mp (List.append_cancel_left h)

/-- A host file is not on the way to the directory it is in. -/
theorem place_notMem_steps (hx : x.Ready) : x.place p fs ∉ steps (fs.locate p.hostsDir) := by
  intro hmem
  have hlen := (mem_steps.mp hmem).1.length_le
  rw [hx.place_eq, List.length_append, List.length_singleton] at hlen
  omega

/-- What can be written at first can still be written later. -/
theorem Wrote.completes {fs' : FileSystem} (h : Wrote p fs done fs')
    (hdone : ∀ y ∈ done, y.Ready) (hx : x.Ready) (hw : Completes fs p x.name) :
    Completes fs' p x.name := by
  have hhosts : fs'.locate p.hostsDir = fs.locate p.hostsDir := locate_congr h.cwd _
  have hplace : walk (fs.locate p.hostsDir) x.name = fs.locate p.hostsDir ++ [x.name] :=
    walk_plainName (plainName_of_validate hx.valid) _
  refine ⟨⟨hw.dir_text, hw.text, ?_, ?_, ?_, by rw [h.faults, hhosts]; exact hw.allowed⟩,
    by rw [FileSystem.brokenOff, h.faults, hhosts]; exact hw.whole⟩
  · intro l hl c hc
    rw [hhosts] at hl
    have hother : ∀ y ∈ done, l ≠ y.place p fs := by
      rintro y hy rfl
      exact place_notMem_steps (hdone y hy) hl
    exact hw.clear l hl c ((h.others l c hother).mp hc)
  · rw [hhosts]
    refine ⟨?_, hw.not_dir.2⟩
    rw [← Bool.not_eq_true]
    intro hdir
    rcases h.dirs _ hdir with hdir | hmem
    · rw [hw.not_dir.1] at hdir
      cases hdir
    · exact hw.not_dir.2 hmem
  · rw [hhosts, hplace, List.dropLast_concat]
    refine .inr (mem_steps.mpr ⟨List.prefix_rfl, ?_⟩)
    rw [(locate_dirs fs p).1]
    exact List.append_ne_nil_of_right_ne_nil _ (List.cons_ne_nil _ _)

/-- **The end of a host file writes it.** -/
theorem Import.Holds.finish {rest : List Exporter} (h : st.Holds p fs done x)
    (hready : ∀ y ∈ done ++ x :: rest, y.Ready)
    (hdistinct : ((done ++ x :: rest).map Exporter.name).Nodup) (hw : Completes fs p x.name) :
    ∃ st', st.finish p = .ok st' ∧ st'.lines = [] ∧ Wrote p fs (done ++ [x]) st'.fs := by
  have hdone : ∀ y ∈ done, y.Ready := fun y hy => hready y (List.mem_append_left _ hy)
  have hx : x.Ready := hready x (List.mem_append_right _ List.mem_cons_self)
  have hnew : ∀ y ∈ done, x.name ≠ y.name := by
    intro y hy heq
    rw [List.map_append, List.nodup_append] at hdistinct
    exact hdistinct.2.2 _ (List.mem_map_of_mem hy) _ (List.mem_map_of_mem List.mem_cons_self)
      heq.symm
  obtain ⟨fs', hok⟩ := (h.wrote.completes hdone hx hw).writeHost x.entries.render
  have hget := (writeHost_ok hok).2
  have hplace : walk (st.fs.locate p.hostsDir) x.name = x.place p fs := by
    rw [locate_congr h.wrote.cwd, Exporter.place, locate_hostFile]
  have hne : st.name ≠ [] := h.name ▸ Nodename.ne_nil_of_validate hx.valid
  have honly := @onlyHost_writeHost st.fs p x.name x.entries.render
  rw [hok] at honly
  obtain ⟨hcwd, hfaults, hothers, hdirs⟩ := honly
  rw [hplace] at hget hothers
  have hfinish : st.finish p
      = .ok { st with fs := fs', lines := [], written := st.written ++ st.opened p } := by
    unfold Import.finish Cli.writeHost
    rw [if_neg hne, h.name, h.lines, hok]
  refine ⟨_, hfinish, rfl, hcwd.trans h.wrote.cwd, hfaults.trans h.wrote.faults, ?_, ?_, ?_⟩
  · intro y hy
    rcases List.mem_append.mp hy with hy | hy
    · have hother : y.place p fs ≠ x.place p fs :=
        fun heq => hnew y hy (place_inj hx (hdone y hy) heq.symm)
      exact (hothers _ _ fun _ => hother).mpr (h.wrote.file y hy)
    · rw [List.mem_singleton.mp hy]
      exact hget
  · intro l c hl
    have hlx : l ≠ x.place p fs := hl x (List.mem_append_right _ (List.mem_singleton_self x))
    exact (hothers l c fun _ => hlx).trans
      (h.wrote.others l c fun y hy => hl y (List.mem_append_left _ hy))
  · intro l hl
    rcases hdirs l hl with hl | hl
    · exact h.wrote.dirs l hl
    · rw [locate_congr h.wrote.cwd] at hl
      exact .inr hl

/-- The lines of a host file are collected. -/
theorem foldlM_entries {es : Entries} (hclean : ∀ e ∈ es, e.Clean)
    (hunnamed : ∀ e ∈ es, equalFold e.key (str "Name") = false) (st : Import) :
    (es.map fun e => e.line ++ [0x0A]).foldlM (Import.step p) st
      = .ok { st with lines := st.lines ++ es.map fun e => e.line ++ [0x0A] } := by
  induction es generalizing st with
  | nil => rw [List.map_nil, List.append_nil]; rfl
  | cons e es ih =>
      have hstep : st.step p (e.line ++ [0x0A])
          = .ok { st with lines := st.lines ++ [e.line ++ [0x0A]] } := by
        unfold Import.step
        rw [importedName_line (hclean e List.mem_cons_self), hunnamed e List.mem_cons_self]
        rfl
      rw [List.map_cons, List.foldlM_cons, hstep, ok_bind,
        ih (fun e' he => hclean e' (List.mem_cons_of_mem e he))
          fun e' he => hunnamed e' (List.mem_cons_of_mem e he)]
      simp only [List.append_assoc, List.singleton_append]

theorem flatten_lines (es : Entries) :
    (es.map fun e => e.line ++ [0x0A]).flatten = Entries.render es := by
  rw [Entries.render, List.flatMap_def]

/-- **One export is taken in**, once the host file before it is written. -/
theorem foldlM_block {st' : Import} (hx : x.Ready) (hfinish : st.finish p = .ok st')
    (hlines : st'.lines = []) (hwrote : Wrote p fs done st'.fs) :
    ∃ st'', (x.block.map fun e => e.line ++ [0x0A]).foldlM (Import.step p) st = .ok st''
      ∧ st''.Holds p fs done x := by
  have hname : st.step p (Entry.line ⟨str "Name", x.name⟩ ++ [0x0A])
      = .ok { st' with name := x.name } := by
    have hfold : equalFold (str "Name") (str "Name") = true := by decide +kernel
    unfold Import.step
    rw [importedName_line (hx.clean _ List.mem_cons_self), hfold, if_pos rfl, hfinish]
    rfl
  rw [Exporter.block, List.map_cons, List.foldlM_cons, hname, ok_bind,
    foldlM_entries (fun e he => hx.clean e (List.mem_cons_of_mem _ he)) hx.unnamed]
  refine ⟨_, rfl, rfl, ?_, hwrote⟩
  show (st'.lines ++ _).flatten = _
  rw [hlines, List.nil_append, flatten_lines]

/-- **The exports that remain** are taken in one after the other, and all are written. -/
theorem import_blocks {rest : List Exporter} (h : st.Holds p fs done x)
    (hready : ∀ y ∈ done ++ x :: rest, y.Ready)
    (hdistinct : ((done ++ x :: rest).map Exporter.name).Nodup)
    (hw : ∀ y ∈ done ++ x :: rest, Completes fs p y.name) :
    ∃ st', ((rest.flatMap Exporter.block).map fun e => e.line ++ [0x0A]).foldlM (Import.step p) st
        >>= Import.finish p = .ok st' ∧ Wrote p fs (done ++ x :: rest) st'.fs := by
  induction rest generalizing done x st with
  | nil =>
      obtain ⟨st₁, hfinish, -, hwrote⟩ :=
        h.finish hready hdistinct (hw x (List.mem_append_right _ List.mem_cons_self))
      exact ⟨st₁, hfinish, hwrote⟩
  | cons y rest ih =>
      obtain ⟨st₁, hfinish, hlines, hwrote⟩ :=
        h.finish hready hdistinct (hw x (List.mem_append_right _ List.mem_cons_self))
      -- what is at hand is written when the next name comes
      have hlist : done ++ x :: y :: rest = (done ++ [x]) ++ y :: rest := by
        rw [List.append_assoc, List.singleton_append]
      rw [hlist] at hready hdistinct hw ⊢
      have hy : y.Ready := hready y (List.mem_append_right _ List.mem_cons_self)
      obtain ⟨st₂, hblock, hholds⟩ := foldlM_block hy hfinish hlines hwrote
      rw [List.flatMap_cons, List.map_append, List.foldlM_append, hblock, ok_bind]
      exact ih hholds hready hdistinct hw

end Run

/-- All that is exported, as one list of entries. -/
theorem mapM_cmdExport {xs : List Exporter} (hready : ∀ x ∈ xs, x.Ready) :
    xs.mapM (fun x => cmdExport x.paths x.fs) = .ok (xs.map fun x => x.block.render) := by
  rw [mapM_eq_ok, List.forall₂_map_right_iff, List.forall₂_same]
  exact fun x hx => (hready x hx).cmdExport

theorem flatten_exports (xs : List Exporter) :
    (xs.map fun x => x.block.render).flatten = Entries.render (xs.flatMap Exporter.block) := by
  rw [← List.flatMap_def, Entries.render, List.flatMap_assoc]
  rfl

theorem clean_of_exports {xs : List Exporter} (hready : ∀ x ∈ xs, x.Ready) :
    ∀ e ∈ xs.flatMap Exporter.block, e.Clean := by
  intro e he
  obtain ⟨x, hx, he⟩ := List.mem_flatMap.mp he
  exact (hready x hx).clean e he

/-- The names that an import finds are those of the nodes. -/
theorem names_of_exports {xs : List Exporter} (hready : ∀ x ∈ xs, x.Ready) :
    ∀ line ∈ readLines (Entries.render (xs.flatMap Exporter.block)),
      ∀ n, importedName line = some n → n ∈ xs.map Exporter.name := by
  intro line hline n hn
  rw [readLines_render (clean_of_exports hready)] at hline
  obtain ⟨e, he, rfl⟩ := List.mem_map.mp hline
  obtain ⟨x, hx, hblock⟩ := List.mem_flatMap.mp he
  rw [importedName_line (clean_of_exports hready e he)] at hn
  split at hn
  · rename_i hfold
    rcases List.mem_cons.mp hblock with rfl | hentry
    · rw [← Option.some.inj hn]
      exact List.mem_map_of_mem hx
    · rw [(hready x hx).unnamed e hentry] at hfold
      cases hfold
  · cases hn

theorem wrote_nil (p : Paths) (fs : FileSystem) : Wrote p fs [] fs where
  cwd := rfl
  faults := rfl
  file := fun _ hx => absurd hx List.not_mem_nil
  others := fun _ _ _ => .rfl
  dirs := fun _ h => .inl h

/-- **The exports of several nodes, in one input, are all written.** -/
theorem wrote_cmdImport {p : Paths} {fs : FileSystem} {xs : List Exporter}
    (hready : ∀ x ∈ xs, x.Ready) (hdistinct : (xs.map Exporter.name).Nodup)
    (hw : ∀ x ∈ xs, Completes fs p x.name) :
    ∃ st, cmdImport p fs (Entries.render (xs.flatMap Exporter.block)) = .ok st
      ∧ Wrote p fs xs st.fs := by
  have hstart : Import.finish p { fs := fs } = .ok { fs := fs } := rfl
  unfold cmdImport
  rw [readLines_render (clean_of_exports hready)]
  cases xs with
  | nil => exact ⟨{ fs := fs }, rfl, wrote_nil p fs⟩
  | cons x rest =>
      obtain ⟨st, hblock, hholds⟩ :=
        foldlM_block (hready x List.mem_cons_self) hstart rfl (wrote_nil p fs)
      rw [List.flatMap_cons, List.map_append, List.foldlM_append, hblock, ok_bind]
      exact @import_blocks p fs [] x st rest hholds hready hdistinct hw

/--
**What is exported is imported.** Whatever tree the exports of some nodes with
different names are imported into, no file is touched but the host files of these
names; and if these can be written to their end, each of them is what the node has
exported.
-/
theorem import_of_exports (p : Paths) (fs : FileSystem) {xs : List Exporter}
    (hready : ∀ x ∈ xs, x.Ready) (hdistinct : (xs.map Exporter.name).Nodup) :
    ∃ outs, xs.mapM (fun x => cmdExport x.paths x.fs) = .ok outs
      ∧ (∀ l c, (∀ x ∈ xs, l ≠ fs.locate (p.hostFile x.name)) →
        ((imported (cmdImport p fs outs.flatten)).fs.nodes.get? l = some (.file c)
          ↔ fs.nodes.get? l = some (.file c)))
      ∧ ((∀ x ∈ xs, Completes fs p x.name) →
        ∃ st, cmdImport p fs outs.flatten = .ok st
          ∧ ∀ x ∈ xs, st.fs.readFile (p.hostFile x.name)
            = x.fs.readFile (x.paths.hostFile x.name)) := by
  refine ⟨_, mapM_cmdExport hready, ?_, ?_⟩
  · intro l c hl
    rw [flatten_exports]
    refine (tidy_cmdImport p fs (names_of_exports hready)).others l c fun n hn => ?_
    obtain ⟨x, hx, rfl⟩ := List.mem_map.mp hn
    exact hl x hx
  · intro hw
    obtain ⟨st, hst, hwrote⟩ := wrote_cmdImport hready hdistinct hw
    rw [flatten_exports]
    refine ⟨st, hst, fun x hx => ?_⟩
    have hnot := (hw x hx).not_dir.1
    rw [(hready x hx).host]
    refine readFile_eq_ok.mpr ⟨(hw x hx).text, ?_, ?_⟩
    · rw [locate_congr hwrote.cwd]
      intro hroot
      rw [← locate_hostFile, hroot] at hnot
      cases hnot
    · rw [locate_congr hwrote.cwd]
      exact hwrote.file x hx

/-- A node of this name, whose host file gives a port. -/
def sampleExporter (name : String) : Exporter where
  paths := samplePaths
  fs := .ofFiles [(sampleLoc ["gsnet.conf"], str "name = " ++ str name),
    (sampleLoc ["hosts", name], str "Port = 655\n")]
  name := str name
  entries := [⟨str "Port", str "655"⟩]

theorem sampleExporter_ready :
    (sampleExporter "a").Ready ∧ (sampleExporter "b").Ready := by
  refine ⟨⟨by decide +kernel, ⟨[⟨str "Name", str "a"⟩], by decide +kernel, by decide +kernel⟩,
      by decide +kernel, ⟨str "Port 655", by decide +kernel⟩, by decide +kernel⟩,
    ⟨by decide +kernel, ⟨[⟨str "Name", str "b"⟩], by decide +kernel, by decide +kernel⟩,
      by decide +kernel, ⟨str "Port 655", by decide +kernel⟩, by decide +kernel⟩⟩

/-- Two nodes, and a tree in which nothing is there yet. -/
theorem import_of_exports_two :
    ∃ outs, [sampleExporter "a", sampleExporter "b"].mapM (fun x => cmdExport x.paths x.fs)
        = .ok outs
      ∧ ∃ st, cmdImport samplePaths (.ofFiles []) outs.flatten = .ok st
        ∧ st.fs.readFile (samplePaths.hostFile (str "a")) = .ok (str "Port = 655\n")
        ∧ st.fs.readFile (samplePaths.hostFile (str "b")) = .ok (str "Port = 655\n") := by
  obtain ⟨ha, hb⟩ := sampleExporter_ready
  have hready : ∀ x ∈ [sampleExporter "a", sampleExporter "b"], x.Ready := by
    simpa using ⟨ha, hb⟩
  have hempty : ∀ l c, (FileSystem.ofFiles []).nodes.get? l ≠ some (.file c) := by
    intro l c h
    cases h
  have hw : ∀ x ∈ [sampleExporter "a", sampleExporter "b"],
      Completes (.ofFiles []) samplePaths x.name := by
    have hwa : Completes (.ofFiles []) samplePaths (str "a") :=
      ⟨⟨by decide +kernel, by decide +kernel, fun l _ => hempty l, by decide +kernel,
        by decide +kernel, by decide +kernel⟩, by decide +kernel⟩
    have hwb : Completes (.ofFiles []) samplePaths (str "b") :=
      ⟨⟨by decide +kernel, by decide +kernel, fun l _ => hempty l, by decide +kernel,
        by decide +kernel, by decide +kernel⟩, by decide +kernel⟩
    simpa using ⟨hwa, hwb⟩
  obtain ⟨outs, houts, -, himport⟩ :=
    import_of_exports samplePaths (.ofFiles []) hready (by decide +kernel)
  obtain ⟨st, hst, hfiles⟩ := himport hw
  refine ⟨outs, houts, st, hst, ?_, ?_⟩
  · exact (hfiles (sampleExporter "a") (by simp)).trans (by decide +kernel)
  · exact (hfiles (sampleExporter "b") (by simp)).trans (by decide +kernel)

end Gsnet.Cli
