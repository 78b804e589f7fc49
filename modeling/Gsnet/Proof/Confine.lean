import Gsnet.Daemon.Invite
import Gsnet.Nodename

/-!
# Where invitation requests reach

The cookie and the name of the invitee come from an unauthenticated client and
are joined to a directory as they are. `filepath.Join` cleans the result, which
makes `..` effective rather than harmless: a joined path leads where the second
part leads from the directory. A request is confined exactly when both parts
lead to direct children, as far as the request gets with them.
-/

namespace Gsnet.Daemon

open Go Config FileSystem

/-- A direct child of a directory. -/
def Child (dir loc : Location) : Prop := ∃ n, loc = dir ++ [n]

theorem Child.dropLast {dir loc : Location} (h : Child dir loc) : loc.dropLast = dir := by
  obtain ⟨n, rfl⟩ := h
  exact List.dropLast_concat

section Spec

variable (fs : FileSystem) (paths : Paths)

/-- The call kept to the two directories. -/
structure Confined (o : Served) : Prop where
  reads : ∀ loc, .read loc ∈ o.touched → Child (fs.locate paths.invitationsDir) loc
  removes : ∀ loc, .remove loc ∈ o.touched → Child (fs.locate paths.invitationsDir) loc
  writes : ∀ loc, .write loc ∈ o.touched → Child (fs.locate paths.hostsDir) loc
  /-- No other file is overwritten or deleted. -/
  others : ∀ loc content, fs.nodes.get? loc = some (.file content) →
    ¬ Child (fs.locate paths.invitationsDir) loc → ¬ Child (fs.locate paths.hostsDir) loc →
    o.fs.nodes.get? loc = some (.file content)

/-- From the directory the name leads to a direct child of it. -/
def Leads (dir name : GoString) : Prop := Child (fs.locate dir) (walk (fs.locate dir) name)

/-- If the cookie leads to a file at all, it leads to an invitation. -/
def CookieLeads (cookie : GoString) : Prop :=
  ∀ content, fs.readFile (invitationPath paths cookie) = .ok content →
    Leads fs paths.invitationsDir cookie

/-- The file the cookie leads to invites that node. -/
def Invites (cookie name : GoString) : Prop :=
  ∃ content f, fs.readFile (invitationPath paths cookie) = .ok content
    ∧ Invite.parseFile content = .ok f ∧ f.invitee.name = name

/-- Where the name leads from the hosts directory, a file can be opened to be written. -/
structure Writable (name : GoString) : Prop where
  dir_text : 0 ∉ paths.hostsDir
  text : 0 ∉ paths.hostFile name
  /-- No file is in the way of the hosts directory. -/
  clear : ∀ l ∈ steps (fs.locate paths.hostsDir), ∀ c, fs.nodes.get? l ≠ some (.file c)
  /-- It is no directory, nor going to be one. -/
  not_dir : fs.isDir (walk (fs.locate paths.hostsDir) name) = false
    ∧ walk (fs.locate paths.hostsDir) name ∉ steps (fs.locate paths.hostsDir)
  /-- What it is in is a directory, or going to be one. -/
  parent : fs.isDir (walk (fs.locate paths.hostsDir) name).dropLast = true
    ∨ (walk (fs.locate paths.hostsDir) name).dropLast ∈ steps (fs.locate paths.hostsDir)
  allowed : fs.faults.get? (walk (fs.locate paths.hostsDir) name) ≠ some .refused

/-- The file there can be written to its end. -/
structure Completes (name : GoString) : Prop extends Writable fs paths name where
  whole : fs.brokenOff (walk (fs.locate paths.hostsDir) name) = none

/-- The cookie of a request, and the name as far as the request gets, lead to direct children. -/
def Stays : Request → Prop
  | .get cookie => CookieLeads fs paths cookie
  | .join cookie name _ => CookieLeads fs paths cookie
      ∧ (Invites fs paths cookie name → Writable fs paths name → Leads fs paths.hostsDir name)

end Spec

variable {fs : FileSystem} {paths : Paths}

/-! ## Paths -/

theorem join_ne_nil (dir : GoString) {name : GoString} (h : name ≠ []) : join [dir, name] ≠ [] := by
  by_cases hd : dir = []
  · subst hd
    rw [join_nil h]
    exact clean_ne_nil name
  · exact join_pair_ne_nil hd name

theorem locate_invitationPath (cookie : GoString) :
    fs.locate (invitationPath paths cookie) = walk (fs.locate paths.invitationsDir) cookie :=
  fs.locate_join (join_ne_nil _ (by decide)) cookie

theorem locate_hostFile (name : GoString) :
    fs.locate (paths.hostFile name) = walk (fs.locate paths.hostsDir) name :=
  fs.locate_join (join_ne_nil _ (by decide)) name

theorem plainName_of_validate {name : GoString} (h : Nodename.validate name = .ok ()) :
    PlainName name := by
  have hrune := Nodename.validate_ok h
  refine ⟨⟨Nodename.ne_nil_of_validate h, ?_⟩, ?_, Nodename.slash_notMem h⟩
  · rintro rfl
    exact absurd (hrune 0x2E (by decide)) (by decide)
  · rintro rfl
    exact absurd (hrune 0x2E (by decide)) (by decide)

theorem locate_congr {fs' : FileSystem} (h : fs'.cwd = fs.cwd) (path : GoString) :
    fs'.locate path = fs.locate path := by
  unfold locate
  rw [h]

/-- The two directories stand side by side. -/
theorem locate_dirs (fs : FileSystem) (paths : Paths) :
    fs.locate paths.hostsDir = fs.locate paths.netDir ++ [str "hosts"]
      ∧ fs.locate paths.invitationsDir = fs.locate paths.netDir ++ [str "invitations"] :=
  ⟨fs.locate_join_plain _ (by decide), fs.locate_join_plain _ (by decide)⟩

/-! ## The parts of a request -/

theorem mem_touchedByRead {path : GoString} {a : Access} :
    a ∈ touchedByRead fs path
      ↔ (∃ content, fs.readFile path = .ok content) ∧ a = .read (fs.locate path) := by
  unfold touchedByRead
  cases fs.readFile path with
  | error e => simp
  | ok content => simp

theorem mem_touchedByRemove {path : GoString} {a : Access} (h : a ∈ touchedByRemove fs path) :
    a = .remove (fs.locate path) := by
  unfold touchedByRemove at h
  split at h
  · exact List.mem_singleton.mp h
  · cases h

/-- After `MkdirAll` the directories on the way are there. -/
theorem isDir_mkdirAll {fs' : FileSystem} {path : GoString} (h : fs.mkdirAll path = some fs')
    (hclear : ∀ l ∈ steps (fs.locate path), ∀ c, fs.nodes.get? l ≠ some (.file c)) (l : Location) :
    fs'.isDir l = true ↔ fs.isDir l = true ∨ l ∈ steps (fs.locate path) := by
  have hget := (mkdirAll_get? h).2 l
  unfold isDir
  rw [hget]
  by_cases hl : l ∈ steps (fs.locate path)
  · cases hn : fs.nodes.get? l with
    | none => simp [hl]
    | some n =>
        cases n with
        | dir => simp
        | file c => exact absurd hn (hclear l hl c)
  · simp [hl]

theorem brokenOff_mkdirAll {made : FileSystem} {path : GoString}
    (h : fs.mkdirAll path = some made) (loc : Location) :
    made.brokenOff loc = fs.brokenOff loc := by
  rw [brokenOff, brokenOff, mkdirAll_faults h]

/-- Where the hosts directory cannot be made, no host file can be opened. -/
theorem not_writable_of_mkdirAll {name : GoString} (hmk : fs.mkdirAll paths.hostsDir = none) :
    ¬ Writable fs paths name := by
  intro hw
  obtain ⟨made, hmade⟩ := mkdirAll_eq_some.mpr ⟨hw.dir_text, hw.clear⟩
  cases hmk.symm.trans hmade

/-- Once the hosts directory is made, the host file can be opened exactly if it is writable. -/
theorem opens_hostFile_iff {made : FileSystem} {name : GoString}
    (hmk : fs.mkdirAll paths.hostsDir = some made) :
    made.Opens (paths.hostFile name) ↔ Writable fs paths name := by
  obtain ⟨htext, hclear⟩ := mkdirAll_eq_some.mp ⟨made, hmk⟩
  have hdir := isDir_mkdirAll hmk hclear
  have hloc : made.locate (paths.hostFile name) = walk (fs.locate paths.hostsDir) name := by
    rw [locate_congr (mkdirAll_get? hmk).1, locate_hostFile]
  unfold Opens
  rw [hloc, mkdirAll_faults hmk, ← Bool.not_eq_true, hdir, hdir, not_or, Bool.not_eq_true]
  constructor
  · rintro ⟨h0, hnot, hparent, hallowed⟩
    exact ⟨htext, h0, hclear, hnot, hparent, hallowed⟩
  · intro h
    exact ⟨h.text, h.not_dir, h.parent, h.allowed⟩

/-- **What `writeHost` does, and when.** -/
theorem writeHost_spec (fs : FileSystem) (paths : Paths) (name hostConfig : GoString) :
    fs.mkdirAll paths.hostsDir = none ∧ ¬ Writable fs paths name
        ∧ writeHost fs paths name hostConfig = .error fs
      ∨ ∃ made, fs.mkdirAll paths.hostsDir = some made
        ∧ (¬ Writable fs paths name ∧ writeHost fs paths name hostConfig = .error made
          ∨ Writable fs paths name
            ∧ fs.brokenOff (walk (fs.locate paths.hostsDir) name) = none
            ∧ writeHost fs paths name hostConfig
              = .ok (made.put (walk (fs.locate paths.hostsDir) name) hostConfig)
          ∨ Writable fs paths name
            ∧ ∃ written, fs.brokenOff (walk (fs.locate paths.hostsDir) name) = some written
              ∧ writeHost fs paths name hostConfig = .error (made.put
                (walk (fs.locate paths.hostsDir) name) (hostConfig.take written))) := by
  unfold writeHost
  cases hmk : fs.mkdirAll paths.hostsDir with
  | none => exact .inl ⟨rfl, not_writable_of_mkdirAll hmk, rfl⟩
  | some made =>
      refine .inr ⟨made, rfl, ?_⟩
      have hloc : made.locate (paths.hostFile name) = walk (fs.locate paths.hostsDir) name := by
        rw [locate_congr (mkdirAll_get? hmk).1, locate_hostFile]
      simp only
      rw [← opens_hostFile_iff hmk, ← brokenOff_mkdirAll hmk, ← hloc]
      cases hwr : made.writeFile (paths.hostFile name) hostConfig with
      | ok fs' =>
          obtain ⟨hopens, hwhole, rfl⟩ := writeFile_eq_ok.mp hwr
          exact .inr (.inl ⟨hopens, hwhole, rfl⟩)
      | error fs' =>
          rcases writeFile_eq_error hwr with ⟨hclosed, rfl⟩ | ⟨hopens, written, hbroken, rfl⟩
          · exact .inl ⟨hclosed, rfl⟩
          · exact .inr (.inr ⟨hopens, written, hbroken, rfl⟩)

/-- What can be opened is recorded as touched. -/
theorem touchedByWriteHost_eq {name : GoString} :
    (Writable fs paths name → touchedByWriteHost fs paths name
        = [.write (walk (fs.locate paths.hostsDir) name)])
      ∧ (¬ Writable fs paths name → touchedByWriteHost fs paths name = []) := by
  unfold touchedByWriteHost
  cases hmk : fs.mkdirAll paths.hostsDir with
  | none => exact ⟨fun hw => absurd hw (not_writable_of_mkdirAll hmk), fun _ => rfl⟩
  | some made =>
      simp only
      rw [← opens_hostFile_iff hmk]
      refine ⟨fun hopens => ?_, fun hclosed => if_neg hclosed⟩
      rw [if_pos hopens, locate_congr (mkdirAll_get? hmk).1, locate_hostFile]

/-- Files stay as they are while directories are made. -/
theorem file_mkdirAll_iff {made : FileSystem} {path : GoString}
    (h : fs.mkdirAll path = some made) (l : Location) (c : GoString) :
    made.nodes.get? l = some (.file c) ↔ fs.nodes.get? l = some (.file c) := by
  rw [(mkdirAll_get? h).2]
  split
  · rename_i hnew
    simp [hnew.2]
  · rfl

/-- Nothing has changed but the host file, if it can be opened, and the directories above it. -/
structure OnlyHost (fs : FileSystem) (paths : Paths) (name : GoString) (fs' : FileSystem) :
    Prop where
  cwd : fs'.cwd = fs.cwd
  faults : fs'.faults = fs.faults
  files : ∀ l c, (Writable fs paths name → l ≠ walk (fs.locate paths.hostsDir) name) →
    (fs'.nodes.get? l = some (.file c) ↔ fs.nodes.get? l = some (.file c))
  dirs : ∀ l, fs'.isDir l = true → fs.isDir l = true ∨ l ∈ steps (fs.locate paths.hostsDir)

theorem onlyHost_mkdirAll {made : FileSystem} {name : GoString}
    (hmk : fs.mkdirAll paths.hostsDir = some made) : OnlyHost fs paths name made where
  cwd := (mkdirAll_get? hmk).1
  faults := mkdirAll_faults hmk
  files l c _ := file_mkdirAll_iff hmk l c
  dirs l hl := (isDir_mkdirAll hmk (mkdirAll_eq_some.mp ⟨made, hmk⟩).2 l).mp hl

theorem OnlyHost.put {fs' : FileSystem} {name : GoString} (h : OnlyHost fs paths name fs')
    (hcan : Writable fs paths name) (content : GoString) :
    OnlyHost fs paths name (fs'.put (walk (fs.locate paths.hostsDir) name) content) where
  cwd := h.cwd
  faults := h.faults
  files l c hl := by
    rw [get?_put, if_neg (hl hcan)]
    exact h.files l c hl
  dirs l hl := by
    refine h.dirs l ?_
    unfold isDir at hl ⊢
    rw [get?_put] at hl
    split at hl
    · -- what was put there is no directory
      simp at hl
      simp [hl]
    · exact hl

/-- **Whatever comes of it, `writeHost` changes one file and makes the directories above it.** -/
theorem onlyHost_writeHost (name hostConfig : GoString) :
    Lib.Ends (OnlyHost fs paths name) (writeHost fs paths name hostConfig) := by
  rcases writeHost_spec fs paths name hostConfig with
    ⟨-, -, hw⟩ | ⟨made, hmk, ⟨-, hw⟩ | ⟨hcan, -, hw⟩ | ⟨hcan, written, -, hw⟩⟩
  · rw [hw]
    exact ⟨rfl, rfl, fun _ _ _ => .rfl, fun _ h => .inl h⟩
  · rw [hw]
    exact onlyHost_mkdirAll hmk
  · rw [hw]
    exact (onlyHost_mkdirAll hmk).put hcan _
  · rw [hw]
    exact (onlyHost_mkdirAll hmk).put hcan _

theorem Completes.writeHost {name : GoString} (h : Completes fs paths name)
    (hostConfig : GoString) : ∃ fs', writeHost fs paths name hostConfig = .ok fs' := by
  rcases writeHost_spec fs paths name hostConfig with
    ⟨-, hno, -⟩ | ⟨made, -, ⟨hno, -⟩ | ⟨-, -, hok⟩ | ⟨-, written, hbroken, -⟩⟩
  · exact absurd h.toWritable hno
  · exact absurd h.toWritable hno
  · exact ⟨_, hok⟩
  · cases h.whole.symm.trans hbroken

/-- What `writeHost` has written when it succeeds. -/
theorem writeHost_ok {fs' : FileSystem} {name hostConfig : GoString}
    (h : writeHost fs paths name hostConfig = .ok fs') :
    Completes fs paths name
      ∧ fs'.nodes.get? (walk (fs.locate paths.hostsDir) name) = some (.file hostConfig) := by
  rcases writeHost_spec fs paths name hostConfig with
    ⟨-, -, hw⟩ | ⟨made, -, ⟨-, hw⟩ | ⟨hcan, hwhole, hw⟩ | ⟨-, written, -, hw⟩⟩
  · cases hw.symm.trans h
  · cases hw.symm.trans h
  · cases hw.symm.trans h
    exact ⟨⟨hcan, hwhole⟩, GoMap.get?_set_self _ _ _⟩
  · cases hw.symm.trans h

theorem readInvitation_ok_iff {cookie name : GoString} :
    (∃ file, readInvitation fs paths cookie name = .ok file) ↔ Invites fs paths cookie name := by
  unfold readInvitation Invites checkInvitee
  cases fs.readFile (invitationPath paths cookie) with
  | error e => simp
  | ok content =>
      simp only [Except.ok.injEq, exists_and_left, exists_eq_left']
      cases hp : Invite.parseFile content with
      | error e => simp [Except.map]
      | ok f =>
          by_cases hn : f.invitee.name = name
          · simp [hn, Except.map]
          · simp [hn, Except.map]

/-! ## Whole requests -/

theorem cookieLeads_iff {cookie : GoString} :
    CookieLeads fs paths cookie
      ↔ ∀ loc, .read loc ∈ touchedByRead fs (invitationPath paths cookie) →
        Child (fs.locate paths.invitationsDir) loc := by
  constructor
  · intro h loc hloc
    obtain ⟨⟨content, hread⟩, heq⟩ := mem_touchedByRead.mp hloc
    cases heq
    rw [locate_invitationPath]
    exact h content hread
  · intro h content hread
    have := h _ (mem_touchedByRead.mpr ⟨⟨content, hread⟩, rfl⟩)
    rwa [locate_invitationPath] at this

/-- A call that only read what the cookie leads to. -/
theorem confined_read_iff {cookie : GoString} {o : Served}
    (htouched : o.touched = touchedByRead fs (invitationPath paths cookie))
    (hkeep : ∀ l c, fs.nodes.get? l = some (.file c) → o.fs.nodes.get? l = some (.file c)) :
    Confined fs paths o ↔ CookieLeads fs paths cookie := by
  rw [cookieLeads_iff, ← htouched]
  refine ⟨Confined.reads, fun h => ⟨h, ?_, ?_, fun l c hl _ _ => hkeep l c hl⟩⟩
  · intro loc hloc
    rw [htouched] at hloc
    cases (mem_touchedByRead.mp hloc).2
  · intro loc hloc
    rw [htouched] at hloc
    cases (mem_touchedByRead.mp hloc).2

/-- A call that opened the host file, and may have removed what the cookie leads to. -/
theorem confined_join_iff {cookie name file : GoString} (o : Served) (removed : List Access)
    (hread : fs.readFile (invitationPath paths cookie) = .ok file)
    (hremoved : ∀ a ∈ removed, a = .remove (walk (fs.locate paths.invitationsDir) cookie))
    (hkeep : ∀ l c, l ≠ walk (fs.locate paths.hostsDir) name →
      l ≠ walk (fs.locate paths.invitationsDir) cookie → fs.nodes.get? l = some (.file c) →
      o.fs.nodes.get? l = some (.file c))
    (htouched : o.touched = touchedByRead fs (invitationPath paths cookie)
      ++ [.write (walk (fs.locate paths.hostsDir) name)] ++ removed) :
    Confined fs paths o ↔ CookieLeads fs paths cookie ∧ Leads fs paths.hostsDir name := by
  constructor
  · intro h
    refine ⟨cookieLeads_iff.mpr fun loc hloc => h.reads loc ?_, ?_⟩
    · rw [htouched]
      exact List.mem_append_left _ (List.mem_append_left _ hloc)
    · exact h.writes (walk (fs.locate paths.hostsDir) name) (by simp [htouched])
  · rintro ⟨hcookie, hname⟩
    have hinv : Child (fs.locate paths.invitationsDir)
        (walk (fs.locate paths.invitationsDir) cookie) := hcookie file hread
    have hcases : ∀ a ∈ o.touched, a ∈ touchedByRead fs (invitationPath paths cookie)
        ∨ a = .write (walk (fs.locate paths.hostsDir) name)
        ∨ a = .remove (walk (fs.locate paths.invitationsDir) cookie) := by
      intro a ha
      rw [htouched] at ha
      rcases List.mem_append.mp ha with ha | ha
      · rcases List.mem_append.mp ha with ha | ha
        · exact .inl ha
        · exact .inr (.inl (List.mem_singleton.mp ha))
      · exact .inr (.inr (hremoved a ha))
    refine ⟨?_, ?_, ?_, ?_⟩
    · intro loc hloc
      rcases hcases _ hloc with hloc | heq | heq
      · exact cookieLeads_iff.mp hcookie loc hloc
      · cases heq
      · cases heq
    · intro loc hloc
      rcases hcases _ hloc with hloc | heq | heq
      · cases (mem_touchedByRead.mp hloc).2
      · cases heq
      · cases heq
        exact hinv
    · intro loc hloc
      rcases hcases _ hloc with hloc | heq | heq
      · cases (mem_touchedByRead.mp hloc).2
      · cases heq
        exact hname
      · cases heq
    · intro loc content hloc hni hnh
      -- what was written and what was removed are children, and this is none
      exact hkeep loc content (fun e => hnh (e ▸ hname)) (fun e => hni (e ▸ hinv)) hloc

/-- The removal of the invitation leaves the other places alone. -/
theorem get?_consume {cookie : GoString} {l : Location}
    (hl : l ≠ fs.locate (invitationPath paths cookie)) :
    (consume fs paths cookie).nodes.get? l = fs.nodes.get? l := by
  unfold consume
  cases hrm : fs.remove (invitationPath paths cookie) with
  | none => rfl
  | some fs' =>
      rw [Option.getD_some, remove_eq_some hrm]
      show (fs.nodes.delete _).get? l = _
      rw [GoMap.get?_delete, if_neg hl]

/-- A JOIN of a node that is not invited. -/
theorem confined_refused_iff {cookie name hostConfig : GoString} {e : InviteError}
    (hr : readInvitation fs paths cookie name = .error e) :
    Confined fs paths (handleInviteJoin fs paths cookie name hostConfig)
      ↔ CookieLeads fs paths cookie :=
  confined_read_iff (by simp only [handleInviteJoin, hr])
    (by simp only [handleInviteJoin, hr, imp_self, implies_true])

/-- A JOIN of a node that is invited gets as far as the host file. -/
theorem confined_invited_iff {cookie name hostConfig file content : GoString}
    (hr : readInvitation fs paths cookie name = .ok file)
    (hread : fs.readFile (invitationPath paths cookie) = .ok content) :
    Confined fs paths (handleInviteJoin fs paths cookie name hostConfig)
      ↔ CookieLeads fs paths cookie
        ∧ (Writable fs paths name → Leads fs paths.hostsDir name) := by
  have honly := @onlyHost_writeHost fs paths name hostConfig
  cases hw : writeHost fs paths name hostConfig with
  | ok fs' =>
      -- the file was written, and then the invitation was removed
      rw [hw] at honly
      have hcan : Writable fs paths name := (writeHost_ok hw).1.toWritable
      have hinv := (locate_congr honly.cwd (invitationPath paths cookie)).trans
        (locate_invitationPath cookie)
      rw [imp_iff_right hcan]
      refine confined_join_iff _ (touchedByRemove fs' (invitationPath paths cookie)) hread
        (fun a ha => ?_) (fun l c hl hl' h => ?_)
        (by simp only [handleInviteJoin, hr, hw, touchedByWriteHost_eq.1 hcan])
      · rw [mem_touchedByRemove ha, hinv]
      · simp only [handleInviteJoin, hr, hw]
        rw [get?_consume (by rw [hinv]; exact hl')]
        exact (honly.files l c fun _ => hl).mpr h
  | error fs' =>
      rw [hw] at honly
      have hfs : (handleInviteJoin fs paths cookie name hostConfig).fs = fs' := by
        simp only [handleInviteJoin, hr, hw]
      by_cases hcan : Writable fs paths name
      · -- the write was broken off
        rw [imp_iff_right hcan]
        refine confined_join_iff _ [] hread (fun a ha => by cases ha) (fun l c hl _ h => ?_)
          (by simp only [handleInviteJoin, hr, hw, touchedByWriteHost_eq.1 hcan, List.append_nil])
        rw [hfs]
        exact (honly.files l c fun _ => hl).mpr h
      · -- nothing was opened, and no file has changed
        rw [iff_true_intro fun h => absurd h hcan, and_true]
        refine confined_read_iff
          (by simp only [handleInviteJoin, hr, hw, touchedByWriteHost_eq.2 hcan, List.append_nil])
          fun l c h => ?_
        rw [hfs]
        exact (honly.files l c fun h => absurd h hcan).mpr h

/--
**A request is confined exactly when its cookie and its name lead to direct
children of the invitations and of the hosts directory**, the name as far as the
request gets to using it.
-/
theorem serve_confined_iff (fs : FileSystem) (paths : Paths) (req : Request) :
    Confined fs paths (serve fs paths req) ↔ Stays fs paths req := by
  cases req with
  | get cookie =>
      have hget : (handleInviteGet fs paths cookie).touched
            = touchedByRead fs (invitationPath paths cookie)
          ∧ (handleInviteGet fs paths cookie).fs = fs := by
        cases hr : fs.readFile (invitationPath paths cookie) with
        | error e => simp [handleInviteGet, touchedByRead, hr]
        | ok body => simp [handleInviteGet, touchedByRead, hr]
      exact confined_read_iff hget.1
        (fun l c h => by rw [← h]; exact congrArg (·.nodes.get? l) hget.2)
  | join cookie name hostConfig =>
      show Confined fs paths (handleInviteJoin fs paths cookie name hostConfig)
        ↔ CookieLeads fs paths cookie
          ∧ (Invites fs paths cookie name → Writable fs paths name → Leads fs paths.hostsDir name)
      rw [← readInvitation_ok_iff]
      cases hr : readInvitation fs paths cookie name with
      | error e =>
          rw [confined_refused_iff hr]
          simp
      | ok file =>
          obtain ⟨content, -, hread, -⟩ := readInvitation_ok_iff.mp ⟨file, hr⟩
          rw [confined_invited_iff hr hread]
          simp

/-! ### A cookie that leads upwards -/

section Sample

/-- The files of the inviter: no invitation is outstanding. -/
def treasure : FileSystem :=
  .ofFiles [
    (sampleLoc ["gsnet.conf"], str "Name = alice\n"),
    (sampleLoc ["ed25519_key.priv"], str "secret"),
    (sampleLoc ["hosts", "alice"], str "Port = 655\n"),
    (sampleLoc ["invitations", "unused"], str "Name = bob\n")]

/-- Anybody can read the private key, and delete the configuration and replace the host file. -/
theorem cookie_escapes :
    fields (str "../ed25519_key.priv") = [str "../ed25519_key.priv"]
      ∧ (serve treasure samplePaths (.get (str "../ed25519_key.priv"))).reply = .ok (str "secret")
      ∧ fields (str "../gsnet.conf") = [str "../gsnet.conf"]
      ∧ treasure.nodes.get? (sampleLoc ["gsnet.conf"]) ≠ none
      ∧ (serve treasure samplePaths
          (.join (str "../gsnet.conf") (str "alice") (str "x"))).fs.nodes.get?
            (sampleLoc ["gsnet.conf"]) = none
      ∧ ¬ Confined treasure samplePaths
          (serve treasure samplePaths (.get (str "../ed25519_key.priv")))
      ∧ ¬ Confined treasure samplePaths
          (serve treasure samplePaths (.join (str "../gsnet.conf") (str "alice") (str "x"))) := by
  refine ⟨by decide +kernel, by decide +kernel, by decide +kernel, by decide +kernel,
    by decide +kernel, fun h => ?_, fun h => ?_⟩
  · -- neither file is in the invitations directory
    have hread := h.reads (sampleLoc ["ed25519_key.priv"]) (by decide +kernel)
    exact absurd hread.dropLast (by decide +kernel)
  · have hremove := h.removes (sampleLoc ["gsnet.conf"]) (by decide +kernel)
    exact absurd hremove.dropLast (by decide +kernel)

end Sample

end Gsnet.Daemon
