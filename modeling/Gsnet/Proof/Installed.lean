import Gsnet.Daemon.Fsck
import Gsnet.Proof.DialTarget
import Gsnet.Proof.HostData
import Gsnet.Proof.HostNames
import Gsnet.Proof.InviteText

/-!
# What a new node has of its invitation

The blocks of an invitation after the first are said to be copied to `hosts/<Name>`.
`cmdJoin` copies the first of them, the one of the inviter, and forgets the others;
and it looks neither at the names nor at what the directory held before. Whether
the tree it leaves has every block and passes `Fsck` is decided by the invitation
and by the tree before, and said by `Complete`.

Names that lead out of the hosts directory could put a file of the join in the place
of another one. Such a join never passes: the new keys are in one host file only.
-/

namespace Gsnet.Cli

open Go Config Daemon Invite FileSystem Lib

/-! ## What is asked for -/

/-- The host file of a block is in the hosts directory and has its address and its other entries. -/
structure Installed (fs : FileSystem) (paths : Paths) (b : Block) : Prop where
  place : fs.locate (paths.hostFile b.name) = fs.locate paths.hostsDir ++ [b.name]
  entries : ∃ es, Config.parseFile fs (paths.hostFile b.name) = .ok es ∧ ∀ e ∈ inviterHost b, e ∈ es

/-- The entries the fragments of the configuration give. -/
def loadFragments (fs : FileSystem) (primaryPath : GoString) : Except Config.Error Entries :=
  let confd := join [dirname primaryPath, str "conf.d"]
  match fs.readDir confd with
  | .error .notExist => .ok []
  | .error e => .error (.os e)
  | .ok dirEntries => do
    let more ← (fragments dirEntries).mapM fun n => Config.parseFile fs (join [confd, n])
    .ok more.flatten

section Spec

variable (fs : FileSystem) (paths : Paths) (file : File) (inviter : Block)

/-- A tree of names a directory can hold. -/
def Named : Prop := ∀ loc node, fs.nodes.get? loc = some node → ∀ n ∈ loc, PlainName n

/-- Keys as they are generated: they can be read back, and nobody has seen them. -/
structure Generated [PKCS8] (keys : FreshKeys) : Prop where
  length : keys.edPriv.raw.length = 64
  parses : parseEd25519PrivatePEM keys.edPEM = some keys.edPriv
  unknown_tree : ∀ loc text es, fs.nodes.get? loc = some (.file text) →
    Config.parse text = .ok es → ∀ e ∈ es, e.value ≠ keys.edPriv.public.string
  unknown_hosts : ∀ b ∈ file.hosts, ∀ e ∈ b.other, e.value ≠ keys.edPriv.public.string

/-- What the host file of that name is going to hold. -/
def Holds [Curve25519] (keys : FreshKeys) (name : GoString) (es : Entries) : Prop :=
  if name = inviter.name then es = inviterHost inviter ∧ es.Short
  else if name = file.invitee.name then es = myHost keys
  else Config.parseFile fs (paths.hostFile name) = .ok es

/-- There is going to be something under that name in the hosts directory. -/
def Known (name : GoString) : Prop :=
  name = inviter.name ∨ name = file.invitee.name ∨ ∃ d, fs.stat (paths.hostFile name) = .ok d

/-- An invitation that leaves nothing out, for this tree. -/
structure Complete [Curve25519] (keys : FreshKeys) : Prop where
  /-- What a block has is in the host file that is going to stand under its name. -/
  blocks : ∀ b ∈ file.hosts, PlainName b.name
    ∧ ∃ es, Holds fs paths file inviter keys b.name es ∧ ∀ e ∈ inviterHost b, e ∈ es
  invitee : Nodename.validate file.invitee.name = .ok ()
  /-- The inviter has not given its own name away. -/
  apart : file.invitee.name ≠ inviter.name
  conf : (joinerConf file).Short
  /-- The fragments that are there do no harm, and nobody is to be dialled without a host file. -/
  fragments : ∃ more, loadFragments fs paths.confFile = .ok more
    ∧ (∀ s ∈ more.getAll (str "Subnet"), ∃ sub, Subnet.parse s = .ok sub)
    ∧ ∀ target ∈ file.invitee.connectTo ++ more.getAll (str "ConnectTo"),
      Nodename.validate target = .ok () ∧ Known fs paths file inviter target

end Spec

/-! ## Names and places -/

/-- The places of a tree that a join writes to or reads. -/
theorem locate_files (fs : FileSystem) (paths : Paths) :
    fs.locate paths.confFile = fs.locate paths.netDir ++ [str "gsnet.conf"]
      ∧ fs.locate paths.ed25519Private = fs.locate paths.netDir ++ [str "ed25519_key.priv"]
      ∧ fs.locate paths.wgPrivate = fs.locate paths.netDir ++ [str "wg.priv"]
      ∧ fs.locate (join [dirname paths.confFile, str "conf.d"])
        = fs.locate paths.netDir ++ [str "conf.d"] := by
  refine ⟨fs.locate_join_plain _ (by decide), fs.locate_join_plain _ (by decide),
    fs.locate_join_plain _ (by decide), ?_⟩
  have hdir : fs.locate (dirname paths.confFile) = fs.locate paths.netDir :=
    fs.locate_dirname_join _ (by decide)
  rw [fs.locate_join_plain _ (by decide), hdir]

theorem locate_host (fs : FileSystem) (paths : Paths) {name : GoString} (h : PlainName name) :
    fs.locate (paths.hostFile name) = fs.locate paths.hostsDir ++ [name] :=
  fs.locate_join_plain _ h

/-- Nothing beside the hosts directory is a host file. -/
theorem beside_hosts (fs : FileSystem) (paths : Paths) {name : GoString} (h : PlainName name)
    (n : GoString) : fs.locate paths.netDir ++ [n] ≠ walk (fs.locate paths.hostsDir) name := by
  intro heq
  rw [walk_plainName h, (locate_dirs fs paths).1] at heq
  have hlen := congrArg List.length heq
  simp at hlen

/-! ## The tree a join leaves -/

/-- Where there was nothing, the directories of a tree are made. -/
theorem get?_made {fs made₁ made : FileSystem} {paths : Paths}
    (h₁ : fs.mkdirAll paths.hostsDir = some made₁)
    (h₂ : made₁.mkdirAll paths.invitationsDir = some made) :
    made.cwd = fs.cwd ∧ ∀ loc, made.nodes.get? loc
      = if (loc ∈ steps (fs.locate paths.hostsDir) ∨ loc ∈ steps (fs.locate paths.invitationsDir))
          ∧ fs.nodes.get? loc = none then some .dir
        else fs.nodes.get? loc := by
  obtain ⟨hcwd₁, hget₁⟩ := mkdirAll_get? h₁
  obtain ⟨hcwd₂, hget₂⟩ := mkdirAll_get? h₂
  refine ⟨hcwd₂.trans hcwd₁, fun loc => ?_⟩
  rw [hget₂, hget₁, locate_congr hcwd₁]
  by_cases hnone : fs.nodes.get? loc = none
  · by_cases hhosts : loc ∈ steps (fs.locate paths.hostsDir)
    · simp [hnone, hhosts]
    · simp [hnone, hhosts]
  · simp [hnone]

/-- What stands where after a join. -/
structure Placed [Curve25519] (fs : FileSystem) (keys : FreshKeys) (j : Joined) : Prop where
  cwd : j.fs.cwd = fs.cwd
  paths : ∀ f ∈ joinerFiles j.paths keys j.file j.inviter, 0 ∉ f.1 ∧ fs.locate f.1 ≠ []
  /-- No file is in the way of the hosts directory. -/
  clear : ∀ l ∈ steps (fs.locate j.paths.hostsDir), ∀ c, fs.nodes.get? l ≠ some (.file c)
  /-- The last file written to a place decides; elsewhere only directories are new. -/
  get? : ∀ loc, j.fs.nodes.get? loc
    = if loc = walk (fs.locate j.paths.hostsDir) j.inviter.name then
        some (.file (inviterHost j.inviter).render)
      else if loc = walk (fs.locate j.paths.hostsDir) j.file.invitee.name then
        some (.file (myHost keys).render)
      else if loc = fs.locate j.paths.netDir ++ [str "gsnet.conf"] then
        some (.file (joinerConf j.file).render)
      else if loc = fs.locate j.paths.netDir ++ [str "wg.priv"] then
        some (.file (keys.wgPriv.string ++ [0x0A]))
      else if loc = fs.locate j.paths.netDir ++ [str "ed25519_key.priv"] then
        some (.file keys.edPEM)
      else if (loc ∈ steps (fs.locate j.paths.hostsDir)
          ∨ loc ∈ steps (fs.locate j.paths.invitationsDir)) ∧ fs.nodes.get? loc = none then
        some .dir
      else fs.nodes.get? loc

theorem Joins.placed [Sha256] [Curve25519] {p : Paths} {fs : FileSystem} {net : Network}
    {keys : FreshKeys} {arg : GoString} {j : Joined} (h : Joins p fs net keys arg j) :
    Placed fs keys j := by
  obtain ⟨made, hmade, hwritten⟩ := h.written
  obtain ⟨made₁, hmade₁, hmade₂⟩ := Option.bind_eq_some_iff.mp hmade
  obtain ⟨hcwdDirs, hdirs⟩ := get?_made hmade₁ hmade₂
  obtain ⟨hcwd, hpaths, hget⟩ := writeFiles_spec hwritten
  have hlocate : made.locate = fs.locate := by
    funext path
    exact locate_congr hcwdDirs path
  obtain ⟨hconf, hed, hwg, -⟩ := locate_files fs j.paths
  rw [hlocate] at hpaths hget
  refine ⟨hcwd.trans hcwdDirs, hpaths, (mkdirAll_eq_some.mp ⟨made₁, hmade₁⟩).2, ?_⟩
  intro loc
  rw [hget, hdirs]
  simp only [joinerFiles, lay, List.foldl_cons, List.foldl_nil, locate_hostFile, hconf, hed, hwg]

namespace Placed

variable [Curve25519] {fs : FileSystem} {keys : FreshKeys} {j : Joined}

theorem locate (h : Placed fs keys j) (path : GoString) : j.fs.locate path = fs.locate path :=
  locate_congr h.cwd path

/-- The files that are written can be read where nothing else stands in their place. -/
theorem readFile (h : Placed fs keys j) {path content text : GoString}
    (hmem : (path, content) ∈ joinerFiles j.paths keys j.file j.inviter)
    (hget : j.fs.nodes.get? (fs.locate path) = some (.file text)) :
    j.fs.readFile path = .ok text := by
  obtain ⟨h0, hroot⟩ := h.paths _ hmem
  rw [readFile_eq_ok, h.locate]
  exact ⟨h0, hroot, hget⟩

/-- A host file of that name. -/
theorem get?_host (h : Placed fs keys j) (hplain : PlainName j.inviter.name) (name : GoString) :
    j.fs.nodes.get? (fs.locate j.paths.hostsDir ++ [name])
      = if name = j.inviter.name then some (.file (inviterHost j.inviter).render)
        else if fs.locate j.paths.hostsDir ++ [name]
            = walk (fs.locate j.paths.hostsDir) j.file.invitee.name then
          some (.file (myHost keys).render)
        else fs.nodes.get? (fs.locate j.paths.hostsDir ++ [name]) := by
  obtain ⟨hhosts, hinv⟩ := locate_dirs fs j.paths
  have hinviter : fs.locate j.paths.hostsDir ++ [name]
      = walk (fs.locate j.paths.hostsDir) j.inviter.name ↔ name = j.inviter.name := by
    rw [walk_plainName hplain, List.append_right_inj, List.singleton_inj]
  -- nothing else is as far from the root
  have hfile : ∀ n, fs.locate j.paths.hostsDir ++ [name] ≠ fs.locate j.paths.netDir ++ [n] := by
    intro n heq
    have hlen := congrArg List.length heq
    rw [hhosts] at hlen
    simp at hlen
  have hdir : ∀ n, fs.locate j.paths.hostsDir ++ [name]
      ∉ steps (fs.locate j.paths.netDir ++ [n]) := by
    intro n hmem
    have hlen := (mem_steps.mp hmem).1.length_le
    rw [hhosts] at hlen
    simp at hlen
  have hmade : ¬ (fs.locate j.paths.hostsDir ++ [name] ∈ steps (fs.locate j.paths.hostsDir)
      ∨ fs.locate j.paths.hostsDir ++ [name] ∈ steps (fs.locate j.paths.invitationsDir)) := by
    have hno := hdir (str "hosts")
    rw [← hhosts] at hno
    have hno' := hdir (str "invitations")
    rw [← hinv] at hno'
    exact not_or.mpr ⟨hno, hno'⟩
  rw [h.get?]
  simp only [hinviter, hfile, hmade, false_and, if_false]

/-- The files beside the hosts directory. -/
theorem get?_file (h : Placed fs keys j) (hplain : PlainName j.inviter.name) {n : GoString}
    (hother : fs.locate j.paths.netDir ++ [n]
      ≠ walk (fs.locate j.paths.hostsDir) j.file.invitee.name) :
    j.fs.nodes.get? (fs.locate j.paths.netDir ++ [n])
      = if n = str "gsnet.conf" then some (.file (joinerConf j.file).render)
        else if n = str "wg.priv" then some (.file (keys.wgPriv.string ++ [0x0A]))
        else if n = str "ed25519_key.priv" then some (.file keys.edPEM)
        else if (n = str "hosts" ∨ n = str "invitations")
          ∧ fs.nodes.get? (fs.locate j.paths.netDir ++ [n]) = none then some .dir
        else fs.nodes.get? (fs.locate j.paths.netDir ++ [n]) := by
  obtain ⟨hhosts, hinv⟩ := locate_dirs fs j.paths
  have hinviter : fs.locate j.paths.netDir ++ [n]
      ≠ walk (fs.locate j.paths.hostsDir) j.inviter.name := by
    intro heq
    have hlen := congrArg List.length heq
    rw [walk_plainName hplain, hhosts] at hlen
    simp at hlen
  have hstep : ∀ m, fs.locate j.paths.netDir ++ [n] ∈ steps (fs.locate j.paths.netDir ++ [m])
      ↔ n = m := by
    intro m
    rw [mem_steps]
    constructor
    · intro hmem
      have heq := hmem.1.eq_of_length (by simp)
      exact List.singleton_inj.mp (List.append_cancel_left heq)
    · rintro rfl
      exact ⟨List.prefix_rfl, by simp⟩
  rw [h.get?, if_neg hinviter, if_neg hother]
  simp only [List.append_right_inj, List.singleton_inj, hhosts, hinv, hstep]

end Placed

/-! ## The configuration that is written -/

/-- A primary file that is there comes first, and has to parse. -/
theorem loadDirectory_eq_ok {fs : FileSystem} {path text : GoString} {es : Entries}
    (hread : fs.readFile path = .ok text) :
    loadDirectory fs path = .ok es ↔ ∃ own more, Config.parse text = .ok own
      ∧ loadFragments fs path = .ok more ∧ es = own ++ more := by
  have hfile : Config.parseFile fs path = Config.parse text := by
    simp only [Config.parseFile, hread]
  cases hparse : Config.parse text with
  | error e =>
      refine iff_of_false ?_ ?_
      · rw [loadDirectory, hfile, hparse]
        split
        · rename_i heq
          cases heq
          exact absurd hparse (parse_ne_os text _)
        · intro h
          cases h
      · rintro ⟨own, more, h, -⟩
        cases h
  | ok own =>
      have hload : loadDirectory fs path
          = loadFragments fs path >>= fun more => .ok (own ++ more) := by
        rw [loadDirectory, loadFragments, hfile, hparse]
        simp only [ok_bind]
        cases fs.readDir (join [dirname path, str "conf.d"]) with
        | error e =>
            cases e with
            | notExist => exact congrArg Except.ok (List.append_nil own).symm
            | other => rfl
        | ok dirEntries =>
            simp only
            cases (fragments dirEntries).mapM fun n =>
                Config.parseFile fs (join [join [dirname path, str "conf.d"], n]) <;> rfl
      rw [hload, bind_eq_ok]
      constructor
      · rintro ⟨more, hmore, h⟩
        exact ⟨own, more, rfl, hmore, (Except.ok.inj h).symm⟩
      · rintro ⟨own', more, hown, hmore, rfl⟩
        cases hown
        exact ⟨more, hmore, rfl⟩

theorem parse_joinerConf {file : File} {es : Entries} (h : file.Written) :
    Config.parse (joinerConf file).render = .ok es
      ↔ (joinerConf file).Short ∧ es = joinerConf file := by
  have hparsed : (joinerConf file).Parsed := by
    intro e he
    rcases List.mem_cons.mp he with rfl | he
    · exact parsed_known (by decide +kernel) (h.invitee.1.name.resolve_left h.invitee.2)
    · obtain ⟨v, hv, rfl⟩ := List.mem_map.mp he
      exact parsed_known (by decide +kernel) (h.invitee.1.connectTo v hv)
  rw [parse_render_iff fun e he => (hparsed e he).1, hparsed.map_canon]

theorem getFirst_joinerConf (file : File) (more : Entries) :
    Entries.getFirst (joinerConf file ++ more) (str "Name") = some file.invitee.name := by
  have hkey : equalFold (str "Name") (str "Name") = true := by decide
  simp [joinerConf, Entries.getFirst, hkey]

/-- Only the nodes to be dialled are more than the fragments give. -/
theorem getAll_joinerConf (file : File) (more : Entries) :
    Entries.getAll (joinerConf file ++ more) (str "Subnet") = more.getAll (str "Subnet")
      ∧ Entries.getAll (joinerConf file ++ more) (str "ConnectTo")
        = file.invitee.connectTo ++ more.getAll (str "ConnectTo") := by
  have hkeys : equalFold (str "Name") (str "Subnet") = false
      ∧ equalFold (str "ConnectTo") (str "Subnet") = false
      ∧ equalFold (str "Name") (str "ConnectTo") = false
      ∧ equalFold (str "ConnectTo") (str "ConnectTo") = true := by decide
  obtain ⟨h1, h2, h3, h4⟩ := hkeys
  simp [joinerConf, Entries.getAll, List.filter_map, Function.comp_def, h1, h2, h3, h4]

/-! ## The keys that are written -/

theorem plainValue_base64 {s : GoString} (h : s ≠ []) : PlainValue (base64Encode s) := by
  have hvisible : ∀ b : UInt8, 0x21 ≤ b → isAsciiSpace b = false := by decide +kernel
  have hchars := base64Encode_chars s
  refine ⟨base64Encode_ne_nil h, trimmed_of_ascii fun b hb => ?_, fun hb => ?_⟩
  · exact ⟨(hchars b hb).2, hvisible b (hchars b hb).1⟩
  · exact absurd (hchars _ hb).1 (by decide)

theorem WGKey.raw_ne_nil (k : WGKey) : k.raw ≠ [] := by
  have hlen := k.length_raw
  rintro h
  rw [h] at hlen
  cases hlen

theorem wgPublicText_string [Curve25519] (k : WGKey) :
    wgPublicText (k.string ++ [0x0A]) = some (Curve25519.publicKey k).string := by
  have hplain := plainValue_base64 (WGKey.raw_ne_nil k)
  have htrim : trimSpace (k.string ++ [0x0A]) = k.string :=
    trimSpace_append_space hplain.trimmed hplain.ne_nil (by decide) (by decide)
  have hkey : parseKey k.string = some k := by
    simp [parseKey, WGKey.string, base64Decode_encode, k.length_raw]
  rw [wgPublicText, htrim, hkey]
  rfl

section Keys

variable [PKCS8] [Curve25519] {fs : FileSystem} {file : File} {keys : FreshKeys}

omit [PKCS8] [Curve25519] in
theorem FreshKeys.public_ne_nil (h : keys.edPriv.raw.length = 64) :
    keys.edPriv.public.raw ≠ [] := by
  have hlen : keys.edPriv.public.raw.length = 32 := by
    rw [Ed25519Private.public, List.length_drop, h]
  intro hnil
  rw [hnil] at hlen
  cases hlen

omit [PKCS8] in
/-- The host file of a new node is read as it was written. -/
theorem FreshKeys.parse_myHost (h : keys.edPriv.raw.length = 64) :
    Config.parse (myHost keys).render = .ok (myHost keys) := by
  have hparsed : (myHost keys).Parsed := by
    intro e he
    simp only [myHost, List.mem_cons, List.not_mem_nil, or_false] at he
    rcases he with rfl | rfl
    · exact parsed_known (by decide +kernel) (plainValue_base64 (public_ne_nil h))
    · exact parsed_known (by decide +kernel) (plainValue_base64 (WGKey.raw_ne_nil _))
  rw [parse_render_iff fun e he => (hparsed e he).1, hparsed.map_canon]
  refine ⟨?_, rfl⟩
  intro e he
  have hed : (keys.edPriv.public.string).length ≤ 4 * 32 := by
    have hlen := length_base64Encode_le keys.edPriv.public.raw
    rwa [Ed25519Private.public, List.length_drop, h] at hlen
  have hwg : ((Curve25519.publicKey keys.wgPriv).string).length ≤ 4 * 32 := by
    have hlen := length_base64Encode_le (Curve25519.publicKey keys.wgPriv).raw
    rwa [(Curve25519.publicKey keys.wgPriv).length_raw] at hlen
  have hkeys : (str "Ed25519PublicKey").length = 16 ∧ (str "WGPublicKey").length = 11
      ∧ (str " = ").length = 3 ∧ maxLine = 65535 := by decide +kernel
  obtain ⟨h1, h2, h3, h4⟩ := hkeys
  simp only [myHost, List.mem_cons, List.not_mem_nil, or_false] at he
  rcases he with rfl | rfl
  · simp only [Entry.line, List.length_append, h1, h3, h4]
    omega
  · simp only [Entry.line, List.length_append, h2, h3, h4]
    omega

omit [PKCS8] in
/-- And it has the public halves of the keys. -/
theorem FreshKeys.getFirst_myHost (h : keys.edPriv.raw.length = 64) :
    trimSpace (((myHost keys).getFirst (str "Ed25519PublicKey")).getD [])
        = keys.edPriv.public.string
      ∧ trimSpace (((myHost keys).getFirst (str "WGPublicKey")).getD [])
        = (Curve25519.publicKey keys.wgPriv).string := by
  have hkeys : equalFold (str "Ed25519PublicKey") (str "Ed25519PublicKey") = true
      ∧ equalFold (str "Ed25519PublicKey") (str "WGPublicKey") = false
      ∧ equalFold (str "WGPublicKey") (str "WGPublicKey") = true := by decide
  obtain ⟨h1, h2, h3⟩ := hkeys
  simp only [myHost, Entries.getFirst, List.find?_cons, h1, h2, h3, Option.map_some,
    Option.getD_some]
  exact ⟨trimSpace_of_trimmed (plainValue_base64 (public_ne_nil h)).trimmed,
    trimSpace_of_trimmed (plainValue_base64 (WGKey.raw_ne_nil _)).trimmed⟩

omit [Curve25519] in
theorem FreshKeys.edPublicText (h : parseEd25519PrivatePEM keys.edPEM = some keys.edPriv) :
    edPublicText keys.edPEM = some keys.edPriv.public.string := by
  rw [Daemon.edPublicText, h]
  rfl

omit [Curve25519] in
/-- Entries that give another key, or none. -/
theorem Generated.not_matching (h : Generated fs file keys) {es : Entries} (hes : es.Parsed)
    (hno : ∀ e ∈ es, equalFold e.key (str "Ed25519PublicKey") = true →
      e.value ≠ keys.edPriv.public.string) :
    trimSpace ((es.getFirst (str "Ed25519PublicKey")).getD []) ≠ keys.edPriv.public.string := by
  cases hfirst : es.getFirst (str "Ed25519PublicKey") with
  | none =>
      intro heq
      exact base64Encode_ne_nil (FreshKeys.public_ne_nil h.length) heq.symm
  | some v =>
      obtain ⟨e, he, hkey, rfl⟩ := mem_of_getFirst hfirst
      rw [Option.getD_some, trimSpace_of_trimmed (hes e he).1.value_trimmed]
      exact hno e he hkey

end Keys

/-! ## Only a proper name passes -/

theorem parse_inviterHost_of_parseFile {body : GoString} {file : File} {b : Block} {es : Entries}
    (hfile : Invite.parseFile body = .ok file) (hb : b ∈ file.hosts) :
    Config.parse (inviterHost b).render = .ok es ↔ (inviterHost b).Short ∧ es = inviterHost b := by
  obtain ⟨-, entries, hentries, rfl⟩ := parseFile_hosts hfile b hb
  exact parse_inviterHost hentries

section Tree

variable [PKCS8] [Sha256] [Curve25519] {p : Paths} {fs : FileSystem} {net : Network}
  {keys : FreshKeys} {arg : GoString} {j : Joined}

/-- A host file that is not the one of the new node does not have its key. -/
theorem Joins.not_own (h : Joins p fs net keys arg j) (hgen : Generated fs j.file keys)
    (hplain : PlainName j.inviter.name) {name hostBytes : GoString} {hostEntries : Entries}
    (hname : PlainName name)
    (hother : name = j.inviter.name ∨ fs.locate j.paths.hostsDir ++ [name]
      ≠ walk (fs.locate j.paths.hostsDir) j.file.invitee.name)
    (hread : j.fs.readFile (j.paths.hostFile name) = .ok hostBytes)
    (hparse : Config.parse hostBytes = .ok hostEntries) :
    trimSpace ((hostEntries.getFirst (str "Ed25519PublicKey")).getD [])
      ≠ keys.edPriv.public.string := by
  obtain ⟨u, body, -, -, hfile⟩ := h.fetched
  obtain ⟨rest, hhosts⟩ := h.inviter
  have hinviter : j.inviter ∈ j.file.hosts := by
    rw [hhosts]
    exact List.mem_cons_self
  refine hgen.not_matching (parse_clean hparse) ?_
  obtain ⟨-, -, hget⟩ := readFile_eq_ok.mp hread
  rw [h.placed.locate, locate_host fs j.paths hname, h.placed.get?_host hplain] at hget
  split at hget
  · -- the inviter does not know the key
    cases hget
    obtain ⟨-, rfl⟩ := (parse_inviterHost_of_parseFile hfile hinviter).mp hparse
    intro e he hkey
    rcases List.mem_append.mp he with he | he
    · have haddr : equalFold (str "Address") (str "Ed25519PublicKey") = false := by decide
      split at he
      · rw [List.mem_singleton.mp he, haddr] at hkey
        cases hkey
      · cases he
    · exact hgen.unknown_hosts j.inviter hinviter e he
  · rename_i hne
    rw [if_neg (hother.resolve_left hne)] at hget
    exact fun e he _ => hgen.unknown_tree _ _ _ hget hparse e he

/--
**A tree that passes has the new node under a name of its own.** Whatever the name
of the invitee leads to, the keys are in one host file only, and `Fsck` looks for
them under a name that is valid.
-/
theorem Joins.proper_of_clean (h : Joins p fs net keys arg j) (hgen : Generated fs j.file keys)
    (hplain : PlainName j.inviter.name) {es : Entries} (hclean : FsckClean j.fs j.paths es) :
    Nodename.validate j.file.invitee.name = .ok () ∧ j.file.invitee.name ≠ j.inviter.name := by
  obtain ⟨u, body, -, -, hfile⟩ := h.fetched
  have hplaced := h.placed
  obtain ⟨hconf, hed, -, -⟩ := locate_files fs j.paths
  obtain ⟨name, edBytes, edPublic, wgBytes, wgPublic, hostBytes, hostEntries, hname, hvalid,
    hedRead, hedPublic, -, -, hread, hparse, hmatch, -⟩ := hclean.own
  -- the key is the new one, unless its file was written over
  have hkey : fs.locate j.paths.netDir ++ [str "ed25519_key.priv"]
      ≠ walk (fs.locate j.paths.hostsDir) j.file.invitee.name →
      edPublic = keys.edPriv.public.string := by
    intro hother
    obtain ⟨-, -, hget⟩ := readFile_eq_ok.mp hedRead
    rw [hplaced.locate, hed, hplaced.get?_file hplain hother] at hget
    simp only [show str "ed25519_key.priv" ≠ str "gsnet.conf" from by decide,
      show str "ed25519_key.priv" ≠ str "wg.priv" from by decide, if_false, if_true] at hget
    cases hget
    rw [FreshKeys.edPublicText hgen.parses] at hedPublic
    exact (Option.some.inj hedPublic).symm
  by_cases hover : fs.locate j.paths.netDir ++ [str "gsnet.conf"]
      = walk (fs.locate j.paths.hostsDir) j.file.invitee.name
  · -- the configuration was written over, and the name comes from a fragment
    exfalso
    refine h.not_own hgen hplain (plainName_of_validate hvalid) (.inr ?_) hread hparse ?_
    · rw [← hover, (locate_dirs fs j.paths).1]
      intro heq
      have hlen := congrArg List.length heq
      simp at hlen
    · rw [hmatch]
      refine hkey ?_
      rw [← hover]
      simp only [ne_eq, List.append_right_inj, List.singleton_inj]
      decide
  · have hget := hplaced.get?_file hplain hover
    rw [if_pos rfl, ← hconf] at hget
    have hmem : (j.paths.confFile, (joinerConf j.file).render)
        ∈ joinerFiles j.paths keys j.file j.inviter := by simp [joinerFiles]
    have hconfRead := hplaced.readFile hmem hget
    obtain ⟨own, more, hown, -, rfl⟩ := (loadDirectory_eq_ok hconfRead).mp hclean.conf
    obtain ⟨-, rfl⟩ := (parse_joinerConf (written_of_parseFile hfile)).mp hown
    rw [getFirst_joinerConf] at hname
    cases hname
    refine ⟨hvalid, fun heq => ?_⟩
    refine h.not_own hgen hplain (plainName_of_validate hvalid) (.inl heq) hread hparse ?_
    rw [hmatch]
    exact hkey (beside_hosts fs j.paths (plainName_of_validate hvalid) _)

/-! ## What a join under a proper name leaves -/

section Proper

variable (h : Joins p fs net keys arg j) (hgen : Generated fs j.file keys)
  (hplain : PlainName j.inviter.name) (hvalid : Nodename.validate j.file.invitee.name = .ok ())
  (hne : j.file.invitee.name ≠ j.inviter.name)
include h hplain hvalid

omit [PKCS8] in
theorem Joins.get?_name (name : GoString) :
    j.fs.nodes.get? (fs.locate j.paths.hostsDir ++ [name])
      = if name = j.inviter.name then some (.file (inviterHost j.inviter).render)
        else if name = j.file.invitee.name then some (.file (myHost keys).render)
        else fs.nodes.get? (fs.locate j.paths.hostsDir ++ [name]) := by
  rw [h.placed.get?_host hplain, walk_plainName (plainName_of_validate hvalid)]
  simp only [List.append_right_inj, List.singleton_inj]

omit [PKCS8] in
theorem Joins.readFiles : j.fs.readFile j.paths.confFile = .ok (joinerConf j.file).render
    ∧ j.fs.readFile j.paths.ed25519Private = .ok keys.edPEM
    ∧ j.fs.readFile j.paths.wgPrivate = .ok (keys.wgPriv.string ++ [0x0A]) := by
  have hplaced := h.placed
  obtain ⟨hconf, hed, hwg, -⟩ := locate_files fs j.paths
  have hget := fun n =>
    hplaced.get?_file hplain (beside_hosts fs j.paths (plainName_of_validate hvalid) n)
  have hapart : str "wg.priv" ≠ str "gsnet.conf" ∧ str "ed25519_key.priv" ≠ str "gsnet.conf"
      ∧ str "ed25519_key.priv" ≠ str "wg.priv" := by decide
  obtain ⟨h1, h2, h3⟩ := hapart
  have hconfMem : (j.paths.confFile, (joinerConf j.file).render)
      ∈ joinerFiles j.paths keys j.file j.inviter := by simp [joinerFiles]
  have hedMem : (j.paths.ed25519Private, keys.edPEM)
      ∈ joinerFiles j.paths keys j.file j.inviter := by simp [joinerFiles]
  have hwgMem : (j.paths.wgPrivate, keys.wgPriv.string ++ [0x0A])
      ∈ joinerFiles j.paths keys j.file j.inviter := by simp [joinerFiles]
  refine ⟨hplaced.readFile hconfMem ?_, hplaced.readFile hedMem ?_, hplaced.readFile hwgMem ?_⟩
  · rw [hconf, hget, if_pos rfl]
  · rw [hed, hget, if_neg h2, if_neg h3, if_pos rfl]
  · rw [hwg, hget, if_neg h1, if_pos rfl]

include hgen in
/-- A host file is one of the new ones, or the old one of that name. -/
theorem Joins.parseFile_host {name : GoString} (hname : PlainName name) {es : Entries} :
    Config.parseFile j.fs (j.paths.hostFile name) = .ok es
      ↔ Holds fs j.paths j.file j.inviter keys name es := by
  obtain ⟨u, body, -, -, hfile⟩ := h.fetched
  obtain ⟨rest, hhosts⟩ := h.inviter
  have hinviter : j.inviter ∈ j.file.hosts := by
    rw [hhosts]
    exact List.mem_cons_self
  have hget := h.get?_name hplain hvalid name
  unfold Holds
  split
  · rename_i heq
    rw [heq, Config.parseFile, h.inviterFile]
    simp only
    rw [parse_inviterHost_of_parseFile hfile hinviter]
    constructor
    · rintro ⟨hshort, rfl⟩
      exact ⟨rfl, hshort⟩
    · rintro ⟨rfl, hshort⟩
      exact ⟨hshort, rfl⟩
  · rename_i hneInviter
    rw [if_neg hneInviter, ← locate_host fs j.paths hname] at hget
    split
    · rename_i heq
      rw [if_pos heq] at hget
      have hmem : (j.paths.hostFile name, (myHost keys).render)
          ∈ joinerFiles j.paths keys j.file j.inviter := by simp [joinerFiles, heq]
      rw [Config.parseFile, h.placed.readFile hmem hget]
      simp only
      rw [FreshKeys.parse_myHost hgen.length, Except.ok.injEq, eq_comm]
    · rename_i hneInvitee
      rw [if_neg hneInvitee] at hget
      rw [Config.parseFile_ok_iff, Config.parseFile_ok_iff]
      simp only [readFile_eq_ok, h.placed.locate, hget]

omit [PKCS8] in
/-- There is something under a name if it was there before, or is one of the two. -/
theorem Joins.stat_host {name : GoString} (hname : PlainName name) :
    (∃ d, j.fs.stat (j.paths.hostFile name) = .ok d) ↔ Known fs j.paths j.file j.inviter name := by
  have hget := h.get?_name hplain hvalid name
  have hroot : fs.locate (j.paths.hostFile name) ≠ [] := by
    rw [locate_host fs j.paths hname]
    simp
  have hwritten : ∀ content, (j.paths.hostFile name, content)
      ∈ joinerFiles j.paths keys j.file j.inviter → 0 ∉ j.paths.hostFile name :=
    fun content hmem => (h.placed.paths _ hmem).1
  rw [Known, stat_eq_ok, stat_eq_ok, h.placed.locate, locate_host fs j.paths hname, hget]
  rw [locate_host fs j.paths hname] at hroot
  simp only [hroot, false_or]
  by_cases hinviter : name = j.inviter.name
  · have h0 := hwritten (inviterHost j.inviter).render (by simp [joinerFiles, hinviter])
    rw [if_pos hinviter]
    exact iff_of_true ⟨h0, by simp⟩ (.inl hinviter)
  · by_cases hinvitee : name = j.file.invitee.name
    · have h0 := hwritten (myHost keys).render (by simp [joinerFiles, hinvitee])
      rw [if_neg hinviter, if_pos hinvitee]
      exact iff_of_true ⟨h0, by simp⟩ (.inr (.inl hinvitee))
    · simp only [hinviter, hinvitee, if_false, false_or]

omit [PKCS8] in
/-- The way to the network's directory is the same: a directory that is new is no file. -/
theorem Joins.way {l : Location} (hl : l.length ≤ (fs.locate j.paths.netDir).length) :
    (∃ c, j.fs.nodes.get? l = some (.file c)) ↔ ∃ c, fs.nodes.get? l = some (.file c) := by
  have hfar : ∀ n, l ≠ fs.locate j.paths.netDir ++ [n] := by
    rintro n rfl
    simp at hl
  have hfar' : ∀ n, l ≠ fs.locate j.paths.hostsDir ++ [n] := by
    rintro n rfl
    rw [(locate_dirs fs j.paths).1] at hl
    simp at hl
  rw [h.placed.get?, walk_plainName hplain, walk_plainName (plainName_of_validate hvalid)]
  simp only [hfar, hfar', if_false]
  split
  · rename_i hmade
    simp [hmade.2]
  · rfl

omit [PKCS8] in
/-- And so are `conf.d` and what is in it. -/
theorem Joins.get?_confd : j.fs.nodes.get? (fs.locate j.paths.netDir ++ [str "conf.d"])
      = fs.nodes.get? (fs.locate j.paths.netDir ++ [str "conf.d"])
    ∧ ∀ n, j.fs.nodes.get? (fs.locate j.paths.netDir ++ [str "conf.d"] ++ [n])
      = fs.nodes.get? (fs.locate j.paths.netDir ++ [str "conf.d"] ++ [n]) := by
  obtain ⟨hhosts, hinv⟩ := locate_dirs fs j.paths
  have hnames : str "conf.d" ≠ str "gsnet.conf" ∧ str "conf.d" ≠ str "wg.priv"
      ∧ str "conf.d" ≠ str "ed25519_key.priv" ∧ str "conf.d" ≠ str "hosts"
      ∧ str "conf.d" ≠ str "invitations" := by decide
  obtain ⟨h1, h2, h3, h4, h5⟩ := hnames
  constructor
  · rw [h.placed.get?_file hplain (beside_hosts fs j.paths (plainName_of_validate hvalid) _)]
    simp only [h1, h2, h3, h4, h5, or_self, false_and, if_false]
  intro n
  have hhost : ∀ m, fs.locate j.paths.netDir ++ [str "conf.d"] ++ [n]
      ≠ fs.locate j.paths.hostsDir ++ [m] := by
    intro m heq
    rw [hhosts] at heq
    exact h4 (List.singleton_inj.mp (List.append_cancel_left (List.append_inj_left' heq rfl)))
  have hfile : ∀ m, fs.locate j.paths.netDir ++ [str "conf.d"] ++ [n]
      ≠ fs.locate j.paths.netDir ++ [m] := by
    intro m heq
    have hlen := congrArg List.length heq
    simp at hlen
  have hstep : ∀ m, fs.locate j.paths.netDir ++ [str "conf.d"] ++ [n]
      ∉ steps (fs.locate j.paths.netDir ++ [m]) := by
    intro m hmem
    have hlen := (mem_steps.mp hmem).1.length_le
    simp at hlen
  rw [h.placed.get?, walk_plainName hplain, walk_plainName (plainName_of_validate hvalid),
    if_neg (hhost _), if_neg (hhost _), if_neg (hfile _), if_neg (hfile _), if_neg (hfile _),
    if_neg]
  rw [hhosts, hinv]
  exact fun hmade => hmade.1.elim (hstep _) (hstep _)

omit [PKCS8] in
/-- The fragments are what they were. -/
theorem Joins.loadFragments_eq (hnamed : Named fs) :
    loadFragments j.fs j.paths.confFile = loadFragments fs j.paths.confFile := by
  have hcwd := h.placed.cwd
  obtain ⟨-, -, -, hconfd⟩ := locate_files fs j.paths
  obtain ⟨hdir, hin⟩ := h.get?_confd hplain hvalid
  rw [← hconfd] at hdir hin
  have hread : j.fs.readDir (join [dirname j.paths.confFile, str "conf.d"])
      = fs.readDir (join [dirname j.paths.confFile, str "conf.d"]) := by
    refine readDir_congr hcwd (fun l hl hne => h.way hplain hvalid ?_) hdir hin
    have hlen := hl.length_le
    have hlt : l.length ≠ (fs.locate (join [dirname j.paths.confFile, str "conf.d"])).length :=
      fun heq => hne (hl.eq_of_length heq)
    rw [hconfd, List.length_append, List.length_singleton] at hlen hlt
    omega
  unfold loadFragments
  simp only [hread]
  cases hentries : fs.readDir (join [dirname j.paths.confFile, str "conf.d"]) with
  | error e => cases e <;> rfl
  | ok entries =>
      have hparse : ∀ n ∈ fragments entries,
          Config.parseFile j.fs (join [join [dirname j.paths.confFile, str "conf.d"], n])
            = Config.parseFile fs (join [join [dirname j.paths.confFile, str "conf.d"], n]) := by
        intro n hn
        obtain ⟨de, hde, rfl⟩ := List.mem_map.mp hn
        have hsome := mem_readDir hentries (List.mem_of_mem_filter hde)
        obtain ⟨node, hnode⟩ := Option.ne_none_iff_exists'.mp hsome
        have hloc := fs.locate_join_plain (join [dirname j.paths.confFile, str "conf.d"])
          (hnamed _ node hnode de.name (by simp))
        have hsame := hin de.name
        rw [← hloc] at hsame hsome
        rw [Config.parseFile, Config.parseFile, readFile_congr hcwd hsame hsome]
      simp only
      rw [mapM_congr hparse]

include hgen hne in
/-- **Under a proper name, what `Fsck` finds depends on the lines and on the fragments.** -/
theorem Joins.clean_iff (hnamed : Named fs) : (∃ es, FsckClean j.fs j.paths es)
    ↔ (joinerConf j.file).Short ∧ ∃ more, loadFragments fs j.paths.confFile = .ok more
      ∧ (∀ s ∈ more.getAll (str "Subnet"), ∃ sub, Subnet.parse s = .ok sub)
      ∧ ∀ target ∈ j.file.invitee.connectTo ++ more.getAll (str "ConnectTo"),
        Nodename.validate target = .ok () ∧ Known fs j.paths j.file j.inviter target := by
  obtain ⟨u, body, -, -, hfile⟩ := h.fetched
  obtain ⟨hconfRead, hedRead, hwgRead⟩ := h.readFiles hplain hvalid
  have hload : ∀ {es}, loadDirectory j.fs j.paths.confFile = .ok es ↔ (joinerConf j.file).Short
      ∧ ∃ more, loadFragments fs j.paths.confFile = .ok more ∧ es = joinerConf j.file ++ more := by
    intro es
    rw [loadDirectory_eq_ok hconfRead, h.loadFragments_eq hplain hvalid hnamed]
    simp only [parse_joinerConf (written_of_parseFile hfile)]
    constructor
    · rintro ⟨own, more, ⟨hshort, rfl⟩, hmore, rfl⟩
      exact ⟨hshort, more, hmore, rfl⟩
    · rintro ⟨hshort, more, hmore, rfl⟩
      exact ⟨_, more, ⟨hshort, rfl⟩, hmore, rfl⟩
  have htargets : ∀ target, (Nodename.validate target = .ok ()
      ∧ ∃ d, j.fs.stat (j.paths.hostFile target) = .ok d)
      ↔ Nodename.validate target = .ok () ∧ Known fs j.paths j.file j.inviter target :=
    fun target => and_congr_right fun hok =>
      h.stat_host hplain hvalid (plainName_of_validate hok)
  constructor
  · rintro ⟨es, hclean⟩
    obtain ⟨hshort, more, hmore, rfl⟩ := hload.mp hclean.conf
    obtain ⟨hsubnets, hconnect⟩ := getAll_joinerConf j.file more
    refine ⟨hshort, more, hmore, ?_, fun target ht => ?_⟩
    · rw [← hsubnets]
      exact hclean.subnets
    · rw [← hconnect] at ht
      exact (htargets target).mp (hclean.connectTo target ht)
  · rintro ⟨hshort, more, hmore, hsub, htarget⟩
    obtain ⟨hsubnets, hconnect⟩ := getAll_joinerConf j.file more
    refine ⟨joinerConf j.file ++ more, stat_of_readFile hconfRead,
      hload.mpr ⟨hshort, more, hmore, rfl⟩, ?_, ?_, fun target ht => ?_⟩
    · rw [hsubnets]
      exact hsub
    · have hhost : Config.parseFile j.fs (j.paths.hostFile j.file.invitee.name)
          = .ok (myHost keys) := by
        rw [h.parseFile_host hgen hplain hvalid (plainName_of_validate hvalid), Holds, if_neg hne,
          if_pos rfl]
      obtain ⟨text, htext, hparse⟩ := Config.parseFile_ok_iff.mp hhost
      exact ⟨_, _, _, _, _, text, _, getFirst_joinerConf j.file more, hvalid, hedRead,
        FreshKeys.edPublicText hgen.parses, hwgRead, wgPublicText_string _, htext, hparse,
        FreshKeys.getFirst_myHost hgen.length⟩
    · rw [hconnect] at ht
      exact (htargets target).mpr (htarget target ht)

end Proper

/--
**A join leaves every host block in its file and a tree that passes exactly if the
invitation is complete for the tree it is followed in.** Of the blocks, those that
`cmdJoin` does not write have to be there already.
-/
theorem installed_clean_iff (hjoin : cmdJoin p fs net keys [arg] = .ok j) (hnamed : Named fs)
    (hgen : Generated fs j.file keys) (perm : GoString → UInt32) :
    ((∀ b ∈ j.file.hosts, Installed j.fs j.paths b) ∧ NoError (fsck j.fs perm j.paths))
      ↔ Complete fs j.paths j.file j.inviter keys := by
  have h := joins_of_cmdJoin hjoin
  have hinviter : j.inviter ∈ j.file.hosts := by
    obtain ⟨rest, hhosts⟩ := h.inviter
    rw [hhosts]
    exact List.mem_cons_self
  have hplace : ∀ name, j.fs.locate (j.paths.hostFile name) = j.fs.locate j.paths.hostsDir ++ [name]
      ↔ PlainName name := by
    intro name
    rw [locate_hostFile]
    exact walk_eq_append_iff (hostsDir_getLast? j.fs j.paths)
  rw [fsck_clean_iff]
  constructor
  · rintro ⟨hinstalled, es, hclean⟩
    have hplain := (hplace _).mp (hinstalled _ hinviter).place
    obtain ⟨hvalid, hne⟩ := h.proper_of_clean hgen hplain hclean
    obtain ⟨hshort, hfragments⟩ := (h.clean_iff hgen hplain hvalid hne hnamed).mp ⟨es, hclean⟩
    refine ⟨fun b hb => ?_, hvalid, hne, hshort, hfragments⟩
    have hname := (hplace _).mp (hinstalled b hb).place
    obtain ⟨entries, hparse, hall⟩ := (hinstalled b hb).entries
    exact ⟨hname, entries, (h.parseFile_host hgen hplain hvalid hname).mp hparse, hall⟩
  · intro hc
    have hplain := (hc.blocks _ hinviter).1
    refine ⟨fun b hb => ?_, (h.clean_iff hgen hplain hc.invitee hc.apart hnamed).mpr
      ⟨hc.conf, hc.fragments⟩⟩
    obtain ⟨hname, entries, hholds, hall⟩ := hc.blocks b hb
    exact ⟨(hplace _).mpr hname, entries,
      (h.parseFile_host hgen hplain hc.invitee hname).mpr hholds, hall⟩

end Tree

section Sample

attribute [local instance] clearPKCS8 clearSha256 clearCurve25519

/-- The block of node `a`, with the key the URL has the fingerprint of. -/
def blockA : Block where
  name := str "a"
  address := str "h"
  other := [⟨str "Ed25519PublicKey", (sampleSigner 1).public.string⟩]

/-- The block of a node that `a` knows. -/
def blockC : Block where
  name := str "c"
  address := str "i"

/-- What `a` offers to node `b`. -/
def offered (hosts : List Block) : File where
  netname := []
  invitee := { name := str "b", connectTo := [str "a"] }
  hosts := hosts

def offering (hosts : List Block) : Network where
  inviteGet _ _ _ := some (offered hosts).render
  inviteJoin _ _ _ _ _ := true

/-- Node `b` follows the URL with nothing on its disk. -/
def sampleFollowed (hosts : List Block) : Except JoinCmdError Joined :=
  cmdJoin samplePaths (.ofFiles []) (offering hosts) sampleKeys
    [(buildURL (str "h") 655 (sampleSigner 1).public (newCookie sampleSeed)).string]

theorem named_empty : Named (.ofFiles []) := fun _ _ h => by cases h

theorem complete_single :
    Complete (.ofFiles []) samplePaths (offered [blockA]) blockA sampleKeys where
  blocks b hb := by
    cases List.mem_singleton.mp hb
    exact ⟨by decide, inviterHost blockA, ⟨rfl, by decide +kernel⟩, fun e he => he⟩
  invitee := by decide
  apart := by decide
  conf := by decide +kernel
  fragments := by
    refine ⟨[], by decide +kernel, by simp [Entries.getAll], fun target ht => ?_⟩
    cases List.mem_singleton.mp ht
    exact ⟨by decide, .inl rfl⟩

/-- An invitation as `cmdInvite` writes it has one block. -/
theorem single_block_installed : ∃ j, sampleFollowed [blockA] = .ok j
    ∧ (∀ b ∈ j.file.hosts, Installed j.fs j.paths b)
    ∧ NoError (fsck j.fs (fun _ => 0o600) j.paths) := by
  have hok : (sampleFollowed [blockA]).toOption.any (fun j =>
      j.file = offered [blockA] ∧ j.inviter = blockA ∧ j.paths = samplePaths) = true := by
    decide +kernel
  rw [Option.any_eq_true] at hok
  obtain ⟨j, hj, heq⟩ := hok
  obtain ⟨hfile, hinviter, hpaths⟩ := of_decide_eq_true heq
  have hgen : Generated (.ofFiles []) j.file sampleKeys := by
    refine ⟨by decide, rfl, fun _ _ _ h => (by cases h), ?_⟩
    rw [hfile]
    decide +kernel
  refine ⟨j, toOption_eq_some.mp hj, ?_⟩
  refine (installed_clean_iff (toOption_eq_some.mp hj) named_empty hgen _).mpr ?_
  rw [hfile, hinviter, hpaths]
  exact complete_single

/-- Of two blocks, the second is not written, and nobody is told. -/
theorem second_block_lost : ∃ j, sampleFollowed [blockA, blockC] = .ok j
    ∧ j.file.hosts = [blockA, blockC] ∧ ¬ Installed j.fs j.paths blockC
    ∧ j.fs.readFile (j.paths.hostFile (str "c")) = .error .notExist := by
  have hok : (sampleFollowed [blockA, blockC]).toOption.any (fun j =>
      j.file.hosts = [blockA, blockC]
        ∧ j.fs.readFile (j.paths.hostFile (str "c")) = .error .notExist) = true := by
    decide +kernel
  rw [Option.any_eq_true] at hok
  obtain ⟨j, hj, heq⟩ := hok
  obtain ⟨hhosts, hread⟩ := of_decide_eq_true heq
  refine ⟨j, toOption_eq_some.mp hj, hhosts, fun hinst => ?_, hread⟩
  obtain ⟨es, hparse, -⟩ := hinst.entries
  obtain ⟨text, htext, -⟩ := Config.parseFile_ok_iff.mp hparse
  cases hread.symm.trans htext

end Sample

end Gsnet.Cli
