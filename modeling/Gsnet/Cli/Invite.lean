import Gsnet.Daemon.Invite
import Gsnet.Invite.FileProof
import Gsnet.Invite.Url
import Gsnet.Nodename

/-!
# gsnet invite and gsnet join

`cmdInvite` writes an invitation for a new node and prints its URL; `cmdJoin`
follows a URL and writes the configuration of the new node. In between stands the
daemon of the inviter, which `cmdJoin` reaches through the transport: the two calls
it makes are a parameter, and so are the keys it draws.

The address and the port take two ways to the new node. `gsnet.conf` of the inviter
gives those of the URL, and the host block of the invitation gives those that the
daemon of the new node dials later; the block has the same address and then
whatever `hosts/<inviter>` holds.
-/

namespace Gsnet.Cli

open Go Config Daemon Invite

/-- `fmt.Sscanf(s, "%d", &port)`: an integer at the front, `none` if nothing is stored. -/
def sscanInt (s : GoString) : Option Int64 :=
  match trimLeftFrom 0 s with
  | [] => none
  | c :: t =>
    if c = 0x2B ∨ c = 0x2D then parseInt (c :: t.takeWhile isDigit)
    else parseInt ((c :: t).takeWhile isDigit)

/-! ## Inviting -/

inductive InviteCmdError where
  /-- `invite <name>`. -/
  | usage
  | name (e : Nodename.NameError)
  | config (e : Config.Error)
  /-- `local node name not configured`. -/
  | noName
  | readKey (e : OsError)
  | badKey
  | mkdir
  | write
  deriving DecidableEq

/-- The port of the URL. -/
def invitePort (conf : Entries) : Int64 :=
  match conf.getFirst (str "Port") with
  | none => 51820
  | some v => (sscanInt v).getD 51820

/-- What goes into the block of the inviter; a file that does not parse gives nothing. -/
def selfEntries (selfHost : Except OsError GoString) : Entries :=
  match selfHost with
  | .error _ => []
  | .ok text =>
    match Config.parse text with
    | .error _ => []
    | .ok es => es

/-- The invitation. -/
def invitation (netname invitee selfName addr : GoString) (other : Entries) : File where
  netname := netname
  invitee := { name := invitee, connectTo := [selfName] }
  hosts := [{ name := selfName, address := addr, other := other }]

/-- `cmdInvite`: the tree it leaves and the URL it prints. -/
def cmdInvite [PKCS8] [Sha256] (p : Paths) (fs : FileSystem) (seed : CookieSeed) :
    List GoString → Except InviteCmdError (FileSystem × GoString)
  | [invitee] => do
    wrap .name (Nodename.validate invitee)
    let conf ← wrap .config (loadDirectory fs p.confFile)
    let selfName ← match conf.getFirst (str "Name") with
      | some name => .ok name
      | none => .error .noName
    let addr := (conf.getFirst (str "Address")).getD []
    let edBytes ← wrap .readKey (fs.readFile p.ed25519Private)
    let edPriv ← match parseEd25519PrivatePEM edBytes with
      | some k => .ok k
      | none => .error .badKey
    let cookie := newCookie seed
    let url := buildURL addr (invitePort conf) edPriv.public cookie
    let made ← match fs.mkdirAll p.invitationsDir with
      | some fs => .ok fs
      | none => .error .mkdir
    let file := invitation p.netname invitee selfName addr
      (selfEntries (made.readFile (p.hostFile selfName)))
    match made.writeFile (invitationPath p cookie) file.render with
    | .ok fs => .ok (fs, url.string)
    | .error _ => .error .write
  | _ => .error .usage

/-- What a `cmdInvite` that succeeds has found, printed and written. -/
structure Invites [PKCS8] [Sha256] (p : Paths) (fs : FileSystem) (seed : CookieSeed)
    (invitee : GoString) (fs' : FileSystem) (url : GoString) (conf : Entries) (selfName : GoString)
    (edPriv : Ed25519Private) : Prop where
  valid : Nodename.validate invitee = .ok ()
  loaded : loadDirectory fs p.confFile = .ok conf
  name : conf.getFirst (str "Name") = some selfName
  key : ∃ b, fs.readFile p.ed25519Private = .ok b ∧ parseEd25519PrivatePEM b = some edPriv
  printed : url = (buildURL ((conf.getFirst (str "Address")).getD []) (invitePort conf)
    edPriv.public (newCookie seed)).string
  stored : ∃ made, fs.mkdirAll p.invitationsDir = some made
    ∧ made.writeFile (invitationPath p (newCookie seed))
        (invitation p.netname invitee selfName ((conf.getFirst (str "Address")).getD [])
          (selfEntries (made.readFile (p.hostFile selfName)))).render = .ok fs'

/-- **What `cmdInvite` has done when it succeeds.** -/
theorem invites_of_cmdInvite [PKCS8] [Sha256] {p : Paths} {fs fs' : FileSystem} {seed : CookieSeed}
    {invitee url : GoString} (h : cmdInvite p fs seed [invitee] = .ok (fs', url)) :
    ∃ conf selfName edPriv, Invites p fs seed invitee fs' url conf selfName edPriv := by
  simp only [cmdInvite] at h
  obtain ⟨⟨⟩, hvalid, h⟩ := Lib.bind_eq_ok.mp h
  obtain ⟨conf, hconf, h⟩ := Lib.bind_eq_ok.mp h
  rw [wrap_eq_ok] at hvalid hconf
  cases hname : conf.getFirst (str "Name") with
  | none =>
      simp only [hname] at h
      cases h
  | some selfName =>
  simp only [hname, Lib.ok_bind] at h
  obtain ⟨edBytes, hread, h⟩ := Lib.bind_eq_ok.mp h
  rw [wrap_eq_ok] at hread
  cases hkey : parseEd25519PrivatePEM edBytes with
  | none =>
      rw [hkey] at h
      cases h
  | some edPriv =>
  simp only [hkey] at h
  cases hmade : fs.mkdirAll p.invitationsDir with
  | none =>
      rw [hmade] at h
      cases h
  | some made =>
  simp only [hmade] at h
  split at h
  · rename_i fs₁ hwrite
    cases h
    exact ⟨conf, selfName, edPriv, hvalid, hconf, hname, ⟨edBytes, hread, hkey⟩, rfl, made, hmade,
      hwrite⟩
  · cases h

/-- The same for a configuration that is known. -/
theorem cmdInvite_ok [PKCS8] [Sha256] {p : Paths} {fs fs' : FileSystem} {seed : CookieSeed}
    {invitee url selfName : GoString} {conf : Entries}
    (h : cmdInvite p fs seed [invitee] = .ok (fs', url))
    (hconf : loadDirectory fs p.confFile = .ok conf)
    (hname : conf.getFirst (str "Name") = some selfName) :
    Nodename.validate invitee = .ok ()
      ∧ ∃ (made : FileSystem) (edPriv : Ed25519Private),
        fs.mkdirAll p.invitationsDir = some made
        ∧ url = (buildURL ((conf.getFirst (str "Address")).getD []) (invitePort conf)
            edPriv.public (newCookie seed)).string
        ∧ fs'.readFile (invitationPath p (newCookie seed))
          = .ok (invitation p.netname invitee selfName ((conf.getFirst (str "Address")).getD [])
              (selfEntries (made.readFile (p.hostFile selfName)))).render := by
  obtain ⟨conf', selfName', edPriv, hinvites⟩ := invites_of_cmdInvite h
  cases hconf.symm.trans hinvites.loaded
  cases hname.symm.trans hinvites.name
  obtain ⟨made, hmade, hwrite⟩ := hinvites.stored
  exact ⟨hinvites.valid, made, edPriv, hmade, hinvites.printed,
    FileSystem.readFile_writeFile hwrite⟩

/-! ## Joining -/

/-- The calls to the daemon of the inviter; they give nothing when they fail. -/
structure Network where
  /-- `transport.InviteGet`, by address, cookie and fingerprint. -/
  inviteGet : GoString → GoString → GoString → Option GoString
  /-- `transport.InviteJoin`, by address, cookie, name, host file and fingerprint. -/
  inviteJoin : GoString → GoString → GoString → GoString → GoString → Bool

/-- What `cmdJoin` generates. -/
structure FreshKeys where
  edPriv : Ed25519Private
  /-- `MarshalPEM` of the private key. -/
  edPEM : GoString
  wgPriv : WGKey

inductive JoinCmdError where
  /-- `join <url>`. -/
  | usage
  | url (e : UrlError)
  /-- `invite get: %w`. -/
  | get
  /-- `parse invitation: %w`. -/
  | parse (e : FileError)
  /-- `invitation has no inviter host block`. -/
  | noHost
  /-- `invitation: inviter has no Ed25519PublicKey`. -/
  | noKey
  /-- `parse inviter pubkey: %w`. -/
  | badKey
  /-- `invitation keyhash mismatch: URL=%s, file=%s`. -/
  | keyHash (url file : GoString)
  /-- `invite join: %w`. -/
  | join
  /-- A directory could not be made. -/
  | mkdir
  /-- A file could not be written. -/
  | write
  deriving DecidableEq

/-- The key in the host block of the inviter; the first entry decides. -/
def inviterKey (inviter : Block) : Except JoinCmdError Ed25519Public :=
  match ((inviter.other.find? fun e => equalFold e.key (str "Ed25519PublicKey")).map
      fun e => trimSpace e.value).getD [] with
  | [] => .error .noKey
  | pubStr =>
    match parseEd25519PublicBase64 pubStr with
    | none => .error .badKey
    | some pub => .ok pub

/-- The public halves of the keys. -/
def myHost [Curve25519] (keys : FreshKeys) : Entries :=
  [⟨str "Ed25519PublicKey", keys.edPriv.public.string⟩,
    ⟨str "WGPublicKey", (Curve25519.publicKey keys.wgPriv).string⟩]

/-- What is written to `hosts/<inviter>`. -/
def inviterHost (inviter : Block) : Entries :=
  (if inviter.address ≠ [] then [⟨str "Address", inviter.address⟩] else []) ++ inviter.other

def joinerConf (file : File) : Entries :=
  ⟨str "Name", file.invitee.name⟩ :: file.invitee.connectTo.map (⟨str "ConnectTo", ·⟩)

/-- The files of a new node, in the order they are written. -/
def joinerFiles [Curve25519] (final : Paths) (keys : FreshKeys) (file : File) (inviter : Block) :
    List (GoString × GoString) :=
  [(final.ed25519Private, keys.edPEM),
    (final.wgPrivate, keys.wgPriv.string ++ [0x0A]),
    (final.confFile, (joinerConf file).render),
    (final.hostFile file.invitee.name, (myHost keys).render),
    (final.hostFile inviter.name, (inviterHost inviter).render)]

/-- Files one after the other, up to the first that cannot be written. -/
def writeFiles (fs : FileSystem) (files : List (GoString × GoString)) :
    Except FileSystem FileSystem :=
  files.foldlM (fun fs f => fs.writeFile f.1 f.2) fs

/-- A new node: its tree, where it is, and whom it was invited by. -/
structure Joined where
  fs : FileSystem
  paths : Paths
  file : File
  inviter : Block

/-- `cmdJoin`. -/
def cmdJoin [Sha256] [Curve25519] (p : Paths) (fs : FileSystem) (net : Network)
    (keys : FreshKeys) : List GoString → Except JoinCmdError Joined
  | [arg] => do
    let u ← wrap .url (parseURL arg)
    let addr := u.host ++ 0x3A :: formatInt u.port
    let body ← match net.inviteGet addr u.cookie u.keyHash with
      | some body => .ok body
      | none => .error .get
    let file ← wrap .parse (Invite.parseFile body)
    let inviter ← match file.hosts with
      | [] => .error .noHost
      | b :: _ => .ok b
    let pub ← inviterKey inviter
    if pub.hash ≠ u.keyHash then .error (.keyHash u.keyHash pub.hash)
    else if net.inviteJoin addr u.cookie file.invitee.name (myHost keys).render u.keyHash
        = false then
      .error .join
    else
      let final := { p with netname := if file.netname = [] then p.netname else file.netname }
      let made ← match (fs.mkdirAll final.hostsDir).bind (·.mkdirAll final.invitationsDir) with
        | some fs => .ok fs
        | none => .error .mkdir
      match writeFiles made (joinerFiles final keys file inviter) with
      | .error _ => .error .write
      | .ok fs => .ok ⟨fs, final, file, inviter⟩
  | _ => .error .usage

/-- The last of the files is as it was written. -/
theorem readFile_writeFiles {fs fs' : FileSystem} {files : List (GoString × GoString)}
    {path content : GoString} (h : writeFiles fs (files ++ [(path, content)]) = .ok fs') :
    fs'.readFile path = .ok content := by
  rw [writeFiles, List.foldlM_append] at h
  obtain ⟨fs₁, -, h⟩ := Lib.bind_eq_ok.mp h
  rw [List.foldlM_cons] at h
  obtain ⟨fs₂, hwrite, h⟩ := Lib.bind_eq_ok.mp h
  cases h
  exact FileSystem.readFile_writeFile hwrite

/-- What is at a place once files have been laid over what was there. -/
def lay (place : GoString → Location) (files : List (GoString × GoString)) (loc : Location)
    (old : Option Node) : Option Node :=
  files.foldl (fun node f => if loc = place f.1 then some (.file f.2) else node) old

/-- The tree after files have been written. -/
theorem writeFiles_spec {fs fs' : FileSystem} {files : List (GoString × GoString)}
    (h : writeFiles fs files = .ok fs') :
    fs'.cwd = fs.cwd ∧ (∀ f ∈ files, 0 ∉ f.1 ∧ fs.locate f.1 ≠ [])
      ∧ ∀ loc, fs'.nodes.get? loc = lay fs.locate files loc (fs.nodes.get? loc) := by
  induction files generalizing fs with
  | nil =>
      cases h
      exact ⟨rfl, by simp, fun _ => rfl⟩
  | cons f files ih =>
      rw [writeFiles, List.foldlM_cons] at h
      obtain ⟨fs₁, hwrite, hrest⟩ := Lib.bind_eq_ok.mp h
      obtain ⟨⟨h0, hdir, -⟩, -, rfl⟩ := FileSystem.writeFile_eq_ok.mp hwrite
      obtain ⟨hcwd, hpaths, hget⟩ := ih hrest
      have hloc : (fs.put (fs.locate f.1) f.2).locate = fs.locate := rfl
      rw [hloc] at hpaths hget
      have hroot : fs.locate f.1 ≠ [] := by
        intro heq
        rw [heq] at hdir
        simp [FileSystem.isDir] at hdir
      refine ⟨hcwd, List.forall_mem_cons.mpr ⟨⟨h0, hroot⟩, hpaths⟩, fun loc => ?_⟩
      rw [hget, FileSystem.get?_put]
      rfl

/-- What a `cmdJoin` that succeeds has found and written. -/
structure Joins [Sha256] [Curve25519] (p : Paths) (fs : FileSystem) (net : Network)
    (keys : FreshKeys) (arg : GoString) (j : Joined) : Prop where
  /-- The invitation, from where the URL leads. -/
  fetched : ∃ u body, parseURL arg = .ok u
    ∧ net.inviteGet (u.host ++ 0x3A :: formatInt u.port) u.cookie u.keyHash = some body
    ∧ Invite.parseFile body = .ok j.file
  /-- The inviter is the first host block. -/
  inviter : ∃ rest, j.file.hosts = j.inviter :: rest
  key : ∃ pub, inviterKey j.inviter = .ok pub
  paths : j.paths = { p with netname := if j.file.netname = [] then p.netname else j.file.netname }
  written : ∃ made,
    (fs.mkdirAll j.paths.hostsDir).bind (·.mkdirAll j.paths.invitationsDir) = some made
    ∧ writeFiles made (joinerFiles j.paths keys j.file j.inviter) = .ok j.fs

/-- **What `cmdJoin` has done when it succeeds.** -/
theorem joins_of_cmdJoin [Sha256] [Curve25519] {p : Paths} {fs : FileSystem} {net : Network}
    {keys : FreshKeys} {arg : GoString} {j : Joined} (h : cmdJoin p fs net keys [arg] = .ok j) :
    Joins p fs net keys arg j := by
  simp only [cmdJoin] at h
  obtain ⟨u, hu, h⟩ := Lib.bind_eq_ok.mp h
  rw [wrap_eq_ok] at hu
  cases hbody : net.inviteGet (u.host ++ 0x3A :: formatInt u.port) u.cookie u.keyHash with
  | none => simp only [hbody] at h; cases h
  | some body =>
  simp only [hbody, Lib.ok_bind] at h
  obtain ⟨file, hfile, h⟩ := Lib.bind_eq_ok.mp h
  rw [wrap_eq_ok] at hfile
  cases hhosts : file.hosts with
  | nil => simp only [hhosts] at h; cases h
  | cons b rest =>
  simp only [hhosts] at h
  obtain ⟨pub, hpub, h⟩ := Lib.bind_eq_ok.mp h
  split at h
  · cases h
  split at h
  · cases h
  split at h
  · rename_i made hmade
    split at h
    · cases h
    · rename_i fs' hwritten
      cases h
      exact ⟨⟨u, body, hu, hbody, hfile⟩, ⟨rest, hhosts⟩, ⟨pub, hpub⟩, rfl, made, hmade, hwritten⟩
  · cases h

/-- The host file of the inviter is the last that is written. -/
theorem Joins.inviterFile [Sha256] [Curve25519] {p : Paths} {fs : FileSystem} {net : Network}
    {keys : FreshKeys} {arg : GoString} {j : Joined} (h : Joins p fs net keys arg j) :
    j.fs.readFile (j.paths.hostFile j.inviter.name) = .ok (inviterHost j.inviter).render := by
  obtain ⟨made, -, hwritten⟩ := h.written
  exact @readFile_writeFiles made j.fs [(j.paths.ed25519Private, keys.edPEM),
    (j.paths.wgPrivate, keys.wgPriv.string ++ [0x0A]),
    (j.paths.confFile, (joinerConf j.file).render),
    (j.paths.hostFile j.file.invitee.name, (myHost keys).render)] _ _ hwritten

end Gsnet.Cli
