import Gsnet.Daemon
import Gsnet.Nodename

/-!
# gsnet fsck

`internal/daemon/fsck.go`: a check of a configuration tree that changes nothing. It
goes through the files on its own and does not call `load`. The permission bits of
a file only ever give a warning; they are a parameter, since the tree has none.
-/

namespace Gsnet.Daemon

open Go Config

inductive FsckLevel where
  | ok
  | warning
  | error
  deriving DecidableEq, Repr

inductive FsckMessage where
  /-- `cannot stat: %v`. -/
  | cannotStat (e : OsError)
  /-- `expected file, found directory`. -/
  | isDirectory
  /-- `parse: %v`. -/
  | parse (e : Config.Error)
  /-- `Name is required`. -/
  | nameRequired
  /-- `Name invalid: %v`. -/
  | nameInvalid (e : Nodename.NameError)
  /-- `Subnet %q invalid: %v`. -/
  | subnetInvalid (s : GoString) (e : Subnet.Error)
  /-- `%s key missing: %v`. -/
  | keyMissing (label : GoString) (e : OsError)
  /-- `%s key has loose permissions %o; expected 0600`. -/
  | loosePermissions (label : GoString) (perm : UInt32)
  /-- `%s key read: %v`. -/
  | keyRead (label : GoString) (e : OsError)
  /-- `%s key parse: %v`. -/
  | keyParse (label : GoString)
  /-- `missing: %v`. -/
  | hostMissing (e : OsError)
  /-- `Ed25519PublicKey does not match the local private key`, or `WGPublicKey` does not. -/
  | keyMismatch (key : GoString)
  /-- `ConnectTo %q invalid name: %v`. -/
  | connectToInvalid (target : GoString) (e : Nodename.NameError)
  /-- `ConnectTo %q referenced but %s missing`. -/
  | connectToMissing (target path : GoString)
  deriving DecidableEq, Repr

/-- One diagnostic. -/
structure FsckFinding where
  level : FsckLevel
  path : GoString
  message : FsckMessage
  deriving DecidableEq, Repr

/-- A finding of the level that makes `gsnet fsck` fail. -/
def fsckError (path : GoString) (message : FsckMessage) : FsckFinding := ⟨.error, path, message⟩

section

variable (fs : FileSystem) (perm : GoString → UInt32) (p : Paths)

def checkName (confPath : GoString) (name : Option GoString) : List FsckFinding :=
  match name with
  | none => [fsckError confPath .nameRequired]
  | some name =>
    match Nodename.validate name with
    | .error e => [fsckError confPath (.nameInvalid e)]
    | .ok _ => []

def checkSubnet (confPath s : GoString) : List FsckFinding :=
  match Subnet.parse s with
  | .error e => [fsckError confPath (.subnetInvalid s e)]
  | .ok _ => []

def checkPrivateKey (path label : GoString) (parses : GoString → Bool) : List FsckFinding :=
  match fs.stat path with
  | .error e => [fsckError path (.keyMissing label e)]
  | .ok _ =>
    (if perm path &&& 0o077 ≠ 0 then [⟨.warning, path, .loosePermissions label (perm path)⟩]
      else [])
      ++ match fs.readFile path with
        | .error e => [fsckError path (.keyRead label e)]
        | .ok b => if parses b then [] else [fsckError path (.keyParse label)]

/-- One half of `checkHostMatchesPrivate`: a private key that cannot be had is not compared. -/
def checkKeyMatches (hostPath : GoString) (hostEntries : Entries) (key : GoString)
    (want : Option GoString) : List FsckFinding :=
  match want with
  | none => []
  | some want =>
    if trimSpace ((hostEntries.getFirst key).getD []) ≠ want then
      [fsckError hostPath (.keyMismatch key)]
    else []

/-- `ParseEd25519PrivatePEM`, then the public half as text. -/
def edPublicText [PKCS8] (b : GoString) : Option GoString :=
  (parseEd25519PrivatePEM b).map fun priv => priv.public.string

/-- `ParseWireGuardPrivate` of the trimmed text, then the public half as text. -/
def wgPublicText [Curve25519] (b : GoString) : Option GoString :=
  (parseKey (trimSpace b)).map fun priv => (Curve25519.publicKey priv).string

def checkHostMatchesPrivate [PKCS8] [Curve25519] (hostPath : GoString) (hostEntries : Entries)
    (edPath wgPath : GoString) : List FsckFinding :=
  checkKeyMatches hostPath hostEntries (str "Ed25519PublicKey")
      ((fs.readFile edPath).toOption.bind edPublicText)
    ++ checkKeyMatches hostPath hostEntries (str "WGPublicKey")
      ((fs.readFile wgPath).toOption.bind wgPublicText)

/-- `hosts/<Name>` against the private keys; a name that is missing is not looked for. -/
def checkOwnHost [PKCS8] [Curve25519] (name : GoString) : List FsckFinding :=
  if name = [] then []
  else
    let hostPath := p.hostFile name
    match fs.readFile hostPath with
    | .error e => [fsckError hostPath (.hostMissing e)]
    | .ok hostBytes =>
      match Config.parse hostBytes with
      | .error e => [fsckError hostPath (.parse e)]
      | .ok hostEntries =>
        checkHostMatchesPrivate fs hostPath hostEntries p.ed25519Private p.wgPrivate

def checkConnectTo (confPath target : GoString) : List FsckFinding :=
  match Nodename.validate target with
  | .error e => [fsckError confPath (.connectToInvalid target e)]
  | .ok _ =>
    let hostPath := p.hostFile target
    match fs.stat hostPath with
    | .error _ => [fsckError hostPath (.connectToMissing target hostPath)]
    | .ok _ => []

/-- `Fsck`. -/
def fsck [PKCS8] [Curve25519] : List FsckFinding :=
  let confPath := p.confFile
  match fs.stat confPath with
  | .error e => [fsckError confPath (.cannotStat e)]
  | .ok true => [fsckError confPath .isDirectory]
  | .ok false =>
    match loadDirectory fs confPath with
    | .error e => [fsckError confPath (.parse e)]
    | .ok entries =>
      let name := entries.getFirst (str "Name")
      checkName confPath name
        ++ (entries.getAll (str "Subnet")).flatMap (checkSubnet confPath)
        ++ checkPrivateKey fs perm p.ed25519Private (str "Ed25519")
            (fun b => (parseEd25519PrivatePEM b).isSome)
        ++ checkPrivateKey fs perm p.wgPrivate (str "WireGuard")
            (fun b => (parseKey (trimSpace b)).isSome)
        ++ checkOwnHost fs p (name.getD [])
        ++ (entries.getAll (str "ConnectTo")).flatMap (checkConnectTo fs p confPath)

end

/-! ## What a clean tree is -/

/-- No finding is an error. -/
def NoError (findings : List FsckFinding) : Prop := ∀ f ∈ findings, f.level ≠ .error

instance (findings : List FsckFinding) : Decidable (NoError findings) :=
  inferInstanceAs (Decidable (∀ f ∈ findings, _))

theorem noError_nil : NoError [] := fun _ hf => absurd hf List.not_mem_nil

theorem noError_append {xs ys : List FsckFinding} :
    NoError (xs ++ ys) ↔ NoError xs ∧ NoError ys := List.forall_mem_append

theorem noError_flatMap {α : Type} {l : List α} {check : α → List FsckFinding} :
    NoError (l.flatMap check) ↔ ∀ a ∈ l, NoError (check a) := by
  unfold NoError
  simp only [List.mem_flatMap]
  exact ⟨fun h a ha f hf => h f ⟨a, ha, hf⟩, fun h f ⟨a, ha, hf⟩ => h a ha f hf⟩

theorem not_noError (path : GoString) (message : FsckMessage) :
    ¬ NoError [fsckError path message] :=
  fun h => h _ List.mem_cons_self rfl

section Clean

variable {fs : FileSystem} {perm : GoString → UInt32} {p : Paths}

theorem checkName_clean {confPath : GoString} {name : Option GoString} :
    NoError (checkName confPath name)
      ↔ ∃ n, name = some n ∧ Nodename.validate n = .ok () := by
  unfold checkName
  cases name with
  | none => exact iff_of_false (not_noError _ _) fun ⟨n, hn, _⟩ => by cases hn
  | some n =>
      cases hv : Nodename.validate n with
      | error e =>
          simp only [hv]
          refine iff_of_false (not_noError _ _) ?_
          rintro ⟨n', hn, hok⟩
          cases hn
          rw [hv] at hok
          cases hok
      | ok u =>
          simp only [hv]
          exact iff_of_true noError_nil ⟨n, rfl, hv⟩

theorem checkSubnet_clean {confPath s : GoString} :
    NoError (checkSubnet confPath s) ↔ ∃ sub, Subnet.parse s = .ok sub := by
  unfold checkSubnet
  cases Subnet.parse s with
  | error e => exact iff_of_false (not_noError _ _) fun ⟨sub, h⟩ => by cases h
  | ok sub => exact iff_of_true noError_nil ⟨sub, rfl⟩

/-- Permissions do not matter, and what can be read can be found. -/
theorem checkPrivateKey_clean {path label : GoString} {parses : GoString → Bool} :
    NoError (checkPrivateKey fs perm path label parses)
      ↔ ∃ b, fs.readFile path = .ok b ∧ parses b = true := by
  have hwarning : NoError (if perm path &&& 0o077 ≠ 0 then
      [⟨.warning, path, .loosePermissions label (perm path)⟩] else []) := by
    split
    · intro f hf
      rw [List.mem_singleton.mp hf]
      simp
    · exact noError_nil
  unfold checkPrivateKey
  cases hread : fs.readFile path with
  | error e =>
      refine iff_of_false ?_ fun ⟨b, h, _⟩ => by cases h
      split
      · exact not_noError _ _
      · exact fun h => not_noError _ _ (noError_append.mp h).2
  | ok b =>
      simp only [FileSystem.stat_of_readFile hread]
      rw [noError_append, and_iff_right hwarning]
      by_cases hp : parses b = true
      · rw [if_pos hp]
        exact iff_of_true noError_nil ⟨b, rfl, hp⟩
      · rw [if_neg hp]
        refine iff_of_false (not_noError _ _) ?_
        rintro ⟨b', hb, h⟩
        cases hb
        exact hp h

theorem checkKeyMatches_clean {hostPath key want : GoString} {hostEntries : Entries} :
    NoError (checkKeyMatches hostPath hostEntries key (some want))
      ↔ trimSpace ((hostEntries.getFirst key).getD []) = want := by
  simp only [checkKeyMatches]
  split
  · rename_i h
    exact iff_of_false (not_noError _ _) h
  · rename_i h
    exact iff_of_true noError_nil (not_not.mp h)

theorem checkConnectTo_clean {confPath target : GoString} :
    NoError (checkConnectTo fs p confPath target)
      ↔ Nodename.validate target = .ok () ∧ ∃ d, fs.stat (p.hostFile target) = .ok d := by
  unfold checkConnectTo
  cases Nodename.validate target with
  | error e => exact iff_of_false (not_noError _ _) fun h => by cases h.1
  | ok u =>
      cases hstat : fs.stat (p.hostFile target) with
      | error e =>
          simp only [hstat]
          exact iff_of_false (not_noError _ _) fun ⟨_, d, h⟩ => by cases h
      | ok d =>
          simp only [hstat]
          exact iff_of_true noError_nil ⟨trivial, d, rfl⟩

end Clean

/-- A tree in which `Fsck` finds no error. -/
structure FsckClean [PKCS8] [Curve25519] (fs : FileSystem) (p : Paths) (es : Entries) : Prop where
  file : fs.stat p.confFile = .ok false
  conf : loadDirectory fs p.confFile = .ok es
  subnets : ∀ s ∈ es.getAll (str "Subnet"), ∃ sub, Subnet.parse s = .ok sub
  /-- Both keys can be read, and the host file of the node has their public halves. -/
  own : ∃ name edBytes edPublic wgBytes wgPublic hostBytes hostEntries,
    es.getFirst (str "Name") = some name ∧ Nodename.validate name = .ok ()
      ∧ fs.readFile p.ed25519Private = .ok edBytes ∧ edPublicText edBytes = some edPublic
      ∧ fs.readFile p.wgPrivate = .ok wgBytes ∧ wgPublicText wgBytes = some wgPublic
      ∧ fs.readFile (p.hostFile name) = .ok hostBytes
      ∧ Config.parse hostBytes = .ok hostEntries
      ∧ trimSpace ((hostEntries.getFirst (str "Ed25519PublicKey")).getD []) = edPublic
      ∧ trimSpace ((hostEntries.getFirst (str "WGPublicKey")).getD []) = wgPublic
  connectTo : ∀ target ∈ es.getAll (str "ConnectTo"),
    Nodename.validate target = .ok () ∧ ∃ d, fs.stat (p.hostFile target) = .ok d

/-- A key that parses has a public half. -/
theorem isSome_edPublicText [PKCS8] {b : GoString} :
    (parseEd25519PrivatePEM b).isSome = true ↔ ∃ t, edPublicText b = some t := by
  cases h : parseEd25519PrivatePEM b <;> simp [edPublicText, h]

theorem isSome_wgPublicText [Curve25519] {b : GoString} :
    (parseKey (trimSpace b)).isSome = true ↔ ∃ t, wgPublicText b = some t := by
  cases h : parseKey (trimSpace b) <;> simp [wgPublicText, h]

section Tree

variable [PKCS8] [Curve25519] {fs : FileSystem} {perm : GoString → UInt32} {p : Paths}

/-- The host file of a node whose keys can be had. -/
theorem checkOwnHost_clean {name edBytes edPublic wgBytes wgPublic : GoString} (hname : name ≠ [])
    (hed : fs.readFile p.ed25519Private = .ok edBytes)
    (hedPublic : edPublicText edBytes = some edPublic)
    (hwg : fs.readFile p.wgPrivate = .ok wgBytes)
    (hwgPublic : wgPublicText wgBytes = some wgPublic) :
    NoError (checkOwnHost fs p name) ↔ ∃ hostBytes hostEntries,
      fs.readFile (p.hostFile name) = .ok hostBytes ∧ Config.parse hostBytes = .ok hostEntries
        ∧ trimSpace ((hostEntries.getFirst (str "Ed25519PublicKey")).getD []) = edPublic
        ∧ trimSpace ((hostEntries.getFirst (str "WGPublicKey")).getD []) = wgPublic := by
  rw [checkOwnHost, if_neg hname]
  cases hread : fs.readFile (p.hostFile name) with
  | error e =>
      simp only [hread]
      exact iff_of_false (not_noError _ _) fun ⟨_, _, h, _⟩ => by cases h
  | ok hostBytes =>
      cases hparse : Config.parse hostBytes with
      | error e =>
          simp only [hread, hparse]
          refine iff_of_false (not_noError _ _) ?_
          rintro ⟨b, es, hb, hes, -⟩
          cases hb
          rw [hparse] at hes
          cases hes
      | ok hostEntries =>
          simp only [hread, hparse, checkHostMatchesPrivate, hed, hwg, Except.toOption,
            Option.bind_some, hedPublic, hwgPublic]
          rw [noError_append, checkKeyMatches_clean, checkKeyMatches_clean]
          constructor
          · exact fun h => ⟨hostBytes, hostEntries, rfl, hparse, h.1, h.2⟩
          · rintro ⟨b, es, hb, hes, h1, h2⟩
            cases hb
            rw [hparse] at hes
            cases hes
            exact ⟨h1, h2⟩

/-- **What `Fsck` looks for**, whatever the permissions are. -/
theorem fsck_clean_iff : NoError (fsck fs perm p) ↔ ∃ conf, FsckClean fs p conf := by
  unfold fsck
  cases hstat : fs.stat p.confFile with
  | error e =>
      simp only [hstat]
      refine iff_of_false (not_noError _ _) fun ⟨conf, h⟩ => ?_
      cases hstat.symm.trans h.file
  | ok d =>
  cases d with
  | true =>
      simp only [hstat]
      refine iff_of_false (not_noError _ _) fun ⟨conf, h⟩ => ?_
      cases hstat.symm.trans h.file
  | false =>
  cases hconf : loadDirectory fs p.confFile with
  | error e =>
      simp only [hstat, hconf]
      refine iff_of_false (not_noError _ _) fun ⟨conf, h⟩ => ?_
      cases hconf.symm.trans h.conf
  | ok entries =>
      simp only [hstat, hconf]
      simp only [noError_append, noError_flatMap, checkName_clean, checkSubnet_clean,
        checkPrivateKey_clean, checkConnectTo_clean, isSome_edPublicText, isSome_wgPublicText]
      constructor
      · rintro ⟨⟨⟨⟨⟨⟨name, hname, hvalid⟩, hsubnets⟩, edBytes, hed, edPublic, hedPublic⟩, wgBytes,
          hwg, wgPublic, hwgPublic⟩, hown⟩, hconnect⟩
        rw [hname, Option.getD_some, checkOwnHost_clean (Nodename.ne_nil_of_validate hvalid) hed
          hedPublic hwg hwgPublic] at hown
        obtain ⟨hostBytes, hostEntries, hread, hparse, h1, h2⟩ := hown
        exact ⟨entries, hstat, hconf, hsubnets, ⟨name, edBytes, edPublic, wgBytes, wgPublic,
          hostBytes, hostEntries, hname, hvalid, hed, hedPublic, hwg, hwgPublic, hread, hparse,
          h1, h2⟩, hconnect⟩
      · rintro ⟨conf, h⟩
        cases hconf.symm.trans h.conf
        obtain ⟨name, edBytes, edPublic, wgBytes, wgPublic, hostBytes, hostEntries, hname, hvalid,
          hed, hedPublic, hwg, hwgPublic, hread, hparse, h1, h2⟩ := h.own
        refine ⟨⟨⟨⟨⟨⟨name, hname, hvalid⟩, h.subnets⟩, edBytes, hed, edPublic, hedPublic⟩, wgBytes,
          hwg, wgPublic, hwgPublic⟩, ?_⟩, h.connectTo⟩
        rw [hname, Option.getD_some, checkOwnHost_clean (Nodename.ne_nil_of_validate hvalid) hed
          hedPublic hwg hwgPublic]
        exact ⟨hostBytes, hostEntries, hread, hparse, h1, h2⟩

end Tree

end Gsnet.Daemon
