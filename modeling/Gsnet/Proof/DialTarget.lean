import Gsnet.Daemon.Run
import Gsnet.Proof.HostData

/-!
# Where a new node dials

An invitation URL and the host file a new node dials from are filled from different
places. The URL has the address and the port of `gsnet.conf`; the host file has the
same address, which another one in `hosts/<inviter>` replaces, and no port but what
stands in `hosts/<inviter>`. Without one the daemon of the new node takes the port
it listens on itself.

So the two agree exactly if `hosts/<inviter>` gives the port again, or the new node
happens to listen on it, and if no other address stands there (`DialsInvited`). Only
what stands before another `Name` counts, since the rest is in another block.
-/

namespace Gsnet.Cli

open Go Config Daemon Invite Lib

/-- `%s:%d`. -/
def hostPort (addr : GoString) (port : Int64) : GoString := addr ++ 0x3A :: formatInt port

theorem hostPort_inj {a a' : GoString} {p p' : Int64} :
    hostPort a p = hostPort a' p' ↔ a = a' ∧ p = p' := by
  have hcolon : ∀ i : Int64, (0x3A : UInt8) ∉ formatInt i := notMem_formatInt (by decide)
  constructor
  · intro h
    obtain ⟨ha, hp⟩ := append_cons_inj_right (hcolon p) (hcolon p') h
    have hparse := congrArg parseInt hp
    rw [parseInt_formatInt, parseInt_formatInt] at hparse
    exact ⟨ha, Option.some.inj hparse⟩
  · rintro ⟨rfl, rfl⟩
    rfl

/-! ## From the block to the target -/

section Block

variable {b : Block} {es : Entries}

/-- A key without a field is looked up as if the entries with fields were not there. -/
theorem getFirst_filter (es : Entries) {key : GoString}
    (h : ∀ k ∈ structural, equalFold key k = false) :
    Entries.getFirst (es.filter fun e => !isStructural e) key = es.getFirst key := by
  unfold Entries.getFirst
  rw [List.find?_filter]
  congr 2
  funext e
  by_cases he : equalFold e.key key = true
  · -- the key of the entry folds to this one, which has no field
    have hfold : foldName e.key = foldName key := by simpa [equalFold] using he
    have hother : isStructural e = false := by
      rw [isStructural, List.any_eq_false]
      intro k hk
      have := h k hk
      simpa [equalFold, hfold] using this
    simp [he, hother]
  · simp [he]

theorem getFirst_port_inviterHost :
    (inviterHost b).getFirst (str "Port") = Entries.getFirst b.other (str "Port") := by
  have hkey : equalFold (str "Address") (str "Port") = false := by decide
  unfold inviterHost
  split
  · simp [Entries.getFirst, hkey]
  · rfl

theorem getFirst_address_inviterHost (hb : b = blockFromEntries es) :
    (inviterHost b).getFirst (str "Address") = if b.address = [] then none else some b.address := by
  have hkey : equalFold (str "Address") (str "Address") = true := by decide
  have hmem : str "Address" ∈ structural := by decide
  unfold inviterHost
  by_cases hne : b.address = []
  · rw [if_neg (not_not.mpr hne), if_pos hne, List.nil_append, hb, (blockFromEntries_spec es).2.2,
      Entries.getFirst, Option.map_eq_none_iff, List.find?_eq_none]
    intro e he
    have hother := (List.mem_filter.mp he).2
    rw [isStructural, Bool.not_eq_true', List.any_eq_false] at hother
    exact hother _ hmem
  · rw [if_pos hne, if_neg hne]
    simp [Entries.getFirst, hkey]

end Block

/-- What a daemon listens on, by its configuration. -/
def listenPort (conf : Entries) : Int64 :=
  if (atoiOf conf (str "Port")).getD 0 = 0 then 51820 else (atoiOf conf (str "Port")).getD 0

section Joiner

variable [Sha256] [Curve25519] [PKCS8] {p : Paths} {fs : FileSystem} {net : Network}
  {keys : FreshKeys} {arg : GoString} {j : Joined} {l : Loaded}

/-- **What the new node dials is what the block of the inviter says.** -/
theorem dialTarget_joined (h : Joins p fs net keys arg j) (hload : load j.fs j.paths = .ok l)
    {addr : GoString} {port : Int64} (hne : addr ≠ []) :
    dialTarget j.fs j.paths l j.inviter.name = some (hostPort addr port)
      ↔ (inviterHost j.inviter).Short ∧ j.inviter.address = addr
        ∧ (atoiOf j.inviter.other (str "Port")).getD (listenPort l.conf) = port := by
  obtain ⟨u, body, -, -, hfile⟩ := h.fetched
  obtain ⟨rest, hhosts⟩ := h.inviter
  obtain ⟨-, es, hes, hb⟩ := parseFile_hosts hfile j.inviter (hhosts ▸ List.mem_cons_self)
  have hport : l.wgListenPort = listenPort l.conf := (loads_of_load hload).port
  have hatoi : atoiOf (inviterHost j.inviter) (str "Port")
      = atoiOf j.inviter.other (str "Port") := by
    rw [atoiOf, getFirst_port_inviterHost]
    rfl
  have hfile : Config.parseFile j.fs (j.paths.hostFile j.inviter.name)
      = Config.parse (inviterHost j.inviter).render := by
    rw [Config.parseFile, h.inviterFile]
  rw [dialTarget, hfile]
  by_cases hshort : (inviterHost j.inviter).Short
  · have hparse : Config.parse (inviterHost j.inviter).render = .ok (inviterHost j.inviter) := by
      rw [hb]
      exact (parse_inviterHost hes).mpr ⟨hb ▸ hshort, rfl⟩
    rw [hparse, and_iff_right hshort]
    simp only [getFirst_address_inviterHost hb, hatoi, hport]
    by_cases hnil : j.inviter.address = []
    · rw [if_pos hnil, hnil]
      simp [hne.symm]
    · rw [if_neg hnil, Option.map_some, Option.some.injEq]
      exact hostPort_inj
  · refine ⟨fun hsome => ?_, fun hall => absurd hall.1 hshort⟩
    cases hparse : Config.parse (inviterHost j.inviter).render with
    | error e =>
        rw [hparse] at hsome
        cases hsome
    | ok new =>
        rw [hb] at hparse hshort
        exact absurd ((parse_inviterHost hes).mp hparse).1 hshort

end Joiner

/-! ## From the inviter to the block -/

/-- What `hosts/<inviter>` has to say for the target to be that of the URL. -/
structure DialsInvited (es : Entries) (own : Int64) (addr : GoString) (port : Int64) : Prop where
  /-- No other address, or none after this one. -/
  address : (es.getAll (str "Address")).getLastD addr = addr
  /-- The port, unless it is that of the new node anyway. -/
  port : (atoiOf es (str "Port")).getD own = port

/-- The block of the inviter ends at the first name in the host file. -/
theorem inviter_of_invitation {netname invitee selfName addr body : GoString} {es : Entries}
    {f : File} {b : Block} {rest : List Block} (h : Inviting invitee selfName addr es)
    (hnet : PlainNetname netname)
    (hbody : body = (invitation netname invitee selfName addr es).render)
    (hfile : Invite.parseFile body = .ok f) (hhosts : f.hosts = b :: rest) :
    b = readBack selfName addr (beforeName es) ∧ (inviterEntries selfName addr es).Short := by
  obtain ⟨first, blocks, hscan, -, hmap, -, -⟩ := parseFile_eq_ok.mp hfile
  rw [hbody] at hscan
  obtain ⟨-, hshort, -, net, htoks, hblocks⟩ := (scanBlocks_invitation h).mp hscan
  obtain ⟨-, net', htoks', hplain⟩ := (plainNetname_iff netname).mp hnet
  cases htoks.symm.trans htoks'
  have hpre := @blocks_of_plain invitee selfName addr es net hplain
  rw [← hblocks] at hpre
  obtain ⟨-, hpre⟩ := List.cons_prefix_cons.mp hpre
  obtain ⟨more, rfl⟩ := hpre
  rw [hhosts, mapM_eq_ok, List.singleton_append, List.forall₂_cons] at hmap
  exact ⟨(hostBlock_eq_ok.mp hmap.1).1, hshort⟩

theorem subset_beforeName (selfName addr : GoString) (es : Entries) :
    inviterEntries selfName addr (beforeName es) ⊆ inviterEntries selfName addr es :=
  List.cons_subset_cons _ (List.cons_subset_cons _ (List.takeWhile_sublist _).subset)

/-- The block says what the host file says up to there. -/
theorem readBack_dials {selfName addr : GoString} {es : Entries} {own port : Int64} :
    (readBack selfName addr es).address = addr
        ∧ (atoiOf (readBack selfName addr es).other (str "Port")).getD own = port
      ↔ DialsInvited es own addr port := by
  have hatoi : atoiOf (readBack selfName addr es).other (str "Port") = atoiOf es (str "Port") := by
    rw [atoiOf, other_readBack, getFirst_filter es (by decide +kernel)]
    rfl
  rw [address_readBack, hatoi]
  exact ⟨fun h => ⟨h.1, h.2⟩, fun h => ⟨h.address, h.port⟩⟩

/--
**Where a joined node dials.** The target is the address and the port of the
invitation URL exactly if the block of the inviter says so, the port of the new node
standing in for one that is missing. The block is what stands in `hosts/<inviter>`
before another name, unless the address holds a slash, which ends it in the URL, or
the name of the network is no plain entry.
-/
theorem dials_invited_iff [PKCS8] [Sha256] [Curve25519] {p pJ : Paths} {fs fs' fsJ : FileSystem}
    {seed : CookieSeed} {invitee url selfName addr : GoString} {port : Int64} {conf es : Entries}
    {net : Network} {keys : FreshKeys} {j : Joined} {l : Loaded}
    (hinvite : cmdInvite p fs seed [invitee] = .ok (fs', url))
    (hconf : loadDirectory fs p.confFile = .ok conf)
    (hname : conf.getFirst (str "Name") = some selfName)
    (haddr : conf.getFirst (str "Address") = some addr)
    (hport : (conf.getFirst (str "Port")).bind sscanInt = some port)
    (hrange : 0 < port ∧ port ≤ 65535)
    (hhost : Config.parseFile fs (p.hostFile selfName) = .ok es)
    (hserved : ∀ a cookie keyHash body, net.inviteGet a cookie keyHash = some body →
      (handleInviteGet fs' p cookie).reply = .ok body)
    (hjoin : cmdJoin pJ fsJ net keys [url] = .ok j) (hload : load j.fs j.paths = .ok l) :
    (dialTarget j.fs j.paths l j.inviter.name = some (hostPort addr port)
      ↔ (inviterHost j.inviter).Short ∧ j.inviter.address = addr
        ∧ (atoiOf j.inviter.other (str "Port")).getD (listenPort l.conf) = port)
    ∧ (0x2F ∉ addr → PlainNetname p.netname → j.inviter.name = selfName
      ∧ (dialTarget j.fs j.paths l selfName = some (hostPort addr port)
        ↔ DialsInvited (beforeName es) (listenPort l.conf) addr port)) := by
  obtain ⟨hinvitee, made, edPriv, hmade, hurl, htext⟩ := cmdInvite_ok hinvite hconf hname
  rw [haddr, Option.getD_some] at hurl
  rw [haddr, Option.getD_some, selfEntries_of_parseFile hmade hhost] at htext
  have hinviting := inviting_of_conf hinvitee (loadDirectory_parsed hconf) hname haddr
    (parseFile_parsed hhost)
  have hjoins := joins_of_cmdJoin hjoin
  have htarget := @dialTarget_joined _ _ _ pJ fsJ net keys url j l hjoins hload addr port
    hinviting.addr_ne_nil
  refine ⟨htarget, fun hslash hnet => ?_⟩
  obtain ⟨u, body, hparse, hget, hfile⟩ := hjoins.fetched
  obtain ⟨rest, hhosts⟩ := hjoins.inviter
  -- the URL is read as it was built
  have hinvitePort : invitePort conf = port := by
    obtain ⟨v, hv, hscan⟩ := Option.bind_eq_some_iff.mp hport
    simp only [invitePort, hv, hscan, Option.getD_some]
  have hu : u = buildURL addr port edPriv.public (newCookie seed) := by
    rw [hurl, hinvitePort, parseURL_string hinviting.addr_ne_nil hslash hrange
      edPriv.public.length_hash (newCookie_ne_nil seed)] at hparse
    exact (Except.ok.inj hparse).symm
  -- so the body is the invitation
  have hbody : body = (invitation p.netname invitee selfName addr es).render := by
    have hreply := hserved _ _ _ body hget
    have hcookie : u.cookie = newCookie seed := by rw [hu, buildURL]
    rw [hcookie, handleInviteGet] at hreply
    simp only [htext] at hreply
    exact (Except.ok.inj hreply).symm
  obtain ⟨hb, hshort⟩ := inviter_of_invitation hinviting hnet hbody hfile hhosts
  have hnoname : ∀ e ∈ beforeName es, isName e = false := fun e he => by
    simpa using List.mem_takeWhile_imp he
  have hselfName : j.inviter.name = selfName := by
    rw [hb, name_readBack hnoname]
  have hshort' : (inviterHost j.inviter).Short := by
    rw [hb]
    exact short_inviterHost fun e he => hshort e (subset_beforeName selfName addr es he)
  refine ⟨hselfName, ?_⟩
  rw [hselfName, and_iff_right hshort', hb] at htarget
  exact htarget.trans readBack_dials

section Sample

attribute [local instance] clearPKCS8 clearSha256 clearCurve25519

/-- Node `a` listens on a port of its own; this is its host file. -/
def sampleListener (host : String) : FileSystem :=
  .ofFiles [
    (sampleLoc ["gsnet.conf"], str "Name = a\nAddress = vpn.example\nPort = 655\n"),
    (sampleLoc ["ed25519_key.priv"], (sampleSigner 1).raw),
    (sampleLoc ["hosts", "a"],
      str "Ed25519PublicKey = " ++ (sampleSigner 1).public.string ++ [0x0A] ++ str host)]

/-- A network that delivers what the daemon with this tree serves. -/
def sampleServing (fs : FileSystem) : Network where
  inviteGet _ cookie _ := (handleInviteGet fs samplePaths cookie).reply.toOption
  inviteJoin _ _ _ _ _ := true

def sampleKeys : FreshKeys := ⟨sampleSigner 2, (sampleSigner 2).raw, sampleWG 2⟩

/-- Node `b` follows the URL. -/
def sampleJoined (host : String) : Option Joined :=
  (cmdInvite samplePaths (sampleListener host) sampleSeed [str "b"]).toOption.bind fun r =>
    (cmdJoin samplePaths (.ofFiles []) (sampleServing r.1) sampleKeys [r.2]).toOption

/-- And dials. -/
def sampleTarget (host : String) : Option GoString :=
  (sampleJoined host).bind fun j =>
    (load j.fs j.paths).toOption.bind fun l => dialTarget j.fs j.paths l (str "a")

/-- What node `a` has configured. -/
def sampleConf : Entries :=
  [⟨str "Name", str "a"⟩, ⟨str "Address", str "vpn.example"⟩, ⟨str "Port", str "655"⟩]

/-- A host file that gives the port again. -/
def sampleHost : Entries :=
  [⟨str "Ed25519PublicKey", (sampleSigner 1).public.string⟩, ⟨str "Port", str "655"⟩]

theorem sampleHost_dials (own : Int64) :
    DialsInvited (beforeName sampleHost) own (str "vpn.example") 655 where
  address := by decide +kernel
  port := by
    have hport : atoiOf (beforeName sampleHost) (str "Port") = some 655 := by decide +kernel
    rw [hport, Option.getD_some]

/-- The port is in both places. -/
theorem dials_invited_port : sampleTarget "Port = 655\n" = some (str "vpn.example:655") := by
  have hok : (sampleJoined "Port = 655\n").any
      (fun j => (load j.fs j.paths).toBool) = true := by decide +kernel
  rw [Option.any_eq_true] at hok
  obtain ⟨j, hj, hl⟩ := hok
  obtain ⟨⟨fs', url⟩, hinvite, hjoin⟩ := Option.bind_eq_some_iff.mp hj
  rw [toOption_eq_some] at hinvite hjoin
  cases hload : load j.fs j.paths with
  | error e =>
      rw [hload] at hl
      cases hl
  | ok l =>
      have hconf : loadDirectory (sampleListener "Port = 655\n") samplePaths.confFile
          = .ok sampleConf := by decide +kernel
      have haddr : sampleConf.getFirst (str "Address") = some (str "vpn.example") := by
        decide +kernel
      have hport : (sampleConf.getFirst (str "Port")).bind sscanInt = some 655 := by
        decide +kernel
      have hhost : Config.parseFile (sampleListener "Port = 655\n")
          (samplePaths.hostFile (str "a")) = .ok sampleHost := by decide +kernel
      obtain ⟨-, hiff⟩ := (dials_invited_iff hinvite hconf (by decide +kernel) haddr hport
        (by decide) hhost (fun _ _ _ _ h => toOption_eq_some.mp h) hjoin hload).2
        (by decide +kernel) plainNetname_sample
      rw [sampleTarget, hj, Option.bind_some, hload]
      exact hiff.mpr (sampleHost_dials _)

/-- It is not, and the new node takes its own. -/
theorem dials_elsewhere :
    (cmdInvite samplePaths (sampleListener "") sampleSeed [str "b"]).map
        (fun r => (parseURL r.2).map fun u => (u.host, u.port))
      = .ok (.ok (str "vpn.example", 655))
    ∧ sampleTarget "" = some (str "vpn.example:51820") := by
  decide +kernel

end Sample

end Gsnet.Cli
