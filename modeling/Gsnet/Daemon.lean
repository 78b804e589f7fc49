import Gsnet.Config
import Gsnet.Dataplane
import Gsnet.Gossip.Plane
import Gsnet.Lib.Fallible
import Gsnet.Subnet

/-!
# The daemon

`internal/daemon`: loading the configuration, discovering the public endpoint,
announcing both, and building the desired state of the data plane from the
configuration, the gossip plane and the host files.
-/

namespace Gsnet.Daemon

open Go Config Gossip Dataplane Lib

/-! ## Paths -/

/-- Where the files of a network are. -/
structure Paths where
  confRoot : GoString
  netname : GoString
  deriving DecidableEq

namespace Paths

variable (p : Paths)

def netDir : GoString := if p.netname = [] then p.confRoot else join [p.confRoot, p.netname]
def confFile : GoString := join [p.netDir, str "gsnet.conf"]
def hostsDir : GoString := join [p.netDir, str "hosts"]
def hostFile (name : GoString) : GoString := join [p.hostsDir, name]
def invitationsDir : GoString := join [p.netDir, str "invitations"]
def ed25519Private : GoString := join [p.netDir, str "ed25519_key.priv"]
def wgPrivate : GoString := join [p.netDir, str "wg.priv"]

end Paths

/-! ## Loading -/

/-- What a daemon has loaded. `none` is the zero prefix. -/
structure Loaded where
  nodeName : GoString
  conf : Entries
  edPriv : Ed25519Private
  wgPriv : WGKey
  mode : Mode
  wgInterface : GoString
  wgListenPort : Int64
  vxlanIface : GoString
  vxlanID : UInt32
  vxlanPort : UInt16
  mtu : Int64
  /-- Overlay address, assigned to the VXLAN device. -/
  innerAddr : Option Prefix
  /-- Underlay address, assigned to the WireGuard interface. -/
  underlayAddr : Option Prefix
  subnets : List Subnet
  deriving DecidableEq

inductive LoadError where
  | config (e : Config.Error)
  /-- `config: Name is required`. -/
  | nameRequired
  /-- `read ed25519 private key`. -/
  | readEd25519 (e : OsError)
  | badEd25519
  /-- `read wg private key`. -/
  | readWG (e : OsError)
  | badWG
  /-- `unknown Mode %q (want switch, hub, router)`. -/
  | unknownMode (v : GoString)
  /-- `InnerAddress %q`. -/
  | innerAddress (v : GoString)
  /-- `UnderlayAddress %q`. -/
  | underlayAddress (v : GoString)
  /-- `Subnet %q`. -/
  | subnet (v : GoString) (e : Subnet.Error)
  deriving DecidableEq

/-- An error of another package under a heading of this one. -/
def wrap {ε ε' α : Type} (f : ε → ε') : Except ε α → Except ε' α
  | .ok a => .ok a
  | .error e => .error (f e)

/-- `parseAddrOrPrefix`: a bare address is a prefix of full length. -/
def parseAddrOrPrefix (v : GoString) : Option Prefix :=
  match parsePrefix v with
  | some p => some p
  | none => (parseAddr v).map fun a => prefixFrom a a.bitLen

/-- `firstNonEmpty`: the first of the keys with a value, or the last argument. -/
def firstNonEmpty (es : Entries) (keys : List GoString) (fallback : GoString) : GoString :=
  (keys.findSome? fun k => (es.getFirst k).filter (· ≠ [])).getD fallback

/-- A key whose value is a number, where it is one. -/
def atoiOf (es : Entries) (key : GoString) : Option Int64 := (es.getFirst key).bind parseInt

def loadMode (es : Entries) : Except LoadError Mode :=
  match es.getFirst (str "Mode") with
  | none => .ok .switch
  | some v =>
    let m := toLower v
    if m = str "switch" ∨ m = [] then .ok .switch
    else if m = str "hub" then .ok .hub
    else if m = str "router" then .ok .router
    else .error (.unknownMode v)

/-- An address of the configuration, which must parse where it is given. -/
def loadAddr (es : Entries) (key : GoString) (err : GoString → LoadError) :
    Except LoadError (Option Prefix) :=
  match es.getFirst key with
  | none => .ok none
  | some v =>
    match parseAddrOrPrefix v with
    | some p => .ok (some p)
    | none => .error (err v)

def loadSubnet (s : GoString) : Except LoadError Subnet := wrap (.subnet s) (Subnet.parse s)

/-- `load`: the configuration as it would be stored, or the error that leaves it as it was. -/
def load [PKCS8] (fs : FileSystem) (paths : Paths) : Except LoadError Loaded := do
  let entries ← wrap .config (loadDirectory fs paths.confFile)
  let name ← match entries.getFirst (str "Name") with
    | some name => .ok name
    | none => .error .nameRequired
  let edBytes ← wrap .readEd25519 (fs.readFile paths.ed25519Private)
  let edPriv ← match parseEd25519PrivatePEM edBytes with
    | some k => .ok k
    | none => .error .badEd25519
  let wgBytes ← wrap .readWG (fs.readFile paths.wgPrivate)
  let wgPriv ← match parseKey (trimSpace wgBytes) with
    | some k => .ok k
    | none => .error .badWG
  let mode ← loadMode entries
  let port := (atoiOf entries (str "Port")).getD 0
  let innerAddr ← loadAddr entries (str "InnerAddress") .innerAddress
  let underlayAddr ← loadAddr entries (str "UnderlayAddress") .underlayAddress
  let subnets ← (entries.getAll (str "Subnet")).mapM loadSubnet
  .ok {
    nodeName := name
    conf := entries
    edPriv := edPriv
    wgPriv := wgPriv
    mode := mode
    wgInterface := firstNonEmpty entries [str "WGInterface", str "Interface"] (str "wg-" ++ name)
    wgListenPort := if port = 0 then 51820 else port
    vxlanIface := firstNonEmpty entries [str "VXLANInterface", str "VXLAN"] name
    vxlanID := ((atoiOf entries (str "VXLANID")).map fun p => p.toUInt64.toUInt32).getD 42
    vxlanPort := ((atoiOf entries (str "VXLANPort")).map fun p => p.toUInt64.toUInt16).getD 4789
    mtu := ((atoiOf entries (str "MTU")).filter (0 < ·)).getD 1420
    innerAddr := innerAddr
    underlayAddr := underlayAddr
    subnets := subnets }

/-- What a successful `load` has found, for every part of the configuration that can be wrong. -/
structure Loads [PKCS8] (fs : FileSystem) (paths : Paths) (l : Loaded) : Prop where
  conf : loadDirectory fs paths.confFile = .ok l.conf
  name : l.conf.getFirst (str "Name") = some l.nodeName
  edPriv : ∃ b, fs.readFile paths.ed25519Private = .ok b
    ∧ parseEd25519PrivatePEM b = some l.edPriv
  wgPriv : ∃ b, fs.readFile paths.wgPrivate = .ok b ∧ parseKey (trimSpace b) = some l.wgPriv
  mode : loadMode l.conf = .ok l.mode
  innerAddr : loadAddr l.conf (str "InnerAddress") .innerAddress = .ok l.innerAddr
  underlayAddr : loadAddr l.conf (str "UnderlayAddress") .underlayAddress = .ok l.underlayAddr
  subnets : (l.conf.getAll (str "Subnet")).mapM loadSubnet = .ok l.subnets
  /-- The one part with a default that is read elsewhere too. -/
  port : l.wgListenPort = if (atoiOf l.conf (str "Port")).getD 0 = 0 then 51820
    else (atoiOf l.conf (str "Port")).getD 0

/-- The numbers among what was loaded, none of which can make `load` fail. -/
structure LoadedNumbers (l : Loaded) : Prop where
  vxlanID : l.vxlanID
    = ((atoiOf l.conf (str "VXLANID")).map fun p => p.toUInt64.toUInt32).getD 42
  vxlanPort : l.vxlanPort
    = ((atoiOf l.conf (str "VXLANPort")).map fun p => p.toUInt64.toUInt16).getD 4789
  mtu : l.mtu = ((atoiOf l.conf (str "MTU")).filter (0 < ·)).getD 1420

theorem wrap_eq_ok {ε ε' α : Type} {f : ε → ε'} {x : Except ε α} {a : α} :
    wrap f x = .ok a ↔ x = .ok a := by
  cases x <;> simp [wrap]

/-- **What a successful `load` has read.** -/
theorem load_spec [PKCS8] {fs : FileSystem} {paths : Paths} {l : Loaded}
    (h : load fs paths = .ok l) : Loads fs paths l ∧ LoadedNumbers l := by
  unfold load at h
  obtain ⟨entries, hentries, h⟩ := bind_eq_ok.mp h
  cases hname : entries.getFirst (str "Name") with
  | none => simp only [hname] at h; cases h
  | some name =>
  simp only [hname, ok_bind] at h
  obtain ⟨edBytes, hedBytes, h⟩ := bind_eq_ok.mp h
  cases hedPriv : parseEd25519PrivatePEM edBytes with
  | none => simp only [hedPriv] at h; cases h
  | some edPriv =>
  simp only [hedPriv] at h
  obtain ⟨wgBytes, hwgBytes, h⟩ := bind_eq_ok.mp h
  cases hwgPriv : parseKey (trimSpace wgBytes) with
  | none => simp only [hwgPriv] at h; cases h
  | some wgPriv =>
  simp only [hwgPriv] at h
  obtain ⟨mode, hmode, h⟩ := bind_eq_ok.mp h
  obtain ⟨innerAddr, hinner, h⟩ := bind_eq_ok.mp h
  obtain ⟨underlayAddr, hunderlay, h⟩ := bind_eq_ok.mp h
  obtain ⟨subnets, hsubnets, h⟩ := bind_eq_ok.mp h
  cases h
  exact ⟨⟨wrap_eq_ok.mp hentries, hname, ⟨edBytes, wrap_eq_ok.mp hedBytes, hedPriv⟩,
    ⟨wgBytes, wrap_eq_ok.mp hwgBytes, hwgPriv⟩, hmode, hinner, hunderlay, hsubnets, rfl⟩,
    rfl, rfl, rfl⟩

theorem loads_of_load [PKCS8] {fs : FileSystem} {paths : Paths} {l : Loaded}
    (h : load fs paths = .ok l) : Loads fs paths l := (load_spec h).1

/-! ## Discovery -/

/-- A gateway, by what it answers in one round. -/
structure IGD where
  /-- Protocol, external and internal port, description and lease; `false` is an error. -/
  addPortMapping : GoString → Int64 → Int64 → GoString → Int64 → Bool
  getExternalIPAddress : Option GoString

/-- What a round of discovery gets from outside; `none` is an error. -/
structure Probes where
  /-- `upnp.Discover`. -/
  discover : Option IGD
  /-- `stun.QueryOnEphemeralPort`, for the server that comes as the given one. -/
  query : Nat → GoString → Option AddrPort

def getExternalIP (igd : IGD) : Option Addr := igd.getExternalIPAddress.bind parseAddr

/-- `refreshUPnP`: the endpoint, and the gateway as the next round finds it. -/
def refreshUPnP (probes : Probes) (igd : Option IGD) (wgPort : Int64) :
    Option AddrPort × Option IGD :=
  match igd.or probes.discover with
  | none => (none, none)
  | some g =>
    if g.addPortMapping (str "UDP") wgPort wgPort (str "gsnet") 3600 then
      ((getExternalIP g).map fun ext => ⟨ext, wgPort.toUInt64.toUInt16⟩, some g)
    else (none, none)

/-- `discoverOnce`: UPnP where it is wanted, then the first STUN server that answers. -/
def discoverOnce (l : Loaded) (probes : Probes) (stunServers : List GoString)
    (upnpMode : GoString) (igd : Option IGD) : Option AddrPort × Option IGD :=
  let port := l.wgListenPort.toUInt64.toUInt16
  let (ep, igd) :=
    if upnpMode = str "yes" ∨ upnpMode = str "udponly" then
      refreshUPnP probes igd port.toUInt64.toInt64
    else (none, igd)
  (ep.or (stunServers.zipIdx.findSome? fun (srv, i) =>
    (probes.query i srv).map fun ap => ⟨ap.addr, port⟩), igd)

/-! ## Announcing -/

/-- The Hello of the local node; `ep` is the endpoint discovery has found. -/
def localHello [Curve25519] (l : Loaded) (ep : Option AddrPort) : Hello where
  name := l.nodeName
  ed25519Public := l.edPriv.public.raw
  wgPublic := (Curve25519.publicKey l.wgPriv).string
  endpoint := ep.elim [] AddrPort.string
  innerAddr := l.innerAddr.elim [] Prefix.string
  underlayAddr := l.underlayAddr.elim [] Prefix.string

/-- What the clock shows at the Hello and at each subnet. -/
structure Clock where
  hello : Int64
  subnet : Nat → Int64

/-- `announceLocal`: the Hello, then every subnet of the configuration. -/
def announceLocal [Ed25519] [Curve25519] (p : Plane) (l : Loaded) (ep : Option AddrPort)
    (clock : Clock) : Plane :=
  let p := (p.announceHello (localHello l ep) clock.hello).1
  l.subnets.zipIdx.foldl (fun p s => (p.announceAddSubnet s.1.string (clock.subnet s.2)).1) p

/-! ## The desired state -/

/-- `addrFromHostEntry`: the address of a host-file entry, without its prefix length. -/
def addrFromHostEntry (es : Entries) (key : GoString) : Option Addr :=
  (es.getFirst key).bind fun v => (parseAddrOrPrefix v).map Prefix.addr

/-- The order in which `range` happens to visit the nodes, and the subnets of each. -/
structure IterOrder where
  nodes : List GoString
  subnets : GoString → List GoString

/-- An order of the nodes and subnets of this graph. -/
def IterOrder.Of (o : IterOrder) (g : Graph) : Prop :=
  (o.nodes : Multiset GoString) = g.nodeNames
    ∧ ∀ x ∈ o.nodes, (o.subnets x : Multiset GoString) = (g.nodeSubnets x).val

instance (o : IterOrder) (g : Graph) : Decidable (o.Of g) :=
  inferInstanceAs (Decidable (_ ∧ _))

/-- The prefix of a subnet a node announces, if it parses and is one. -/
def announcedPrefix (s : GoString) : Option Prefix :=
  match Subnet.parse s with
  | .error _ => none
  | .ok sub => if sub.mac ≠ none then none else sub.cidr

/--
`allowedIPsFor`: in router mode the subnets the peer owns in the graph, in the
order they come; otherwise the peer's underlay address alone.
-/
def allowedIPsFor (o : IterOrder) (mode : Mode) (peer : GoString) (underlay : Option Addr) :
    List Prefix :=
  if mode ≠ .router then (underlay.map fun a => prefixFrom a a.bitLen).toList
  else (o.subnets peer).filterMap announcedPrefix

/-- An address of a peer: learned by gossip, or from an entry of the host file. -/
def addrFor (learned : Option Addr) (hostEntries : Entries) (key : GoString) : Option Addr :=
  learned.or (addrFromHostEntry hostEntries key)

def innerFor (p : Plane) (hostEntries : Entries) (peer : GoString) : Option Addr :=
  addrFor (p.innerAddrOf peer) hostEntries (str "InnerAddress")

def underlayFor (p : Plane) (hostEntries : Entries) (peer : GoString) : Option Addr :=
  addrFor (p.underlayAddrOf peer) hostEntries (str "UnderlayAddress")

/-- The outer endpoint of a peer: learned by gossip, or from the host file. -/
def endpointFor (l : Loaded) (p : Plane) (hostEntries : Entries) (peer : GoString) :
    Option AddrPort :=
  match parseAddrPort (p.endpointOf peer) with
  | some ep => some ep
  | none =>
    (hostEntries.getFirst (str "Address")).bind fun a =>
      let port := (atoiOf hostEntries (str "Port")).getD l.wgListenPort
      (parseAddr a).map fun addr => ⟨addr, port.toUInt64.toUInt16⟩

section BuildState

variable (fs : FileSystem) (paths : Paths) (l : Loaded) (p : Plane) (o : IterOrder)

/-- The host file of a peer and the WireGuard key it gives. -/
def hostKey (peer : GoString) : Option (Entries × WGKey) :=
  match parseFile fs (paths.hostFile peer) with
  | .error _ => none
  | .ok hostEntries =>
    (hostEntries.getFirst (str "WGPublicKey")).bind fun pubStr =>
      (parseKey pubStr).map fun k => (hostEntries, k)

/-- One round of the loop of `buildState`: the local node and those without a key are skipped. -/
def buildPeer (peer : GoString) : Option Peer :=
  if peer = l.nodeName then none
  else (hostKey fs paths peer).map fun (hostEntries, wgPub) =>
    let underlay := underlayFor p hostEntries peer
    { name := peer
      wgPublic := wgPub
      endpoint := endpointFor l p hostEntries peer
      innerAddr := innerFor p hostEntries peer
      underlayAddr := underlay
      allowedIPs := allowedIPsFor o l.mode peer underlay }

/-- `buildState`. -/
def buildState : State where
  mode := l.mode
  wgPrivate := l.wgPriv
  wgInterface := l.wgInterface
  wgListenPort := l.wgListenPort
  vxlanInterface := l.vxlanIface
  vxlanID := l.vxlanID
  vxlanPort := l.vxlanPort
  localInnerAddr := l.innerAddr
  localUnderlayAddr := l.underlayAddr
  mtu := l.mtu
  peers := o.nodes.filterMap (buildPeer fs paths l p o)

end BuildState

/-! ## A network to evaluate the model with -/

def samplePaths : Paths := ⟨str "/etc/gsnet", str "vpn"⟩

/-- Where a file of the sample network is. -/
def sampleLoc (rest : List String) : Location := (["etc", "gsnet", "vpn"] ++ rest).map str

theorem length_sampleRaw (b : UInt8) : (List.replicate 32 b).length = 32 := List.length_replicate

def sampleWG (b : UInt8) : WGKey := ⟨List.replicate 32 b, length_sampleRaw b⟩

/-- A host file that gives a WireGuard key and nothing else. -/
def sampleHostFile (name : String) (b : UInt8) : Location × GoString :=
  (sampleLoc ["hosts", name], str "WGPublicKey = " ++ (sampleWG b).string)

def sampleSigner (b : UInt8) : Ed25519Private := ⟨List.replicate 64 b⟩

/-- The plane of a node that knows the keys of `b` and `c`. -/
def samplePlane (name : String) (b : UInt8) : Plane :=
  newPlane (str name) (some (sampleSigner b)) <| some fun x =>
    if x = str "b" then some (sampleSigner 2).public
    else if x = str "c" then some (sampleSigner 3).public else none

/-- What node `a` has loaded. -/
def sampleLoaded (mode : Mode) : Loaded where
  nodeName := str "a"
  conf := []
  edPriv := sampleSigner 1
  wgPriv := sampleWG 1
  mode := mode
  wgInterface := str "wg-a"
  wgListenPort := 51820
  vxlanIface := str "a"
  vxlanID := 42
  vxlanPort := 4789
  mtu := 1420
  innerAddr := none
  underlayAddr := none
  subnets := []

end Gsnet.Daemon
