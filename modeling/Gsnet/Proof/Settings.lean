import Gsnet.Dataplane.Reconcile
import Gsnet.Go.Binary
import Gsnet.Proof.Routing

/-!
# Numbers of the configuration

`load`, `buildState` and `discoverOnce` read numbers as `int` and narrow them where
the data plane has sixteen or thirty-two bits. Nothing is checked before that, so a
number is kept where it fits, and wrapped around where it does not. The MTU is not
narrowed, but the VXLAN device gets fifty less.
-/

namespace Gsnet.Daemon

open Go Config Gossip Dataplane

theorem fits_default : Fits 16 51820 := by decide

/-- Fifty less than a positive MTU. -/
theorem sub_fifty_pos {n : Int64} (hn : 0 < n) : 0 < n - 50 ↔ 50 < n := by
  rw [Int64.lt_iff_toInt_lt] at hn ⊢
  rw [Int64.lt_iff_toInt_lt, Int64.toInt_sub]
  have hfifty : (50 : Int64).toInt = 50 := rfl
  have hzero : (0 : Int64).toInt = 0 := rfl
  have hint := n.toInt_lt
  rw [hfifty, hzero, Int.bmod_eq_of_le (by omega) (by omega)]
  omega

/-! ## What reaches the data plane -/

section Settings

variable (fs : FileSystem) (paths : Paths) (l : Loaded)

/-- Every number that is given and used is what the data plane gets. -/
structure NumbersKept : Prop where
  vxlanPort : ∀ n, atoiOf l.conf (str "VXLANPort") = some n → ∀ p o,
    ((buildState fs paths l p o).vxlanPort.toNat : Int) = n.toInt
  vxlanID : ∀ n, atoiOf l.conf (str "VXLANID") = some n → ∀ p o,
    ((buildState fs paths l p o).vxlanID.toNat : Int) = n.toInt
  /-- The port of the host file, or else of the configuration, in an endpoint that gossip
  does not give. -/
  hostPort : ∀ p o, o.Of p.g → ∀ x ∈ (buildState fs paths l p o).peers, ∀ es k ep,
    hostKey fs paths x.name = some (es, k) → parseAddrPort (p.endpointOf x.name) = none →
    x.endpoint = some ep →
    (ep.port.toNat : Int) = ((atoiOf es (str "Port")).getD l.wgListenPort).toInt
  /-- Zero stands for the default. -/
  discovered : ∀ n, atoiOf l.conf (str "Port") = some n → n ≠ 0 →
    ∀ probes stunServers upnpMode igd ep,
    (discoverOnce l probes stunServers upnpMode igd).1 = some ep →
    (ep.port.toNat : Int) = n.toInt
  /-- A number below one is replaced by the default. -/
  mtu : ∀ n, atoiOf l.conf (str "MTU") = some n → 0 < n → ∀ p o m,
    (buildState fs paths l p o).vxlanMTU = some m → 0 < m

/-- Every number that is given fits where it goes. -/
structure NumbersFit : Prop where
  vxlanPort : ∀ n, atoiOf l.conf (str "VXLANPort") = some n → Fits 16 n
  vxlanID : ∀ n, atoiOf l.conf (str "VXLANID") = some n → Fits 32 n
  /-- In the host file of another node, where it goes with an address. -/
  hostPort : ∀ x, x ≠ l.nodeName → ∀ es k a n, hostKey fs paths x = some (es, k) →
    (es.getFirst (str "Address")).bind parseAddr = some a →
    atoiOf es (str "Port") = some n → Fits 16 n
  port : ∀ n, atoiOf l.conf (str "Port") = some n → Fits 16 n
  mtu : ∀ n, atoiOf l.conf (str "MTU") = some n → 0 < n → 50 < n

end Settings

section Built

variable {fs : FileSystem} {paths : Paths} {l : Loaded}

/-- An endpoint that gossip does not give, from an address of the host file. -/
theorem endpointFor_hostFile {p : Plane} {es : Entries} {x : GoString} {ep : AddrPort}
    (hlearned : parseAddrPort (p.endpointOf x) = none) :
    endpointFor l p es x = some ep
      ↔ (es.getFirst (str "Address")).bind parseAddr = some ep.addr
        ∧ ep.port = ((atoiOf es (str "Port")).getD l.wgListenPort).toUInt64.toUInt16 := by
  unfold endpointFor
  rw [hlearned]
  dsimp only
  cases hget : es.getFirst (str "Address") with
  | none => simp
  | some a =>
      rw [Option.bind_some, Option.bind_some]
      cases haddr : parseAddr a with
      | none => simp
      | some addr =>
          obtain ⟨epAddr, epPort⟩ := ep
          simp [eq_comm]

/-- A graph can be gone through in some order. -/
theorem IterOrder.exists_of (g : Graph) : ∃ o : IterOrder, o.Of g :=
  ⟨⟨g.nodeNames.toList, fun x => (g.nodeSubnets x).toList⟩, Multiset.coe_toList _,
    fun x _ => Finset.coe_toList (g.nodeSubnets x)⟩

/-- However the endpoint was found, its port is that of the configuration as it was narrowed. -/
theorem port_discoverOnce {probes : Probes} {stunServers : List GoString} {upnpMode : GoString}
    {igd : Option IGD} {ep : AddrPort}
    (h : (discoverOnce l probes stunServers upnpMode igd).1 = some ep) :
    ep.port = l.wgListenPort.toUInt64.toUInt16 := by
  unfold discoverOnce at h
  dsimp only at h
  rcases Option.or_eq_some_iff.mp h with hupnp | ⟨-, hstun⟩
  · split at hupnp
    · unfold refreshUPnP at hupnp
      split at hupnp
      · cases hupnp
      · split at hupnp
        · obtain ⟨ext, -, hep⟩ := Option.map_eq_some_iff.mp hupnp
          rw [← hep, UInt64.toUInt64_toInt64, UInt16.toUInt16_toUInt64]
        · cases hupnp
    · cases hupnp
  · obtain ⟨⟨srv, i⟩, -, hsome⟩ := List.exists_of_findSome?_eq_some hstun
    obtain ⟨ap, -, hep⟩ := Option.map_eq_some_iff.mp hsome
    rw [← hep]

end Built

section Loaded

variable [PKCS8] {fs : FileSystem} {paths : Paths} {l : Loaded}

theorem wgListenPort_of_atoi (hload : load fs paths = .ok l) {n : Int64}
    (hn : atoiOf l.conf (str "Port") = some n) (hne : n ≠ 0) : l.wgListenPort = n := by
  rw [(load_spec hload).1.port, hn, Option.getD_some, if_neg hne]

theorem fits_wgListenPort (hload : load fs paths = .ok l)
    (hfit : ∀ n, atoiOf l.conf (str "Port") = some n → Fits 16 n) : Fits 16 l.wgListenPort := by
  rw [(load_spec hload).1.port]
  split
  · exact fits_default
  · rename_i hne
    cases hn : atoiOf l.conf (str "Port") with
    | none => rw [hn] at hne; exact absurd rfl hne
    | some n => exact hfit n hn

theorem vxlanMTU_of_atoi (hload : load fs paths = .ok l) {n : Int64}
    (hn : atoiOf l.conf (str "MTU") = some n) (hpos : 0 < n) (p : Plane) (o : IterOrder) :
    (buildState fs paths l p o).vxlanMTU = some (n - 50) := by
  have hmtu : l.mtu = n := by
    rw [(load_spec hload).2.mtu, hn, Option.filter_some, if_pos (by simpa using hpos)]
    rfl
  show Option.map _ (if 0 < l.mtu then some l.mtu else none) = _
  rw [hmtu, if_pos hpos]
  rfl

/-- Numbers that fit are kept. -/
theorem NumbersFit.kept (hload : load fs paths = .ok l) (h : NumbersFit fs paths l) :
    NumbersKept fs paths l where
  vxlanPort n hn p o := by
    show (l.vxlanPort.toNat : Int) = _
    rw [(load_spec hload).2.vxlanPort, hn]
    exact toUInt16_eq_iff.mpr (h.vxlanPort n hn)
  vxlanID n hn p o := by
    show (l.vxlanID.toNat : Int) = _
    rw [(load_spec hload).2.vxlanID, hn]
    exact toUInt32_eq_iff.mpr (h.vxlanID n hn)
  hostPort := by
    intro p o _ x hx es k ep hkey hlearned hep
    obtain ⟨name, -, hbuild⟩ := mem_peers.mp hx
    obtain ⟨hne, es', k', hkey', rfl⟩ := buildPeer_eq_some.mp hbuild
    obtain ⟨rfl, rfl⟩ := Prod.mk.inj (Option.some.inj (hkey.symm.trans hkey'))
    obtain ⟨haddr, hport⟩ := (endpointFor_hostFile hlearned).mp hep
    rw [hport]
    refine toUInt16_eq_iff.mpr ?_
    cases hn : atoiOf es (str "Port") with
    | none => exact fits_wgListenPort hload h.port
    | some n => exact h.hostPort name hne es k _ n hkey haddr hn
  discovered := by
    intro n hn hne probes stunServers upnpMode igd ep hep
    rw [port_discoverOnce hep, wgListenPort_of_atoi hload hn hne]
    exact toUInt16_eq_iff.mpr (h.port n hn)
  mtu := by
    intro n hn hpos p o m hm
    rw [vxlanMTU_of_atoi hload hn hpos] at hm
    rw [← Option.some.inj hm]
    exact (sub_fifty_pos hpos).mpr (h.mtu n hn hpos)

/-- A plane that knows one node and nothing else. -/
def onePlane (x : GoString) : Plane :=
  { newPlane [] none none with g := Graph.new.addNode x }

/-- Nothing but a STUN server that answers. -/
def oneServer : Probes := ⟨none, fun _ _ => some ⟨.v4 0, 0⟩⟩

/-- Numbers that are kept fit. -/
theorem NumbersKept.fit (hload : load fs paths = .ok l) (h : NumbersKept fs paths l) :
    NumbersFit fs paths l where
  vxlanPort n hn := by
    have hkept : (l.vxlanPort.toNat : Int) = _ := h.vxlanPort n hn (onePlane []) ⟨[], fun _ => []⟩
    rw [(load_spec hload).2.vxlanPort, hn] at hkept
    exact toUInt16_eq_iff.mp hkept
  vxlanID n hn := by
    have hkept : (l.vxlanID.toNat : Int) = _ := h.vxlanID n hn (onePlane []) ⟨[], fun _ => []⟩
    rw [(load_spec hload).2.vxlanID, hn] at hkept
    exact toUInt32_eq_iff.mp hkept
  hostPort := by
    -- the plane knows the node, and no endpoint of it
    intro x hne es k a n hkey haddr hn
    obtain ⟨o, ho⟩ := IterOrder.exists_of (onePlane x).g
    have hx : x ∈ o.nodes := by
      rw [mem_nodes ho, Graph.mem_nodeNames, onePlane, Graph.addNode, Graph.ensureNode]
      exact Option.isSome_iff_exists.mpr ⟨⟨∅⟩, GoMap.get?_set_self _ _ _⟩
    have hbuild := (@buildPeer_eq_some fs paths l (onePlane x) o x _).mpr ⟨hne, es, k, hkey, rfl⟩
    have hlearned : parseAddrPort ((onePlane x).endpointOf x) = none := by
      show parseAddrPort [] = none
      decide
    have hep := (@endpointFor_hostFile l _ _ _ ⟨a, _⟩ hlearned).mpr ⟨haddr, rfl⟩
    have hkept := h.hostPort _ o ho _ (mem_peers.mpr ⟨x, hx, hbuild⟩) es k _ hkey hlearned hep
    rw [hn] at hkept
    exact toUInt16_eq_iff.mp hkept
  port n hn := by
    by_cases hne : n = 0
    · rw [hne]
      decide
    · have hkept := h.discovered n hn hne oneServer [[]] (str "no") none _ rfl
      rw [wgListenPort_of_atoi hload hn hne] at hkept
      exact toUInt16_eq_iff.mp hkept
  mtu n hn hpos := by
    refine (sub_fifty_pos hpos).mp ?_
    exact h.mtu n hn hpos (onePlane []) ⟨[], fun _ => []⟩ _ (vxlanMTU_of_atoi hload hn hpos _ _)

/-- **Numbers reach the data plane as they are given** exactly if they fit. -/
theorem numbers_kept_iff (hload : load fs paths = .ok l) :
    NumbersKept fs paths l ↔ NumbersFit fs paths l :=
  ⟨fun h => h.fit hload, fun h => h.kept hload⟩

end Loaded

section Sample

attribute [local instance] clearPKCS8

/-- The files of node `a`, with these lines in the configuration and in `hosts/b`. -/
def settingsFiles (conf host : String) : List (Location × GoString) :=
  [(sampleLoc ["gsnet.conf"], str "Name = a\n" ++ str conf),
    (sampleLoc ["ed25519_key.priv"], (sampleSigner 1).raw),
    (sampleLoc ["wg.priv"], (sampleWG 1).string),
    (sampleLoc ["hosts", "b"], str "WGPublicKey = " ++ (sampleWG 2).string
      ++ str "\nAddress = 192.0.2.2\n" ++ str host)]

/-- What is loaded there. -/
def settingsLoaded (vxlanPort vxlanID port mtu : String) : Loaded :=
  { sampleLoaded .switch with
    conf := [⟨str "Name", str "a"⟩, ⟨str "VXLANPort", str vxlanPort⟩,
      ⟨str "VXLANID", str vxlanID⟩, ⟨str "Port", str port⟩, ⟨str "MTU", str mtu⟩] }

/-- Four numbers that fit. -/
def roomyFiles : List (Location × GoString) :=
  settingsFiles "VXLANPort = 4790\nVXLANID = 7\nPort = 655\nMTU = 1400\n" "Port = 656\n"

def roomyLoaded : Loaded :=
  { settingsLoaded "4790" "7" "655" "1400" with
    vxlanPort := 4790, vxlanID := 7, wgListenPort := 655, mtu := 1400 }

theorem forall_of_all {o : Option Int64} {P : Int64 → Prop} [DecidablePred P]
    (h : o.all (fun n => decide (P n)) = true) (n : Int64) (hn : o = some n) : P n := by
  rw [hn] at h
  exact of_decide_eq_true h

theorem numbersFit_roomy : NumbersFit (.ofFiles roomyFiles) samplePaths roomyLoaded where
  vxlanPort := forall_of_all (by decide +kernel)
  vxlanID := forall_of_all (by decide +kernel)
  hostPort := by
    -- whatever the name, the file is one of the four
    intro x _ es k a n hkey _ hn
    have hfit : (roomyFiles.map Prod.snd).all (fun c =>
        ((Config.parse c).toOption.bind (atoiOf · (str "Port"))).all
          fun n => decide (Fits 16 n)) = true := by decide +kernel
    unfold hostKey Config.parseFile at hkey
    split at hkey
    · cases hkey
    · rename_i es' hparse
      obtain ⟨pubStr, -, hpub⟩ := Option.bind_eq_some_iff.mp hkey
      obtain ⟨_, -, heq⟩ := Option.map_eq_some_iff.mp hpub
      cases heq
      split at hparse
      · cases hparse
      · rename_i c hread
        have hc := List.all_eq_true.mp hfit c (FileSystem.mem_of_readFile_ofFiles hread)
        rw [hparse] at hc
        exact forall_of_all hc n hn
  port := forall_of_all (by decide +kernel)
  mtu n hn := by
    have hfit : (atoiOf roomyLoaded.conf (str "MTU")).all (fun n => decide (0 < n → 50 < n))
        = true := by decide +kernel
    exact forall_of_all hfit n hn

theorem numbers_kept_roomy : NumbersKept (.ofFiles roomyFiles) samplePaths roomyLoaded :=
  (numbers_kept_iff (by decide +kernel)).mpr numbersFit_roomy

/-- One more than fits, and an MTU of which nothing is left. -/
def crampedFiles : FileSystem :=
  .ofFiles (settingsFiles "VXLANPort = 65536\nVXLANID = 4294967298\nPort = 70000\nMTU = 50\n"
    "Port = -1\n")

def crampedLoaded : Loaded :=
  { settingsLoaded "65536" "4294967298" "70000" "50" with
    vxlanPort := 0, vxlanID := 2, wgListenPort := 70000, mtu := 50 }

/-- All of it is loaded, and nothing is kept. -/
theorem numbers_wrap :
    load crampedFiles samplePaths = .ok crampedLoaded
    ∧ (buildState crampedFiles samplePaths crampedLoaded (onePlane (str "b"))
        ⟨[str "b"], fun _ => []⟩).vxlanPort = 0
    ∧ (buildState crampedFiles samplePaths crampedLoaded (onePlane (str "b"))
        ⟨[str "b"], fun _ => []⟩).vxlanID = 2
    ∧ (buildState crampedFiles samplePaths crampedLoaded (onePlane (str "b"))
        ⟨[str "b"], fun _ => []⟩).peers.map (·.endpoint.map AddrPort.port) = [some 65535]
    ∧ (discoverOnce crampedLoaded oneServer [[]] (str "no") none).1.map AddrPort.port = some 4464
    ∧ (buildState crampedFiles samplePaths crampedLoaded (onePlane (str "b"))
        ⟨[str "b"], fun _ => []⟩).vxlanMTU = some 0 := by
  refine ⟨?_, ?_, ?_, ?_, ?_, ?_⟩ <;> decide +kernel

end Sample

end Gsnet.Daemon
