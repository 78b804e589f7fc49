import Gsnet.Dataplane.Linux

/-!
# A call of the Linux reconciler

`Reconcile` of `internal/dataplane/linux`: the requests it makes to the kernel, one
after the other, and where it stops. The WireGuard interface is set up and its peers
are configured first. What only the VXLAN device needs is checked after that.

A host is the links it has. What the kernel makes of a request that it accepts is
said here; which requests it refuses is not, and neither are the orders in which a
map is gone through or the kernel lists things. They are fields of a `Kernel`.
-/

namespace Gsnet.Dataplane

open Go

/-! ## Hosts -/

/-- What a VXLAN device is created with. -/
structure VxlanAttrs where
  vxlanId : Nat
  port : Nat
  learning : Bool
  /-- The link below, of which the device is a child and an endpoint. -/
  dev : GoString
  srcAddr : IP
  deriving DecidableEq

inductive LinkKind where
  | wireguard (dev : Device)
  | vxlan (attrs : VxlanAttrs) (fdb : Fdb)
  | other

structure Link where
  kind : LinkKind
  mtu : Int64
  hardwareAddr : HardwareAddr
  addrs : Finset IPNet
  up : Bool

/-- The links of a host by name, with all that belongs to them. -/
abbrev Host := GoMap GoString Link

theorem Device.owner_mem_new {n : IPNet} {k : WGKey} (h : (fun _ : IPNet => none) n = some k) :
    ((GoMap.empty : GoMap WGKey Session).get? k).isSome := by
  cases h

/-- A WireGuard device without peers. -/
def Device.new : Device := ⟨GoMap.empty, fun _ => none, @Device.owner_mem_new⟩

/-! ## Requests -/

/-- A request to the kernel, for the link of a name. -/
inductive Request where
  | linkByName (name : GoString)
  | linkAddWireGuard (name : GoString) (mtu : Option Int64)
  | linkAddVxlan (name : GoString) (mtu : Option Int64) (mac : HardwareAddr) (attrs : VxlanAttrs)
  | linkDel (name : GoString)
  | linkSetMTU (name : GoString) (mtu : Int64)
  | linkSetHardwareAddr (name : GoString) (mac : HardwareAddr)
  | addrReplace (name : GoString) (addr : IPNet)
  | linkSetUp (name : GoString)
  /-- `wg.Device`. -/
  | device (name : GoString)
  | configureDevice (name : GoString) (cfg : Config)
  | neighList (name : GoString)
  | neighAppend (name : GoString) (row : FdbRow)
  | neighDel (name : GoString) (row : FdbRow)

/-- What the reconciler cannot know of a kernel. -/
structure Kernel where
  /-- A request that is refused changes nothing. -/
  refuses : Host → Request → Bool
  /-- The MTU of a link that is added without one. -/
  defaultMTU : GoString → Int64
  /-- The peers of a device as they are listed. -/
  peers : Device → List WGKey
  peers_eq : ∀ d, (peers d : Multiset WGKey) = d.peers.keys
  /-- The order in which `range` visits rows. -/
  rows : Finset FdbKey → List FdbKey
  rows_eq : ∀ ks, (rows ks : Multiset FdbKey) = ks.val

/-- A change of a link that is there. -/
def Host.modify (h : Host) (name : GoString) (f : Link → Option Link) : Option Host :=
  (h.get? name).bind fun link => (f link).map (h.set name)

def Link.configureDevice (link : Link) (cfg : Config) : Option Link :=
  match link.kind with
  | .wireguard dev => some { link with kind := .wireguard (dev.configure cfg) }
  | _ => none

def Link.modifyFdb (link : Link) (f : Fdb → Fdb) : Option Link :=
  match link.kind with
  | .vxlan attrs fdb => some { link with kind := .vxlan attrs (f fdb) }
  | _ => none

/-- What a request does, if it makes sense. -/
def Host.apply (K : Kernel) (h : Host) : Request → Option Host
  | .linkByName _ | .device _ | .neighList _ => some h
  | .linkAddWireGuard name mtu =>
    if (h.get? name).isSome then none
    else some (h.set name ⟨.wireguard .new, mtu.getD (K.defaultMTU name), [], ∅, false⟩)
  | .linkAddVxlan name mtu mac attrs =>
    if (h.get? name).isSome then none
    else some (h.set name ⟨.vxlan attrs ∅, mtu.getD (K.defaultMTU name), mac, ∅, false⟩)
  | .linkDel name => if (h.get? name).isSome then some (h.delete name) else none
  | .linkSetMTU name mtu => h.modify name fun link => some { link with mtu := mtu }
  | .linkSetHardwareAddr name mac =>
    h.modify name fun link => some { link with hardwareAddr := mac }
  | .addrReplace name addr =>
    h.modify name fun link => some { link with addrs := insert addr link.addrs }
  | .linkSetUp name => h.modify name fun link => some { link with up := true }
  | .configureDevice name cfg => h.modify name (·.configureDevice cfg)
  | .neighAppend name row => h.modify name (·.modifyFdb (·.neighAppend row))
  | .neighDel name row => h.modify name (·.modifyFdb (·.neighDel row))

inductive ReconcileError where
  /-- `WGInterface is required`. -/
  | noWGInterface
  /-- `VXLANInterface is required for switch/hub mode`. -/
  | noVXLANInterface
  /-- `LocalInnerAddr is required for switch/hub mode`. -/
  | noLocalInnerAddr
  /-- `LocalUnderlayAddr is required for switch/hub mode`. -/
  | noLocalUnderlayAddr
  /-- An error of the kernel, under headings that say which request it was. -/
  | kernel (r : Request)

/-- The state is refused, and not a request. -/
def ReconcileError.isValidation : ReconcileError → Bool
  | .kernel _ => false
  | _ => true

/-- Requests in a row, up to the first that fails. -/
abbrev Requests := EStateM ReconcileError Host

section Reconcile

variable (K : Kernel)

def request (r : Request) : Requests Unit := fun h =>
  if K.refuses h r then .error (.kernel r) h
  else match h.apply K r with
    | some h' => .ok () h'
    | none => .error (.kernel r) h

/-- `LinkByName`; `none` is a `LinkNotFoundError`. -/
def linkByName (name : GoString) : Requests (Option Link) := do
  request K (.linkByName name)
  return (← get).get? name

/-- `LinkByName` where the link must be there. -/
def foundLink (name : GoString) : Requests Link := do
  match ← linkByName K name with
  | some link => return link
  | none => throw (.kernel (.linkByName name))

/-- An MTU that is set. -/
def State.wantMTU (s : State) : Option Int64 := if 0 < s.mtu then some s.mtu else none

/-- That of the VXLAN device leaves room for what encapsulation adds. -/
def State.vxlanMTU (s : State) : Option Int64 := s.wantMTU.map (· - 50)

/-- The MTU of a link that has another. -/
def ensureMTU (name : GoString) (link : Link) (want : Option Int64) : Requests Unit :=
  match want with
  | some mtu => if link.mtu ≠ mtu then request K (.linkSetMTU name mtu) else pure ()
  | none => pure ()

/-- An address of a link, where there is one. -/
def ensureAddr (name : GoString) (addr : Option Prefix) : Requests Unit :=
  match addr with
  | some a => request K (.addrReplace name (prefixToIPNet a))
  | none => pure ()

/-- What `ensureWGInterface` does to the link, whether it was there or has just been added. -/
def setUpWG (s : State) (link : Link) : Requests Unit := do
  ensureMTU K s.wgInterface link s.wantMTU
  ensureAddr K s.wgInterface s.localUnderlayAddr
  request K (.linkSetUp s.wgInterface)

def ensureWGInterface (s : State) : Requests Unit := do
  match ← linkByName K s.wgInterface with
  | some link => setUpWG K s link
  | none =>
    request K (.linkAddWireGuard s.wgInterface s.wantMTU)
    setUpWG K s (← foundLink K s.wgInterface)

/-- What `wg.Device` lists; an error is as good as no peers. -/
def existingPeers (name : GoString) (h : Host) : Option (List WGKey) :=
  if K.refuses h (.device name) then none
  else match (h.get? name).map Link.kind with
    | some (.wireguard dev) => some (K.peers dev)
    | _ => none

/-- `configureWGPeers`, with the request it makes. -/
def requestWGPeers (s : State) : Requests Unit := do
  let existing := existingPeers K s.wgInterface (← get)
  request K (.configureDevice s.wgInterface (configureWGPeers s existing))

/--
The link, unless it is a VXLAN device with another source address. Such a device is
deleted: the source address is fixed when a device is created.
-/
def keepVXLAN (name : GoString) (wantSrc : IP) : Requests (Option Link) := do
  match ← linkByName K name with
  | none => return none
  | some link =>
    match link.kind with
    | .vxlan attrs _ =>
      if attrs.srcAddr.equal wantSrc then return some link
      else
        request K (.linkDel name)
        return none
    | _ => return some link

/-- The MAC of a link that has another. -/
def ensureMAC (name : GoString) (link : Link) (wantMAC : HardwareAddr) : Requests Unit :=
  if link.hardwareAddr.string ≠ wantMAC.string then request K (.linkSetHardwareAddr name wantMAC)
  else pure ()

section VXLAN

variable [Sha256] [Curve25519]

/-- The MAC of the device, which every peer can work out from the public key. -/
def State.wantMAC (s : State) : HardwareAddr := vxlanMACFromKey (Curve25519.publicKey s.wgPrivate)

/-- What `ensureVXLAN` does to the link, whether it was there or has just been added. -/
def setUpVXLAN (s : State) (inner : Prefix) (link : Link) : Requests Unit := do
  ensureMAC K s.vxlanInterface link s.wantMAC
  ensureMTU K s.vxlanInterface link s.vxlanMTU
  ensureAddr K s.vxlanInterface (some inner)
  request K (.linkSetUp s.vxlanInterface)

def ensureVXLAN (s : State) (inner underlay : Prefix) : Requests Unit := do
  let _ ← foundLink K s.wgInterface
  match ← keepVXLAN K s.vxlanInterface underlay.addr.asSlice with
  | some link => setUpVXLAN K s inner link
  | none =>
    request K (.linkAddVxlan s.vxlanInterface s.vxlanMTU s.wantMAC
      { vxlanId := s.vxlanID.toNat
        port := s.vxlanPort.toNat
        learning := s.mode ≠ .hub
        dev := s.wgInterface
        srcAddr := underlay.addr.asSlice })
    setUpVXLAN K s inner (← foundLink K s.vxlanInterface)

/-- `reconcileFDB`, with the requests it makes. -/
def requestFDB (s : State) : Requests Unit := do
  let link ← foundLink K s.vxlanInterface
  request K (.neighList s.vxlanInterface)
  let fdb := match link.kind with
    | .vxlan _ fdb => fdb
    | _ => ∅
  for k in K.rows (toAppend s fdb) do request K (.neighAppend s.vxlanInterface k.row)
  for k in K.rows (toDelete s fdb) do request K (.neighDel s.vxlanInterface k.row)

/-- What there is to do beside WireGuard, in the modes that forward frames. -/
def reconcileVXLAN (s : State) : Requests Unit := do
  if s.vxlanInterface = [] then throw .noVXLANInterface
  match s.localInnerAddr with
  | none => throw .noLocalInnerAddr
  | some inner =>
    match s.localUnderlayAddr with
    | none => throw .noLocalUnderlayAddr
    | some underlay =>
      ensureVXLAN K s inner underlay
      requestFDB K s

/-- `Reconcile`. -/
def reconcile (s : State) : Requests Unit := do
  if s.wgInterface = [] then throw .noWGInterface
  ensureWGInterface K s
  requestWGPeers K s
  if s.mode ≠ .router then reconcileVXLAN K s

end VXLAN

end Reconcile

end Gsnet.Dataplane
