import Gsnet.Dataplane.Kernel

/-!
# The Linux reconciler

`internal/dataplane/linux`: the two diffs it computes, against the peers of the
WireGuard device and against the rows of the forwarding database. Both are the
calls in which every request to the kernel succeeds.
-/

namespace Gsnet.Dataplane

open Go

/-! ## WireGuard peers -/

/-- `prefixToIPNet`. -/
def prefixToIPNet (p : Prefix) : IPNet := ⟨p.addr.asSlice, p.bits, p.addr.bitLen⟩

/-- The entry for a desired peer. Its prefixes replace the ones it had. -/
def peerConfig (p : Peer) : PeerConfig where
  publicKey := p.wgPublic
  endpoint := p.endpoint.map fun e => ⟨e.addr.asSlice, e.port.toNat⟩
  persistentKeepaliveInterval := some 25
  replaceAllowedIPs := true
  allowedIPs := p.allowedIPs.map prefixToIPNet

/-- `desired`, the peers of the state by key. -/
def desiredPeers (s : State) : GoMap WGKey Peer :=
  s.peers.foldl (fun m p => m.set p.wgPublic p) GoMap.empty

/--
`configureWGPeers`: the request it makes. `existing` is what reading the device
returned, in the order it was listed; `none` when it could not be read.
-/
def configureWGPeers (s : State) (existing : Option (List WGKey)) : Config where
  privateKey := s.wgPrivate
  listenPort := s.wgListenPort
  peers := s.peers.map peerConfig
    ++ ((existing.getD []).filter fun k => ((desiredPeers s).get? k).isNone).map
      fun k => { publicKey := k, remove := true }

/-! ## The forwarding database -/

/-- The hardware address a node takes on the overlay: local, and not multicast. -/
def vxlanMACFromKey [Sha256] (pub : WGKey) : HardwareAddr :=
  match (Sha256.sum256 pub.raw).take 6 with
  | [] => []
  | b :: t => ((b ||| 0x02) &&& 0xFE) :: t

def broadcastMAC : HardwareAddr := [0xFF, 0xFF, 0xFF, 0xFF, 0xFF, 0xFF]

/-- `fdbKey`: a row as the reconciler compares it, by text. -/
structure FdbKey where
  mac : GoString
  ip : GoString
  deriving DecidableEq

/-- The row a key stands for. Text that does not parse gives the nil address. -/
def FdbKey.row (k : FdbKey) : FdbRow :=
  ⟨(parseMAC k.mac).getD [], ((parseAddr k.ip).map Addr.asSlice).getD []⟩

/-- How the reconciler sees a row. -/
def FdbRow.key (r : FdbRow) : FdbKey := ⟨r.mac.string, IP.string r.ip⟩

/-- The order in which rows are added or deleted does not matter. -/
instance : RightCommutative (fun (fdb : Fdb) (k : FdbKey) => fdb.neighAppend k.row) where
  right_comm fdb a b := Finset.insert_comm b.row.stored a.row.stored fdb

instance : RightCommutative (fun (fdb : Fdb) (k : FdbKey) => fdb.neighDel k.row) where
  right_comm _ _ _ := Finset.erase_right_comm

section Fdb

variable [Sha256] (s : State)

/-- `managedMACs`: the broadcast address and that of every peer with an underlay address. -/
def managedMACs : Finset GoString :=
  insert broadcastMAC.string
    (s.peers.filterMap fun p =>
      p.underlayAddr.map fun _ => (vxlanMACFromKey p.wgPublic).string).toFinset

/-- `desired`: two rows for every peer with an underlay address. -/
def desiredKeys : Finset FdbKey :=
  (s.peers.flatMap fun p =>
    match p.underlayAddr with
    | none => []
    | some a => [⟨broadcastMAC.string, a.string⟩,
        ⟨(vxlanMACFromKey p.wgPublic).string, a.string⟩]).toFinset

/-- `have`: the rows under a managed address. -/
def haveKeys (fdb : Fdb) : Finset FdbKey :=
  (fdb.filter fun r => r.mac.string ∈ managedMACs s).image FdbRow.key

/-- The rows that a call asks the kernel to append. -/
def toAppend (fdb : Fdb) : Finset FdbKey := desiredKeys s \ haveKeys s fdb

/-- The rows that it then asks the kernel to delete. -/
def toDelete (fdb : Fdb) : Finset FdbKey := haveKeys s fdb \ desiredKeys s

/-- `reconcileFDB`: append what is missing, then delete what is not desired. -/
def reconcileFDB (fdb : Fdb) : Fdb :=
  let existing := haveKeys s fdb
  let fdb := (desiredKeys s \ existing).val.foldl (fun fdb k => fdb.neighAppend k.row) fdb
  (existing \ desiredKeys s).val.foldl (fun fdb k => fdb.neighDel k.row) fdb

theorem reconcileFDB_requests (fdb : Fdb) :
    reconcileFDB s fdb = (toDelete s fdb).val.foldl (fun fdb k => fdb.neighDel k.row)
      ((toAppend s fdb).val.foldl (fun fdb k => fdb.neighAppend k.row) fdb) := rfl

/-- A sequence of successful calls. -/
def reconcileFDBAll (fdb : Fdb) (states : List State) : Fdb :=
  states.foldl (fun fdb s => reconcileFDB s fdb) fdb

end Fdb

end Gsnet.Dataplane
