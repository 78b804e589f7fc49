import Gsnet.Go.Map
import Gsnet.Dataplane

/-!
# The kernel's side of the data plane

What WireGuard and the VXLAN driver do with the requests they get, as far as the
reconciler relies on it. A WireGuard device keeps one routing table: a prefix
belongs to at most one peer, and giving it to another takes it away from the
first. The forwarding database of a VXLAN device is a set of rows; an IPv4 address is
sent and listed as four bytes, whichever form it is given in.
-/

namespace Gsnet.Dataplane

open Go

/-! ## WireGuard -/

/-- `wgtypes.PeerConfig`. -/
structure PeerConfig where
  publicKey : WGKey
  remove : Bool := false
  endpoint : Option UDPAddr := none
  /-- In seconds. -/
  persistentKeepaliveInterval : Option Nat := none
  replaceAllowedIPs : Bool := false
  allowedIPs : List IPNet := []
  deriving DecidableEq

/-- `wgtypes.Config`. -/
structure Config where
  privateKey : WGKey
  listenPort : Int64
  replacePeers : Bool := false
  peers : List PeerConfig
  deriving DecidableEq

/-- What a device keeps for a peer besides its prefixes. -/
structure Session where
  endpoint : Option UDPAddr := none
  persistentKeepaliveInterval : Nat := 0
  /-- Unix nanoseconds; zero is never. It is lost when the peer is removed. -/
  lastHandshake : Int64 := 0
  deriving DecidableEq

/-- A WireGuard device. -/
structure Device where
  peers : GoMap WGKey Session
  /-- The peer packets for a prefix go to. -/
  owner : IPNet → Option WGKey
  /-- Prefixes belong to peers of the device. -/
  owner_mem : ∀ {n k}, owner n = some k → (peers.get? k).isSome

namespace Device

/-- The prefixes of a peer. -/
def allowedIPs (d : Device) (k : WGKey) : Set IPNet := {n | d.owner n = some k}

def hasPeer (d : Device) (k : WGKey) : Bool := (d.peers.get? k).isSome

/-- Take all its prefixes from a peer. -/
def clearAllowedIPs (d : Device) (k : WGKey) : Device where
  peers := d.peers
  owner n := if d.owner n = some k then none else d.owner n
  owner_mem := by
    intro n k' h
    split at h
    · cases h
    · exact d.owner_mem h

def removePeer (d : Device) (k : WGKey) : Device where
  peers := d.peers.delete k
  owner := (d.clearAllowedIPs k).owner
  owner_mem := by
    intro n k' h
    have hne : k' ≠ k := by
      rintro rfl
      simp only [clearAllowedIPs] at h
      split at h
      · cases h
      · rename_i hno; exact hno h
    rw [GoMap.get?_delete, if_neg hne]
    exact (d.clearAllowedIPs k).owner_mem h

/-- Update a peer, which comes into being if it was not there. -/
def setPeer (d : Device) (pc : PeerConfig) : Device where
  peers :=
    let old := (d.peers.get? pc.publicKey).getD {}
    d.peers.set pc.publicKey { old with
      endpoint := pc.endpoint.or old.endpoint
      persistentKeepaliveInterval :=
        pc.persistentKeepaliveInterval.getD old.persistentKeepaliveInterval }
  owner := d.owner
  owner_mem := by
    intro n k h
    rw [GoMap.get?_set]
    split
    · rfl
    · exact d.owner_mem h

/-- Give a prefix to a peer of the device. -/
def addAllowedIP (d : Device) (k : WGKey) (n : IPNet) : Device :=
  if h : d.hasPeer k = true then
    { peers := d.peers
      owner := Function.update d.owner n (some k)
      owner_mem := by
        intro m k' hm
        by_cases hmn : m = n
        · subst hmn
          rw [Function.update_self, Option.some.injEq] at hm
          exact hm ▸ h
        · rw [Function.update_of_ne hmn] at hm
          exact d.owner_mem hm }
  else d

/-- One entry of a configuration. -/
def configurePeer (d : Device) (pc : PeerConfig) : Device :=
  if pc.remove then d.removePeer pc.publicKey
  else
    let d := d.setPeer pc
    let d := if pc.replaceAllowedIPs then d.clearAllowedIPs pc.publicKey else d
    pc.allowedIPs.foldl (·.addAllowedIP pc.publicKey) d

/-- `ConfigureDevice`: the entries are applied in order. -/
def configure (d : Device) (cfg : Config) : Device :=
  let d := if cfg.replacePeers then ⟨GoMap.empty, fun _ => none, by intro n k h; cases h⟩ else d
  cfg.peers.foldl configurePeer d

end Device

/-! ## The forwarding database -/

/-- A row: frames for `mac` are sent to `ip`. -/
structure FdbRow where
  mac : HardwareAddr
  ip : IP
  deriving DecidableEq

/-- The rows of a VXLAN device. -/
abbrev Fdb := Finset FdbRow

/-- The row as it is sent to the kernel, and as the kernel lists it. -/
def FdbRow.stored (row : FdbRow) : FdbRow := ⟨row.mac, row.ip.canonical⟩

/-- `netlink.NeighAppend`. -/
def Fdb.neighAppend (fdb : Fdb) (row : FdbRow) : Fdb := insert row.stored fdb

/-- `netlink.NeighDel`. -/
def Fdb.neighDel (fdb : Fdb) (row : FdbRow) : Fdb := fdb.erase row.stored

end Gsnet.Dataplane
