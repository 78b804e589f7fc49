import Gsnet.Go.Net
import Gsnet.Keys

/-!
# The desired state of the data plane

`internal/dataplane`: what the daemon hands to a reconciler. The zero value of an
address, of an endpoint or of a prefix stands for "unknown" and is `none` here.
-/

namespace Gsnet.Dataplane

open Go

/-- How the data plane forwards packets. -/
inductive Mode where
  | switch
  | hub
  | router
  deriving DecidableEq, Repr

/-- One remote node from the data plane's point of view. -/
structure Peer where
  name : GoString
  wgPublic : WGKey
  /-- The best-known outer endpoint. -/
  endpoint : Option AddrPort
  innerAddr : Option Addr
  /-- Where the forwarding table and WireGuard reach the peer. -/
  underlayAddr : Option Addr
  allowedIPs : List Prefix
  deriving DecidableEq

/-- The complete desired state. -/
structure State where
  mode : Mode
  wgPrivate : WGKey
  wgInterface : GoString
  wgListenPort : Int64
  vxlanInterface : GoString
  vxlanID : UInt32
  vxlanPort : UInt16
  localInnerAddr : Option Prefix
  localUnderlayAddr : Option Prefix
  mtu : Int64
  peers : List Peer
  deriving DecidableEq

end Gsnet.Dataplane
