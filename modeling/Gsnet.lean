import Gsnet.Lib.Fallible
import Gsnet.Go.Bytes
import Gsnet.Go.Map
import Gsnet.Go.Strconv
import Gsnet.Go.Base64
import Gsnet.Go.Json
import Gsnet.Go.JsonProof
import Gsnet.Go.JsonLex
import Gsnet.Go.JsonText
import Gsnet.Go.Netip
import Gsnet.Go.Net
import Gsnet.Go.NetipProof
import Gsnet.Go.Strings
import Gsnet.Go.Bufio
import Gsnet.Go.Filepath
import Gsnet.Go.Os
import Gsnet.Config
import Gsnet.Subnet
import Gsnet.Graph
import Gsnet.GraphProof
import Gsnet.Gossip.Message
import Gsnet.Keys
import Gsnet.Nodename
import Gsnet.Gossip.Wire
import Gsnet.Gossip.Plane
import Gsnet.Gossip.PlaneProof
import Gsnet.Gossip.Announce
import Gsnet.Gossip.Register
import Gsnet.Proof.SigningBytes
import Gsnet.Proof.Converge
import Gsnet.Proof.Trust
import Gsnet.Proof.Replay
import Gsnet.Proof.Edges
import Gsnet.Gossip.Concurrent
import Gsnet.Proof.Interleave
import Gsnet.Gossip.Network
import Gsnet.Proof.AntiEntropy
import Gsnet.Proof.Flood
import Gsnet.Dataplane
import Gsnet.Dataplane.Kernel
import Gsnet.Invite.File
import Gsnet.Invite.Crypto
import Gsnet.Daemon
import Gsnet.Daemon.Invite
import Gsnet.Transport
import Gsnet.Transport.Exchange
import Gsnet.Dataplane.Linux
import Gsnet.Proof.WireGuard
import Gsnet.Proof.Fdb
import Gsnet.Proof.Routing
import Gsnet.Proof.PeerKeys
import Gsnet.Proof.Reload
import Gsnet.Proof.CatchUp
import Gsnet.Proof.Confine
import Gsnet.Proof.SingleUse
import Gsnet.Proof.InviteAuth
import Gsnet.Go.Slice
import Gsnet.Stun
import Gsnet.Proof.Stun
import Gsnet.Proof.StunDecode
import Gsnet.Proof.StunQuery
import Gsnet.Daemon.Run
import Gsnet.Proof.LocalHello
import Gsnet.Proof.Identity
import Gsnet.Go.StringsProof
import Gsnet.Go.CaseFold
import Gsnet.ConfigProof
import Gsnet.Cli.Store
import Gsnet.Proof.Store
import Gsnet.Invite.FileProof
import Gsnet.Invite.Url
import Gsnet.Cli.Invite
import Gsnet.Proof.HostData
import Gsnet.Proof.DialTarget
import Gsnet.Daemon.Fsck
import Gsnet.Proof.Fsck
import Gsnet.Control
import Gsnet.Proof.Dump
import Gsnet.Proof.Forward
import Gsnet.Proof.ConfigText
import Gsnet.Proof.InviteText
import Gsnet.Proof.RefusedJoin
import Gsnet.Cli.Import
import Gsnet.Proof.HostNames
import Gsnet.Proof.Installed
import Gsnet.Proof.PrintedUrl
import Gsnet.Go.NetipText
import Gsnet.Proof.SubnetText
import Gsnet.Proof.Reachable
import Gsnet.Proof.NodeGone
import Gsnet.Proof.ExportImport
import Gsnet.Proof.FdbRepeat
import Gsnet.Dataplane.Reconcile
import Gsnet.Proof.SettledPeers
import Gsnet.Proof.Rejected
import Gsnet.Proof.Settings
import Gsnet.Proof.ControlLines
import Gsnet.Compression
import Gsnet.Pcap
import Gsnet.Transport.Dial
import Gsnet.Cli.Init
import Gsnet.Transport.Server
import Gsnet.Proof.Streams
import Gsnet.Proof.Drain
import Gsnet.Control.Session
import Gsnet.Proof.ControlSession
