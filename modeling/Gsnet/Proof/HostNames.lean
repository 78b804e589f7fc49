import Gsnet.Cli.Import
import Gsnet.Cli.Invite
import Gsnet.Daemon.Run

/-!
# Names and host files

The host file of a node is found under its name: in the look-up of keys under the
origin of a message, in the desired state under the name of a graph node, in
`gsnet import` and `gsnet join` under the names in what they read. None of them asks
`nodename.Validate`, and `filepath.Join` cleans what it joins. So a name stands for
the file of that name exactly if a directory can hold a file of that name; `./b` and
`b` are two origins with one host file, and `../gsnet.conf` is no host file at all.
-/

namespace Gsnet.Daemon

open Go Config Gossip Dataplane FileSystem Cli

/-- A host file is read or written, under this name and at this place. -/
inductive HostAccess [Sha256] [Curve25519] (fs : FileSystem) (paths : Paths) :
    GoString → Location → Prop where
  /-- `lookupPubKey` finds a key; for the own name it reads nothing. -/
  | lookup {l : Loaded} {origin : GoString} {pub : Ed25519Public} (hother : origin ≠ l.nodeName)
      (hfound : lookupPubKey fs paths l origin = some pub) :
      HostAccess fs paths origin (fs.locate (paths.hostFile origin))
  /-- `buildState` lists a peer. -/
  | peer {l : Loaded} {p : Plane} {o : IterOrder} {q : Peer}
      (hq : q ∈ (buildState fs paths l p o).peers) :
      HostAccess fs paths q.name (fs.locate (paths.hostFile q.name))
  | imported {input : GoString} {w : GoString × Location}
      (hw : w ∈ (imported (cmdImport paths fs input)).written) : HostAccess fs paths w.1 w.2
  /-- `cmdJoin` writes the host file of the new node. -/
  | invitee {p : Paths} {net : Network} {keys : FreshKeys} {arg : GoString} {j : Joined}
      (hj : cmdJoin p fs net keys [arg] = .ok j) (hpaths : j.paths = paths) :
      HostAccess fs paths j.file.invitee.name (fs.locate (paths.hostFile j.file.invitee.name))
  /-- `cmdJoin` writes the host file of the inviter. -/
  | inviter {p : Paths} {net : Network} {keys : FreshKeys} {arg : GoString} {j : Joined}
      (hj : cmdJoin p fs net keys [arg] = .ok j) (hpaths : j.paths = paths) :
      HostAccess fs paths j.inviter.name (fs.locate (paths.hostFile j.inviter.name))

theorem hostsDir_getLast? (fs : FileSystem) (paths : Paths) :
    (fs.locate paths.hostsDir).getLast? ≠ some dotDot := by
  rw [(locate_dirs fs paths).1, List.getLast?_concat]
  decide

section

variable [Sha256] [Curve25519] {fs : FileSystem} {paths : Paths} {name : GoString} {loc : Location}

/-- Every access is to where the name leads from the hosts directory. -/
theorem HostAccess.walks (h : HostAccess fs paths name loc) :
    loc = walk (fs.locate paths.hostsDir) name := by
  cases h with
  | lookup => exact locate_hostFile _
  | peer => exact locate_hostFile _
  | imported hw =>
      rw [← locate_hostFile]
      exact (recorded_cmdImport paths fs _).place _ hw
  | invitee => exact locate_hostFile _
  | inviter => exact locate_hostFile _

/--
**A name stands for the file of that name exactly if it is plain**, and different plain
names stand for different files.
-/
theorem hostAccess_named_iff (h : HostAccess fs paths name loc) :
    (loc = fs.locate paths.hostsDir ++ [name] ↔ PlainName name)
      ∧ ∀ other loc', HostAccess fs paths other loc' → PlainName name → PlainName other →
        other ≠ name → loc' ≠ loc := by
  refine ⟨?_, ?_⟩
  · rw [h.walks]
    exact walk_eq_append_iff (hostsDir_getLast? fs paths)
  · intro other loc' h' hn ho hne heq
    rw [h'.walks, h.walks, walk_plainName ho, walk_plainName hn] at heq
    exact hne (List.singleton_injective (List.append_cancel_left heq))

end

/-! ### Two origins with one host file -/

section Sample

attribute [local instance] clearSha256 clearCurve25519

/-- A node that knows `b`. -/
def knowing : FileSystem :=
  .ofFiles [
    (sampleLoc ["gsnet.conf"], str "Name = a\n"),
    (sampleLoc ["hosts", "b"], str "Ed25519PublicKey = " ++ base64Encode (List.replicate 32 7))]

/-- The origin `b` is looked up in `hosts/b`. -/
theorem hostAccess_b : knowing.locate (samplePaths.hostFile (str "b"))
    = knowing.locate samplePaths.hostsDir ++ [str "b"] := by
  have hfound : (lookupPubKey knowing samplePaths (sampleLoaded .switch) (str "b")).isSome := by
    decide +kernel
  obtain ⟨pub, hpub⟩ := Option.isSome_iff_exists.mp hfound
  exact (hostAccess_named_iff (.lookup (by decide) hpub)).1.mpr (by decide)

/-- So is the origin `./b`; and an import can replace the configuration. -/
theorem names_share_host_file :
    lookupPubKey knowing samplePaths (sampleLoaded .switch) (str "b") ≠ none
      ∧ lookupPubKey knowing samplePaths (sampleLoaded .switch) (str "./b")
        = lookupPubKey knowing samplePaths (sampleLoaded .switch) (str "b")
      ∧ knowing.locate (samplePaths.hostFile (str "./b"))
        = knowing.locate (samplePaths.hostFile (str "b"))
      ∧ (imported (cmdImport samplePaths knowing (str "Name = ../gsnet.conf\nName = x\n"))).written
        = [(str "../gsnet.conf", sampleLoc ["gsnet.conf"]), (str "x", sampleLoc ["hosts", "x"])]
      ∧ ¬ PlainName (str "./b") ∧ ¬ PlainName (str "../gsnet.conf") := by
  decide +kernel

end Sample

end Gsnet.Daemon
