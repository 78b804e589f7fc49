import Gsnet.Daemon
import Gsnet.Invite.File

/-!
# Serving invitations

`handleInviteGet` and `handleInviteJoin`. Both take what the client sent and turn
it into a path. Besides the reply and the file system the model records which
files a call touched; a call of the operating system that fails touches none, except
for a write that was begun.
-/

namespace Gsnet.Daemon

open Go Config Gossip

/-- What was done to a file. -/
inductive Access where
  | read (loc : Location)
  | write (loc : Location)
  | remove (loc : Location)
  deriving DecidableEq

inductive InviteError where
  /-- `unknown invitation`. -/
  | unknownInvitation
  /-- `corrupt invitation`. -/
  | corrupt (e : Invite.FileError)
  /-- `invitee name mismatch: invitation expects %q`. -/
  | nameMismatch (expected : GoString)
  /-- The host file could not be written. -/
  | os
  deriving DecidableEq

/-- The outcome of a call. -/
structure Served where
  reply : Except InviteError GoString
  fs : FileSystem
  touched : List Access
  /-- The Hello handed to the gossip plane. -/
  hello : Option Hello := none

section

variable (fs : FileSystem) (paths : Paths)

def invitationPath (cookie : GoString) : GoString := join [paths.invitationsDir, cookie]

def touchedByRead (path : GoString) : List Access :=
  match fs.readFile path with
  | .ok _ => [.read (fs.locate path)]
  | .error _ => []

def touchedByRemove (path : GoString) : List Access :=
  match fs.remove path with
  | some _ => [.remove (fs.locate path)]
  | none => []

/-- `handleInviteGet`. -/
def handleInviteGet (cookie : GoString) : Served :=
  let path := invitationPath paths cookie
  match fs.readFile path with
  | .error _ => { reply := .error .unknownInvitation, fs := fs, touched := [] }
  | .ok body => { reply := .ok body, fs := fs, touched := touchedByRead fs path }

/-- The invitation must be for the node that presents it. -/
def checkInvitee (file inviteeName : GoString) : Except InviteError Unit :=
  match Invite.parseFile file with
  | .error e => .error (.corrupt e)
  | .ok parsed =>
    if parsed.invitee.name ≠ inviteeName then .error (.nameMismatch parsed.invitee.name) else .ok ()

/-- The first part of `handleInviteJoin`: the invitation file, if it is for that node. -/
def readInvitation (cookie inviteeName : GoString) : Except InviteError GoString :=
  match fs.readFile (invitationPath paths cookie) with
  | .error _ => .error .unknownInvitation
  | .ok file => (checkInvitee file inviteeName).map fun _ => file

/--
The second part: write `hosts/<name>`. A failure may leave the directory behind, or a
part of the file.
-/
def writeHost (inviteeName hostConfig : GoString) : Except FileSystem FileSystem :=
  match fs.mkdirAll paths.hostsDir with
  | none => .error fs
  | some fs => fs.writeFile (paths.hostFile inviteeName) hostConfig

/-- The host file is touched as soon as it is opened. -/
def touchedByWriteHost (inviteeName : GoString) : List Access :=
  match fs.mkdirAll paths.hostsDir with
  | none => []
  | some fs =>
    if fs.Opens (paths.hostFile inviteeName) then
      [.write (fs.locate (paths.hostFile inviteeName))]
    else []

/-- The third part: remove the invitation. An error is ignored. -/
def consume (cookie : GoString) : FileSystem := (fs.remove (invitationPath paths cookie)).getD fs

/-- The Hello for the new peer, if its host config gives a signing key. -/
def inviteeHello (inviteeName hostConfig : GoString) : Option Hello :=
  match Config.parse hostConfig with
  | .error _ => none
  | .ok es =>
    (es.getFirst (str "Ed25519PublicKey")).bind fun pubStr =>
      (parseEd25519PublicBase64 (trimSpace pubStr)).map fun pub =>
        { name := inviteeName, ed25519Public := pub.raw }

/-- `handleInviteJoin`. -/
def handleInviteJoin (cookie inviteeName hostConfig : GoString) : Served :=
  let path := invitationPath paths cookie
  let read := touchedByRead fs path
  let written := touchedByWriteHost fs paths inviteeName
  match readInvitation fs paths cookie inviteeName with
  | .error e => { reply := .error e, fs := fs, touched := read }
  | .ok file =>
    match writeHost fs paths inviteeName hostConfig with
    | .error fs => { reply := .error .os, fs := fs, touched := read ++ written }
    | .ok fs =>
      { reply := .ok file
        fs := consume fs paths cookie
        touched := read ++ written ++ touchedByRemove fs path
        hello := inviteeHello inviteeName hostConfig }

end

/-- What a client can ask for. -/
inductive Request where
  | get (cookie : GoString)
  | join (cookie inviteeName hostConfig : GoString)
  deriving DecidableEq

def serve (fs : FileSystem) (paths : Paths) : Request → Served
  | .get cookie => handleInviteGet fs paths cookie
  | .join cookie inviteeName hostConfig => handleInviteJoin fs paths cookie inviteeName hostConfig

end Gsnet.Daemon
