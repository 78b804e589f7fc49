import Gsnet.Daemon.Invite
import Gsnet.Invite.Crypto

/-!
# The transport of invitations

`internal/transport`: what a listener makes of the first lines of a connection,
how it answers an invitation request, and what the client makes of the answer.
A connection is the bytes that arrive on it; a line that does not end is an error.

The request travels in the clear. The answer is sealed under a key of the two
ephemeral keys and the cookie, and the inviter signs its ephemeral key and the
cookie. The client takes the key to check the signature with from the plaintext.
-/

namespace Gsnet.Transport

open Go Invite Daemon

/-- The cookie of a request. -/
def cookieOf : Request → GoString
  | .get cookie => cookie
  | .join cookie _ _ => cookie

/-! ## The listener -/

/-- What a connection turns out to be. -/
inductive Inbound where
  | gossip
  | invite (r : Request) (clientPub : EphemeralPub)
  deriving DecidableEq

/-- Why a connection is given up, with or without a line of reply. -/
inductive InboundError where
  /-- The connection ends before the line does. -/
  | eof
  /-- `transport: unknown command line %q`. -/
  | unknownCommand (line : GoString)
  /-- `ERR malformed GET`. -/
  | malformedGet
  /-- `ERR malformed JOIN`. -/
  | malformedJoin
  | clientPub (e : PubError)
  /-- `read body`. -/
  | readBody
  /-- `ERR base64: %s`. -/
  | base64
  deriving DecidableEq

/-- `handleInvite2Get`, as far as it reads. -/
def readInvite2Get (rest : GoString) : Except InboundError Inbound :=
  match fields rest with
  | [cookie, clientPubB64] =>
    match ephemeralPubFromBase64 clientPubB64 with
    | .error e => .error (.clientPub e)
    | .ok clientPub => .ok (.invite (.get cookie) clientPub)
  | _ => .error .malformedGet

/-- `handleInvite2Join`, as far as it reads; `r` is what follows the first line. -/
def readInvite2Join (r rest : GoString) : Except InboundError Inbound :=
  match fields rest with
  | [cookie, inviteeName, clientPubB64] =>
    match ephemeralPubFromBase64 clientPubB64 with
    | .error e => .error (.clientPub e)
    | .ok clientPub =>
      match readString r with
      | none => .error .readBody
      | some (bodyLine, _) =>
        match base64Decode (trimEOL bodyLine) with
        | none => .error .base64
        | some hostConfig => .ok (.invite (.join cookie inviteeName hostConfig) clientPub)
  | _ => .error .malformedJoin

/-- `handleInbound`, as far as it reads. -/
def readInbound (input : GoString) : Except InboundError Inbound :=
  match readString input with
  | none => .error .eof
  | some (first, r) =>
    let line := trimEOL first
    if line = str "GOSSIP" then .ok .gossip
    else match cutLead (str "INVITE2 GET ") line with
      | some rest => readInvite2Get rest
      | none =>
        match cutLead (str "INVITE2 JOIN ") line with
        | some rest => readInvite2Join r rest
        | none => .error (.unknownCommand line)

/-- What the inviter signs and the invitee verifies. -/
def sigPayload (serverPub : EphemeralPub) (cookie : GoString) : GoString :=
  str "gsnet-invite-v1" ++ [0] ++ serverPub.raw ++ [0] ++ cookie

/-- What `encryptAndReply` sends, unless there is no shared secret. -/
structure Reply where
  serverPub : EphemeralPub
  sig : GoString
  ct : GoString
  deriving DecidableEq

def Reply.text (r : Reply) : GoString :=
  str "OK " ++ ephemeralPubToBase64 r.serverPub ++ str " " ++ base64Encode r.sig ++ str "\n"
    ++ base64Encode r.ct ++ str "\n"

/-- `encryptAndReply`; `server` is what `NewEphemeral` drew. -/
def encryptAndReply [Ed25519] [Sealing] (edPriv : Ed25519Private) (server : Ephemeral)
    (cookie : GoString) (clientPub : EphemeralPub) (plaintext : GoString) : Option Reply :=
  (server.deriveKey clientPub cookie).map fun key =>
    { serverPub := server.pub
      sig := edPriv.sign (sigPayload server.pub cookie)
      ct := Sealing.aeadSeal key plaintext }

/-- What a connection can change. -/
structure Serving where
  fs : FileSystem
  plane : Gossip.Plane

/-- Why a request is answered with a line that starts with `ERR`. -/
inductive Refusal where
  | request (e : InboundError)
  | handler (e : InviteError)
  /-- `NewEphemeral` failed. -/
  | newEphemeral
  /-- `DeriveKey` failed. -/
  | deriveKey
  deriving DecidableEq

/-- What a connection gets to read. -/
inductive Answered where
  | ok (r : Reply)
  | err (e : Refusal)
  /-- No line at all. -/
  | nothing
  deriving DecidableEq

/-- The answer is an `ERR` line. -/
def Answered.refused : Answered → Bool
  | err _ => true
  | ok _ | nothing => false

/-- The errors after which the connection is closed without a line. -/
def InboundError.silent : InboundError → Bool
  | eof | unknownCommand _ | readBody => true
  | malformedGet | malformedJoin | clientPub _ | base64 => false

section

variable [Ed25519] [Sealing] (paths : Paths) (edPriv : Ed25519Private) (drawn : Option Ephemeral)
  (ts : Int64)

/-- What the handler leaves behind; `ts` is the time of the announcement. -/
def Serving.after (s : Serving) (o : Served) : Serving where
  fs := o.fs
  plane := match o.hello with
    | none => s.plane
    | some h => (s.plane.announceHello h ts).1

/-- `handleInvite2Get` and `handleInvite2Join` once they have read the request. -/
def handleInvite2 (s : Serving) (req : Request) (clientPub : EphemeralPub) : Serving × Answered :=
  let o := serve s.fs paths req
  -- the handler is done before there is a key for the answer
  let s := s.after ts o
  match o.reply with
  | .error e => (s, .err (.handler e))
  | .ok body =>
    match drawn with
    | none => (s, .err .newEphemeral)
    | some server =>
      match encryptAndReply edPriv server (cookieOf req) clientPub body with
      | none => (s, .err .deriveKey)
      | some r => (s, .ok r)

/-- `handleInbound`, with both handlers of the daemon in place; gossip is not answered. -/
def handleInbound (s : Serving) (input : GoString) : Serving × Answered :=
  match readInbound input with
  | .error e => (s, if e.silent then .nothing else .err (.request e))
  | .ok .gossip => (s, .nothing)
  | .ok (.invite req clientPub) => handleInvite2 paths edPriv drawn ts s req clientPub

end

/-! ## The client -/

/-- The lines `InviteGet` and `InviteJoin` send. -/
def command [Sealing] (eph : Ephemeral) : Request → GoString
  | .get cookie =>
    str "INVITE2 GET " ++ cookie ++ str " " ++ ephemeralPubToBase64 eph.pub ++ str "\n"
  | .join cookie inviteeName hostConfig =>
    str "INVITE2 JOIN " ++ cookie ++ str " " ++ inviteeName ++ str " "
      ++ ephemeralPubToBase64 eph.pub ++ str "\n" ++ base64Encode hostConfig ++ str "\n"

inductive ClientError where
  | eof
  /-- `invite: server replied %q`. -/
  | replied (line : GoString)
  /-- `invite: malformed OK %q`. -/
  | malformedOK (line : GoString)
  /-- `invite: bad server pub`. -/
  | badServerPub (e : PubError)
  /-- `invite: bad sig b64`. -/
  | badSig
  /-- `read ct`. -/
  | readCt
  /-- `invite: bad ct b64`. -/
  | badCt
  /-- The shared secret is zero. -/
  | deriveKey
  /-- `invite: decrypt failed (wrong cookie, MITM, or server impersonation)`. -/
  | decrypt
  /-- `invite: server response missing Ed25519PublicKey`. -/
  | missingKey
  /-- `invite: keyhash mismatch (URL=%s, server=%s)`. -/
  | keyHash (url server : GoString)
  /-- `invite: signature verification failed`. -/
  | signature
  deriving DecidableEq

/-- The reading part of `roundtrip` and `parseEncryptedReply`. -/
def readReply (input : GoString) : Except ClientError Reply :=
  match readString input with
  | none => .error .eof
  | some (first, r) =>
    let statusLine := trimEOL first
    match cutLead (str "OK ") statusLine with
    | none => .error (.replied statusLine)
    | some rest =>
      match fields rest with
      | [pubB64, sigB64] =>
        match ephemeralPubFromBase64 pubB64 with
        | .error e => .error (.badServerPub e)
        | .ok serverPub =>
          match base64Decode sigB64 with
          | none => .error .badSig
          | some sig =>
            match readString r with
            | none => .error .readCt
            | some (ctLine, _) =>
              match base64Decode (trimEOL ctLine) with
              | none => .error .badCt
              | some ct => .ok ⟨serverPub, sig, ct⟩
      | _ => .error (.malformedOK statusLine)

/-- The inviter's key, which the first host block of the invitation gives. -/
def findInviterEd25519Pub (file : GoString) : Option Ed25519Public :=
  match Invite.parseFile file with
  | .error _ => none
  | .ok f =>
    f.hosts.head?.bind fun host =>
      (Config.Entries.getFirst host.other (str "Ed25519PublicKey")).bind fun pubStr =>
        parseEd25519PublicBase64 (trimSpace pubStr)

section

variable [Ed25519] [Sha256] [Sealing] (eph : Ephemeral) (cookie expectedKeyHash : GoString)

/-- The checking part of `parseEncryptedReply`. -/
def checkReply (r : Reply) : Except ClientError GoString :=
  match eph.deriveKey r.serverPub cookie with
  | none => .error .deriveKey
  | some key =>
    match Sealing.aeadOpen key r.ct with
    | none => .error .decrypt
    | some pt =>
      match findInviterEd25519Pub pt with
      | none => .error .missingKey
      | some inviterPub =>
        if expectedKeyHash ≠ [] ∧ inviterPub.hash ≠ expectedKeyHash then
          .error (.keyHash expectedKeyHash inviterPub.hash)
        else if inviterPub.verify (sigPayload r.serverPub cookie) r.sig = false then
          .error .signature
        else .ok pt

/-- `roundtrip`, from the first byte of the answer on. -/
def roundtrip (input : GoString) : Except ClientError GoString :=
  match readReply input with
  | .error e => .error e
  | .ok r => checkReply eph cookie expectedKeyHash r

end

end Gsnet.Transport
