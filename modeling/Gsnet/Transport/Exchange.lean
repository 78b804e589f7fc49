import Gsnet.Gossip.Announce
import Gsnet.Lib.Machine
import Gsnet.Transport

/-!
# Invitations over a hostile network

One inviter with any number of connections, any number of clients, and a network
that belongs to the attacker: what arrives on a connection and what a client gets
to read are labels of the steps, whatever was sent. Every other node is the
attacker's. The steps of `handleInviteJoin` are those of the file system, so that
connections interleave, and the disk may change in between. The inviter goes on
announcing and receiving gossip, under the key it signs its answers with.

What cryptography keeps from the attacker is a condition on the steps (`Allowed`);
beside it stand the laws of the algorithms (`Ideal`).
-/

namespace Gsnet.Transport

open Go Invite Daemon Gossip

/-- What the signed part of an answer begins with. -/
def inviteLabel : GoString := str "gsnet-invite-v1" ++ [0]

/-- A node that answers invitation requests. -/
structure Inviter where
  nodeName : GoString
  edPriv : Ed25519Private
  paths : Paths
  /-- `ed25519.PrivateKeySize`. -/
  key_length : edPriv.raw.length = 64
  /-- What it announces under its name does not begin like an answer. -/
  name_apart : ¬ inviteLabel <+: nodeName

/-- No name that is accepted for a node holds a NUL. -/
theorem name_apart_of_validate {name : GoString} (h : Nodename.validate name = .ok ()) :
    ¬ inviteLabel <+: name := by
  intro hlead
  have hnul : (0 : UInt8) ∈ inviteLabel := by decide
  exact absurd (Nodename.validate_ok h 0 (hlead.subset hnul)) (by decide)

/-! ## States -/

/-- A call of the client's `InviteGet` or `InviteJoin`. -/
structure Call where
  request : Request
  expectedKeyHash : GoString
  deriving DecidableEq

inductive Client where
  | idle
  | waiting (c : Call) (eph : Ephemeral)
  | returned (c : Call) (eph : Ephemeral) (pt : GoString)
  | failed (c : Call) (eph : Ephemeral) (e : ClientError)
  deriving DecidableEq

/-- The key pair a client has drawn. -/
def Client.eph? : Client → Option Ephemeral
  | idle => none
  | waiting _ eph | returned _ eph _ | failed _ eph _ => some eph

/-- The call of a client that waits for an answer. -/
def Client.waiting? : Client → Option (Call × Ephemeral)
  | waiting c eph => some (c, eph)
  | _ => none

/-- How far the inviter has come with a connection. -/
inductive Conn where
  | new
  | asked (r : Request) (clientPub : EphemeralPub)
  /-- `handleInviteJoin` has read the invitation, and it is for that node. -/
  | read (cookie inviteeName hostConfig : GoString) (clientPub : EphemeralPub) (file : GoString)
  /-- It has written the host file. -/
  | wrote (cookie inviteeName hostConfig : GoString) (clientPub : EphemeralPub) (file : GoString)
  /-- The handler has returned. -/
  | handled (r : Request) (clientPub : EphemeralPub) (body : GoString)
  | closed
  deriving DecidableEq

/-- An execution of `encryptAndReply` that answers. -/
structure Answer where
  request : Request
  clientPub : EphemeralPub
  plaintext : GoString
  server : Ephemeral
  reply : Reply
  deriving DecidableEq

/-- The key an answer is sealed under. -/
def Answer.key [Sealing] (a : Answer) : Option GoString :=
  a.server.deriveKey a.clientPub (cookieOf a.request)

structure Exchange (ι κ : Type) where
  fs : FileSystem
  plane : Plane
  conns : κ → Conn
  clients : ι → Client
  /-- The public halves of the key pairs that inviter and clients have drawn. -/
  drawn : List EphemeralPub := []
  /-- The messages the inviter has signed. -/
  signed : List GoString := []
  answers : List Answer := []
  /-- The host files that were written, by name and content. -/
  written : List (GoString × GoString) := []

namespace Exchange

variable {ι κ : Type} [DecidableEq ι] [DecidableEq κ]

def start (v : Inviter) (fs : FileSystem) (lookup : Option (GoString → Option Ed25519Public)) :
    Exchange ι κ where
  fs := fs
  plane := newPlane v.nodeName (some v.edPriv) lookup
  conns := fun _ => .new
  clients := fun _ => .idle

def setConn (s : Exchange ι κ) (k : κ) (c : Conn) : Exchange ι κ :=
  { s with conns := Function.update s.conns k c }

def setClient (s : Exchange ι κ) (i : ι) (c : Client) : Exchange ι κ :=
  { s with clients := Function.update s.clients i c }

omit [DecidableEq ι] in
@[simp] theorem setConn_self (s : Exchange ι κ) (k : κ) (c : Conn) :
    (s.setConn k c).conns k = c := by
  simp [setConn]

omit [DecidableEq ι] in
theorem setConn_of_ne (s : Exchange ι κ) {j k : κ} (h : j ≠ k) (c : Conn) :
    (s.setConn k c).conns j = s.conns j := by
  simp [setConn, h]

omit [DecidableEq κ] in
@[simp] theorem setClient_self (s : Exchange ι κ) (i : ι) (c : Client) :
    (s.setClient i c).clients i = c := by
  simp [setClient]

omit [DecidableEq κ] in
theorem setClient_of_ne (s : Exchange ι κ) {i j : ι} (h : j ≠ i) (c : Client) :
    (s.setClient i c).clients j = s.clients j := by
  simp [setClient, h]

/-- The inviter announces something. -/
def announce [Ed25519] (s : Exchange ι κ) (a : Announcement) (ts : Int64) : Exchange ι κ :=
  { s with
    plane := (s.plane.announce a ts).1
    signed := (s.plane.announce a ts).2.signingBytes :: s.signed }

/-- A key pair is drawn. -/
def draw [Sealing] (s : Exchange ι κ) (eph : Ephemeral) : Exchange ι κ :=
  { s with drawn := eph.pub :: s.drawn }

/-- `encryptAndReply` has answered. -/
def record [Sealing] (s : Exchange ι κ) (a : Answer) : Exchange ι κ :=
  { s with
    signed := sigPayload a.server.pub (cookieOf a.request) :: s.signed
    answers := a :: s.answers }

end Exchange

/-! ## Steps -/

inductive ExchangeStep (ι κ : Type) where
  /-- A connection brings these bytes. -/
  | connect (k : κ) (input : GoString)
  /-- `handleInviteGet` runs. -/
  | get (k : κ)
  /-- `handleInviteJoin` reads the invitation. -/
  | read (k : κ)
  | write (k : κ)
  /-- It removes the invitation, which the file system may refuse, and announces the invitee. -/
  | remove (k : κ) (works : Bool) (ts : Int64)
  /-- `encryptAndReply` runs, with this private key drawn. -/
  | answer (k : κ) (priv : GoString)
  | announce (a : Announcement) (ts : Int64)
  | receive (env : Envelope)
  /-- Somebody else changes the disk. -/
  | disk (fs : FileSystem)
  /-- A client calls, with this private key drawn. -/
  | call (i : ι) (c : Call) (priv : GoString)
  /-- A client gets these bytes to read. -/
  | reply (i : ι) (input : GoString)

section Steps

variable {ι κ : Type} [DecidableEq ι] [DecidableEq κ] [Ed25519] [Sha256] [Sealing]

/-- The end of `handleInviteJoin`. -/
def Exchange.finishJoin (s : Exchange ι κ) (inviteeName hostConfig : GoString) (ts : Int64) :
    Exchange ι κ :=
  match inviteeHello inviteeName hostConfig with
  | some h => s.announce (.hello h) ts
  | none => s

def Exchange.act (v : Inviter) (s : Exchange ι κ) : ExchangeStep ι κ → Option (Exchange ι κ)
  | .connect k input =>
    match s.conns k with
    | .new =>
      match readInbound input with
      | .ok (.invite r clientPub) => some (s.setConn k (.asked r clientPub))
      | _ => some (s.setConn k .closed)
    | _ => none
  | .get k =>
    match s.conns k with
    | .asked (.get cookie) clientPub =>
      match (handleInviteGet s.fs v.paths cookie).reply with
      | .ok body => some (s.setConn k (.handled (.get cookie) clientPub body))
      | .error _ => some (s.setConn k .closed)
    | _ => none
  | .read k =>
    match s.conns k with
    | .asked (.join cookie name host) clientPub =>
      match readInvitation s.fs v.paths cookie name with
      | .ok file => some (s.setConn k (.read cookie name host clientPub file))
      | .error _ => some (s.setConn k .closed)
    | _ => none
  | .write k =>
    match s.conns k with
    | .read cookie name host clientPub file =>
      match writeHost s.fs v.paths name host with
      | .ok fs =>
        some { s.setConn k (.wrote cookie name host clientPub file) with
          fs := fs
          written := (name, host) :: s.written }
      | .error fs => some { s.setConn k .closed with fs := fs }
    | _ => none
  | .remove k works ts =>
    match s.conns k with
    | .wrote cookie name host clientPub file =>
      let s := { s with fs := if works then consume s.fs v.paths cookie else s.fs }
      some ((s.finishJoin name host ts).setConn k
        (.handled (.join cookie name host) clientPub file))
    | _ => none
  | .answer k priv =>
    match s.conns k with
    | .handled r clientPub body =>
      let server : Ephemeral := ⟨priv⟩
      let s := (s.draw server).setConn k .closed
      match encryptAndReply v.edPriv server (cookieOf r) clientPub body with
      | some reply => some (s.record ⟨r, clientPub, body, server, reply⟩)
      | none => some s
    | _ => none
  | .announce a ts => some (s.announce a ts)
  | .receive env => some { s with plane := s.plane.afterReceive env }
  | .disk fs => some { s with fs := fs }
  | .call i c priv =>
    match s.clients i with
    | .idle => some ((s.draw ⟨priv⟩).setClient i (.waiting c ⟨priv⟩))
    | _ => none
  | .reply i input =>
    match s.clients i with
    | .waiting c eph =>
      match roundtrip eph (cookieOf c.request) c.expectedKeyHash input with
      | .ok pt => some (s.setClient i (.returned c eph pt))
      | .error e => some (s.setClient i (.failed c eph e))
    | _ => none

omit [DecidableEq ι] [DecidableEq κ] [Sha256] [Sealing] in
theorem Exchange.finishJoin_frame (s : Exchange ι κ) (inviteeName hostConfig : GoString)
    (ts : Int64) :
    (s.finishJoin inviteeName hostConfig ts).fs = s.fs
      ∧ (s.finishJoin inviteeName hostConfig ts).signed
        = (inviteeHello inviteeName hostConfig).elim s.signed (fun h =>
          (s.plane.announce (.hello h) ts).2.signingBytes :: s.signed) := by
  unfold Exchange.finishJoin
  cases inviteeHello inviteeName hostConfig <;> exact ⟨rfl, rfl⟩

/-- **A `JOIN` that nothing interrupts is `handleInviteJoin`.** -/
theorem Exchange.act_join_alone (v : Inviter) (s : Exchange ι κ) (k : κ) (ts : Int64)
    {cookie name host : GoString} {clientPub : EphemeralPub}
    (hk : s.conns k = .asked (.join cookie name host) clientPub) :
    ∃ labels s', Lib.runActs (act v) s labels = some s'
      ∧ s'.fs = (handleInviteJoin s.fs v.paths cookie name host).fs
      ∧ (∀ body, s'.conns k = .handled (.join cookie name host) clientPub body
        ↔ (handleInviteJoin s.fs v.paths cookie name host).reply = .ok body)
      ∧ s'.signed = (handleInviteJoin s.fs v.paths cookie name host).hello.elim s.signed
        (fun h => (s.plane.announce (.hello h) ts).2.signingBytes :: s.signed) := by
  cases hr : readInvitation s.fs v.paths cookie name with
  | error e =>
      refine ⟨[.read k], s.setConn k .closed, ?_, ?_, ?_, ?_⟩
      · simp [Lib.runActs, act, hk, hr]
      · simp [handleInviteJoin, hr, setConn]
      · simp [handleInviteJoin, hr, setConn]
      · simp [handleInviteJoin, hr, setConn]
  | ok file =>
      cases hw : writeHost s.fs v.paths name host with
      | error fs =>
          refine ⟨[.read k, .write k], { s.setConn k .closed with fs := fs }, ?_, ?_, ?_, ?_⟩
          · simp [Lib.runActs, act, hk, hr, hw, setConn]
          · simp [handleInviteJoin, hr, hw]
          · simp [handleInviteJoin, hr, hw, setConn]
          · simp [handleInviteJoin, hr, hw, setConn]
      | ok fs =>
          let done : Exchange ι κ :=
            { s with
              conns := Function.update s.conns k (.wrote cookie name host clientPub file)
              fs := consume fs v.paths cookie
              written := (name, host) :: s.written }
          refine ⟨[.read k, .write k, .remove k true ts], (done.finishJoin name host ts).setConn k
            (.handled (.join cookie name host) clientPub file), ?_, ?_, ?_, ?_⟩
          · simp [Lib.runActs, act, hk, hr, hw, setConn, done]
          · simp [handleInviteJoin, hr, hw, setConn, (done.finishJoin_frame name host ts).1, done]
          · simp [handleInviteJoin, hr, hw, setConn]
          · simp [handleInviteJoin, hr, hw, setConn, (done.finishJoin_frame name host ts).2, done]

end Steps

/-! ## What the attacker cannot do -/

/-- The laws of the algorithms, as if they were ideal. -/
structure Ideal [Sha256] [Sealing] : Prop where
  /-- A shared secret belongs to one pair of key pairs, whichever side computes it. -/
  shared : ∀ {a a' k : GoString} {b b' : EphemeralPub}, Sealing.x25519 a b = some k →
    Sealing.x25519 a' b' = some k →
      (Sealing.basepoint a = Sealing.basepoint a' ∧ b = b')
        ∨ (Sealing.basepoint a = b' ∧ b = Sealing.basepoint a')
  /-- Different shared secrets give different keys. -/
  hkdf : ∀ {a a' k k' salt salt' : GoString} {b b' : EphemeralPub}, Sealing.x25519 a b = some k →
    Sealing.x25519 a' b' = some k' →
      Sealing.hkdf k salt hkdfInfo = Sealing.hkdf k' salt' hkdfInfo → k = k'
  /-- Different public keys have different hashes. -/
  sum256 : ∀ {a b : GoString}, a.length = publicKeySize → b.length = publicKeySize →
    Sha256.sum256 a = Sha256.sum256 b → a = b

section Attacker

variable {ι κ : Type} [Ed25519] [Sealing] (v : Inviter)

/-- The private keys the attacker works with. -/
abbrev Keyring := Set GoString

/-- A new key pair is nobody else's. -/
def Exchange.Fresh (adv : Keyring) (s : Exchange ι κ) (eph : Ephemeral) : Prop :=
  eph.pub ∉ s.drawn ∧ ∀ x ∈ adv, (Ephemeral.mk x).pub ≠ eph.pub

/-- What a client is given to read was not forged. -/
structure Exchange.Unforged (adv : Keyring) (s : Exchange ι κ) (c : Call) (eph : Ephemeral)
    (r : Reply) : Prop where
  /-- A signature that the inviter's key accepts is on a message the inviter has signed. -/
  sig : v.edPriv.public.verify (sigPayload r.serverPub (cookieOf c.request)) r.sig = true →
    sigPayload r.serverPub (cookieOf c.request) ∈ s.signed
  /-- What opens was sealed in an answer, or under a key that the attacker can derive. -/
  ct : ∀ key ∈ eph.deriveKey r.serverPub (cookieOf c.request),
    ∀ pt ∈ Sealing.aeadOpen key r.ct,
      (∃ a ∈ s.answers, a.key = some key ∧ a.plaintext = pt)
        ∨ ∃ x ∈ adv, ∃ peer cookie, (Ephemeral.mk x).deriveKey peer cookie = some key

/-- The steps the attacker can bring about. -/
def Exchange.Allowed (adv : Keyring) (s : Exchange ι κ) : ExchangeStep ι κ → Prop
  | .answer _ priv => s.Fresh adv ⟨priv⟩
  | .call _ _ priv => s.Fresh adv ⟨priv⟩
  | .reply i input => ∀ w ∈ (s.clients i).waiting?, ∀ r ∈ (readReply input).toOption,
      s.Unforged v adv w.1 w.2 r
  | _ => True

end Attacker

end Gsnet.Transport
