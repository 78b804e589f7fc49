import Gsnet.Transport.Exchange

/-!
# Whom an invitee talks to

A client that is given the hash of the inviter's key returns only what the
inviter put into an answer to that client's own ephemeral key and cookie. The
hash fixes the key, so the signature is the inviter's, and nothing else the
inviter signs looks like it: the ephemeral key in the reply is one the inviter
drew. The attacker has neither private half, so what opens under the shared key
was sealed in the answer that drew that ephemeral key.

Nothing in the answer depends on the command. The inviter may have answered a
`GET`, or a `JOIN` with another name and another host config than the client sent.
-/

namespace Gsnet.Transport

open Go Invite Daemon Gossip Lib

/-! ## What is signed -/

/-- The two parts of a signed answer can be read off it. -/
theorem sigPayload_inj {p q : EphemeralPub} {c d : GoString}
    (h : sigPayload p c = sigPayload q d) : p = q ∧ c = d := by
  unfold sigPayload at h
  simp only [List.append_assoc, List.append_cancel_left_eq] at h
  obtain ⟨hpub, hrest⟩ := List.append_inj h (by rw [p.length_raw, q.length_raw])
  exact ⟨EphemeralPub.ext hpub, List.append_cancel_left hrest⟩

/-- An announcement begins with the name of the node and a slash. -/
theorem announce_signingBytes [Ed25519] (p : Plane) (a : Announcement) (ts : Int64) :
    ∃ rest, (p.announce a ts).2.signingBytes = p.nodeName ++ 0x2F :: rest := by
  obtain ⟨tail, hid⟩ := a.id_eq p.nodeName
  unfold Envelope.signingBytes
  rw [Plane.announce_id, hid]
  simp only [List.append_assoc, List.cons_append]
  exact ⟨_, rfl⟩

/-- **No announcement of an inviter is a signed answer.** -/
theorem Inviter.announcement_ne_sigPayload (v : Inviter) (rest : GoString) (pub : EphemeralPub)
    (cookie : GoString) : v.nodeName ++ 0x2F :: rest ≠ sigPayload pub cookie := by
  intro h
  have hlabel : sigPayload pub cookie = inviteLabel ++ (pub.raw ++ [0] ++ cookie) := by
    unfold sigPayload inviteLabel
    simp only [List.append_assoc]
  rw [hlabel] at h
  rcases List.append_eq_append_iff.mp h with ⟨tail, hname, htail⟩ | ⟨tail, hname, -⟩
  · -- the slash would be in the label, or the name all of it
    cases tail with
    | nil => exact v.name_apart ⟨[], by rw [hname, List.append_nil, List.append_nil]⟩
    | cons b tail =>
        have hb : (0x2F : UInt8) = b := (List.cons.inj htail).1
        have hslash : (0x2F : UInt8) ∈ inviteLabel := by rw [hname, hb]; simp
        exact absurd hslash (by decide)
  · exact v.name_apart ⟨tail, hname.symm⟩

/-! ## What a client checks -/

/-- What a client has made sure of when it returns. -/
theorem roundtrip_ok [Ed25519] [Sha256] [Sealing] {eph : Ephemeral}
    {cookie expectedKeyHash input pt : GoString}
    (h : roundtrip eph cookie expectedKeyHash input = .ok pt) :
    ∃ (r : Reply) (key : GoString) (pub : Ed25519Public), readReply input = .ok r
      ∧ eph.deriveKey r.serverPub cookie = some key
      ∧ Sealing.aeadOpen key r.ct = some pt
      ∧ (expectedKeyHash ≠ [] → pub.hash = expectedKeyHash)
      ∧ pub.verify (sigPayload r.serverPub cookie) r.sig = true := by
  unfold roundtrip at h
  split at h
  · cases h
  · rename_i r hr
    unfold checkReply at h
    split at h
    · cases h
    · rename_i key hkey
      split at h
      · cases h
      · rename_i pt' hopen
        split at h
        · cases h
        · rename_i pub _
          split at h
          · cases h
          · rename_i hhash
            split at h
            · cases h
            · rename_i hsig
              cases h
              refine ⟨r, key, pub, hr, hkey, hopen, fun hne => ?_, by simpa using hsig⟩
              by_contra hother
              exact hhash ⟨hne, hother⟩

theorem Inviter.length_public (v : Inviter) : v.edPriv.public.raw.length = publicKeySize := by
  show (v.edPriv.raw.drop 32).length = 32
  rw [List.length_drop, v.key_length]

/-- The hash fixes the key. -/
theorem Ideal.hash_inj [Sha256] [Sealing] (ideal : Ideal) {p q : Ed25519Public}
    (hp : p.raw.length = publicKeySize) (hq : q.raw.length = publicKeySize)
    (h : p.hash = q.hash) : p = q := by
  have hsum : Sha256.sum256 p.raw = Sha256.sum256 q.raw :=
    base64RawURLEncode_inj (by rw [Sha256.length_sum256, Sha256.length_sum256]) h
  have hraw := ideal.sum256 hp hq hsum
  cases p
  cases q
  exact congrArg _ hraw

/-- A key belongs to one pair of key pairs, whichever side derives it. -/
theorem Ideal.deriveKey_inj [Sha256] [Sealing] (ideal : Ideal) {e e' : Ephemeral}
    {b b' : EphemeralPub} {cookie cookie' key : GoString} (h : e.deriveKey b cookie = some key)
    (h' : e'.deriveKey b' cookie' = some key) :
    (e.pub = e'.pub ∧ b = b') ∨ (e.pub = b' ∧ b = e'.pub) := by
  obtain ⟨k, hk, hkey⟩ := Option.map_eq_some_iff.mp h
  obtain ⟨k', hk', hkey'⟩ := Option.map_eq_some_iff.mp h'
  cases ideal.hkdf hk hk' (hkey.trans hkey'.symm)
  exact ideal.shared hk hk'

/-! ## What a run keeps -/

namespace Exchange

section Keys

variable {ι κ : Type} [Ed25519] [Sha256] [Sealing] {v : Inviter} {adv : Keyring}
  {s s' : Exchange ι κ}

/-- The inviter has answered with that plaintext, for the cookie and the key of that call. -/
def Vouched (s : Exchange ι κ) (c : Call) (eph : Ephemeral) (pt : GoString) : Prop :=
  ∃ a ∈ s.answers, cookieOf a.request = cookieOf c.request ∧ a.clientPub = eph.pub
    ∧ a.plaintext = pt

/-- What is known of the keys, the signatures and the answers. -/
structure Inv (v : Inviter) (adv : Keyring) (s : Exchange ι κ) : Prop where
  named : s.plane.nodeName = v.nodeName
  /-- What is signed is an announcement or part of an answer. -/
  signed : ∀ m ∈ s.signed, (∃ rest, m = v.nodeName ++ 0x2F :: rest)
    ∨ ∃ a ∈ s.answers, m = sigPayload a.server.pub (cookieOf a.request)
  answered : ∀ a ∈ s.answers,
    encryptAndReply v.edPriv a.server (cookieOf a.request) a.clientPub a.plaintext = some a.reply
  /-- The attacker has none of the keys that were drawn. -/
  secret : ∀ p ∈ s.drawn, ∀ x ∈ adv, (Ephemeral.mk x).pub ≠ p
  server_drawn : ∀ a ∈ s.answers, a.server.pub ∈ s.drawn
  client_drawn : ∀ i, ∀ eph ∈ (s.clients i).eph?, eph.pub ∈ s.drawn
  /-- No two answers are under one key of the inviter. -/
  once : ∀ a ∈ s.answers, ∀ b ∈ s.answers, a.server.pub = b.server.pub → a = b
  /-- No client has a key of the inviter. -/
  apart : ∀ a ∈ s.answers, ∀ i, ∀ eph ∈ (s.clients i).eph?, eph.pub ≠ a.server.pub
  /-- Clients that expect the inviter have what the inviter answered. -/
  vouched : ∀ i c eph pt, s.clients i = .returned c eph pt →
    c.expectedKeyHash = v.edPriv.public.hash → s.Vouched c eph pt

theorem inv_start (fs : FileSystem) (lookup : Option (GoString → Option Ed25519Public)) :
    (start v fs lookup : Exchange ι κ).Inv v adv where
  named := rfl
  signed := by intro m hm; cases hm
  answered := by intro a ha; cases ha
  secret := by intro p hp; cases hp
  server_drawn := by intro a ha; cases ha
  client_drawn := by intro i eph heph; cases heph
  once := by intro a ha; cases ha
  apart := by intro a ha; cases ha
  vouched := by intro i c eph pt hi; cases hi

/-- A step that leaves the keys, the signatures and the answers alone. -/
theorem Inv.frame (h : s.Inv v adv) (hname : s'.plane.nodeName = s.plane.nodeName)
    (hclients : s'.clients = s.clients) (hdrawn : s'.drawn = s.drawn)
    (hsigned : s'.signed = s.signed) (hanswers : s'.answers = s.answers) : s'.Inv v adv where
  named := hname.trans h.named
  signed := by rw [hsigned, hanswers]; exact h.signed
  answered := by rw [hanswers]; exact h.answered
  secret := by rw [hdrawn]; exact h.secret
  server_drawn := by rw [hanswers, hdrawn]; exact h.server_drawn
  client_drawn := by rw [hclients, hdrawn]; exact h.client_drawn
  once := by rw [hanswers]; exact h.once
  apart := by rw [hanswers, hclients]; exact h.apart
  vouched := by unfold Vouched; rw [hclients, hanswers]; exact h.vouched

theorem Inv.announce (h : s.Inv v adv) (a : Announcement) (ts : Int64) :
    (s.announce a ts).Inv v adv := by
  refine { h with named := (Plane.announce_nodeName _ _ _).trans h.named, signed := ?_ }
  intro m hm
  rcases List.mem_cons.mp hm with rfl | hm
  · obtain ⟨rest, hrest⟩ := announce_signingBytes s.plane a ts
    exact .inl ⟨rest, by rw [hrest, h.named]⟩
  · exact h.signed m hm

theorem Inv.draw (h : s.Inv v adv) {eph : Ephemeral} (hfresh : s.Fresh adv eph) :
    (s.draw eph).Inv v adv := by
  refine { h with
    secret := ?_
    server_drawn := fun a ha => List.mem_cons_of_mem _ (h.server_drawn a ha)
    client_drawn := fun i e he => List.mem_cons_of_mem _ (h.client_drawn i e he) }
  intro p hp
  rcases List.mem_cons.mp hp with rfl | hp
  · exact hfresh.2
  · exact h.secret p hp

/-- An answer under a new key. -/
theorem Inv.answer (h : s.Inv v adv) {a : Answer} (hfresh : s.Fresh adv a.server)
    (hreply : encryptAndReply v.edPriv a.server (cookieOf a.request) a.clientPub a.plaintext
      = some a.reply) : ((s.draw a.server).record a).Inv v adv := by
  have hdraw := h.draw hfresh
  -- the key is not among those of earlier answers and of clients
  have hserver : ∀ b ∈ s.answers, a.server.pub ≠ b.server.pub := by
    intro b hb heq
    exact hfresh.1 (heq ▸ h.server_drawn b hb)
  have hclient : ∀ i, ∀ eph ∈ (s.clients i).eph?, eph.pub ≠ a.server.pub := by
    intro i eph heph heq
    exact hfresh.1 (heq ▸ h.client_drawn i eph heph)
  refine { hdraw with
    signed := ?_
    answered := ?_
    server_drawn := ?_
    once := ?_
    apart := ?_
    vouched := ?_ }
  · intro m hm
    rcases List.mem_cons.mp hm with rfl | hm
    · exact .inr ⟨a, List.mem_cons_self, rfl⟩
    · rcases h.signed m hm with hann | ⟨b, hb, hm⟩
      · exact .inl hann
      · exact .inr ⟨b, List.mem_cons_of_mem _ hb, hm⟩
  · intro b hb
    rcases List.mem_cons.mp hb with rfl | hb
    · exact hreply
    · exact h.answered b hb
  · intro b hb
    rcases List.mem_cons.mp hb with rfl | hb
    · exact List.mem_cons_self
    · exact List.mem_cons_of_mem _ (h.server_drawn b hb)
  · intro b hb c hc heq
    rcases List.mem_cons.mp hb with rfl | hb <;> rcases List.mem_cons.mp hc with rfl | hc
    · rfl
    · exact absurd heq (hserver c hc)
    · exact absurd heq.symm (hserver b hb)
    · exact h.once b hb c hc heq
  · intro b hb
    rcases List.mem_cons.mp hb with rfl | hb
    · exact hclient
    · exact h.apart b hb
  · intro i c eph pt hi hhash
    obtain ⟨b, hb, hvouched⟩ := h.vouched i c eph pt hi hhash
    exact ⟨b, List.mem_cons_of_mem _ hb, hvouched⟩

variable [DecidableEq ι]

/-- A client moves on with the key it has. -/
theorem Inv.settle (h : s.Inv v adv) {i : ι} {cl : Client} (heph : cl.eph? = (s.clients i).eph?)
    (hret : ∀ c eph pt, cl = .returned c eph pt → c.expectedKeyHash = v.edPriv.public.hash →
      s.Vouched c eph pt) : (s.setClient i cl).Inv v adv := by
  have hsame : ∀ j, ((s.setClient i cl).clients j).eph? = (s.clients j).eph? := by
    intro j
    by_cases hji : j = i
    · rw [hji, setClient_self, heph]
    · rw [setClient_of_ne _ hji]
  refine { h with client_drawn := ?_, apart := ?_, vouched := ?_ }
  · intro j eph hj
    exact h.client_drawn j eph (hsame j ▸ hj)
  · intro a ha j eph hj
    exact h.apart a ha j eph (hsame j ▸ hj)
  · intro j c eph pt hj
    by_cases hji : j = i
    · rw [hji, setClient_self] at hj
      exact hret c eph pt hj
    · rw [setClient_of_ne _ hji] at hj
      exact h.vouched j c eph pt hj

/-- A client calls with a new key. -/
theorem Inv.call (h : s.Inv v adv) {i : ι} {c : Call} {eph : Ephemeral}
    (hfresh : s.Fresh adv eph) : ((s.draw eph).setClient i (.waiting c eph)).Inv v adv := by
  have hdraw := h.draw hfresh
  refine { hdraw with client_drawn := ?_, apart := ?_, vouched := ?_ }
  · intro j e hj
    by_cases hji : j = i
    · rw [hji, setClient_self] at hj
      cases hj
      exact List.mem_cons_self
    · rw [setClient_of_ne _ hji] at hj
      exact hdraw.client_drawn j e hj
  · intro a ha j e hj
    by_cases hji : j = i
    · rw [hji, setClient_self] at hj
      cases hj
      intro heq
      exact hfresh.1 (heq ▸ h.server_drawn a ha)
    · rw [setClient_of_ne _ hji] at hj
      exact hdraw.apart a ha j e hj
  · intro j c' e pt hj
    by_cases hji : j = i
    · rw [hji, setClient_self] at hj
      cases hj
    · rw [setClient_of_ne _ hji] at hj
      exact hdraw.vouched j c' e pt hj

omit [DecidableEq ι] in
/-- **A client that expects the inviter returns what the inviter answered.** -/
theorem Inv.vouched_of_roundtrip (ideal : Ideal) (h : s.Inv v adv) {i : ι} {c : Call}
    {eph : Ephemeral} {input pt : GoString} (hi : s.clients i = .waiting c eph)
    (hok : s.Allowed v adv (.reply i input))
    (hret : roundtrip eph (cookieOf c.request) c.expectedKeyHash input = .ok pt)
    (hhash : c.expectedKeyHash = v.edPriv.public.hash) : s.Vouched c eph pt := by
  have hdrawn : eph ∈ (s.clients i).eph? := by rw [hi]; rfl
  obtain ⟨r, key, pub, hread, hkey, hopen, hexpected, hsig⟩ := roundtrip_ok hret
  have hunforged : s.Unforged v adv c eph r :=
    hok (c, eph) (by rw [hi]; rfl) r (by rw [hread]; rfl)
  -- the key in the plaintext is the inviter's
  have hpub : pub = v.edPriv.public := by
    refine ideal.hash_inj (Ed25519Public.length_of_verify hsig) v.length_public ?_
    rw [← hhash]
    exact hexpected (hhash ▸ Ed25519Public.hash_ne_nil _)
  -- so the inviter drew the key of the reply, for that cookie
  obtain ⟨a, ha, hserver, hcookie⟩ : ∃ a ∈ s.answers, a.server.pub = r.serverPub
      ∧ cookieOf a.request = cookieOf c.request := by
    rcases h.signed _ (hunforged.sig (hpub ▸ hsig)) with ⟨rest, hann⟩ | ⟨a, ha, heq⟩
    · exact absurd hann.symm (v.announcement_ne_sigPayload rest _ _)
    · obtain ⟨hserver, hcookie⟩ := sigPayload_inj heq
      exact ⟨a, ha, hserver.symm, hcookie.symm⟩
  rcases hunforged.ct key hkey pt hopen with ⟨b, hb, hbkey, hbpt⟩ | ⟨x, hx, peer, cookie, hxkey⟩
  · -- the plaintext was sealed in an answer under the same key
    rcases ideal.deriveKey_inj hkey hbkey with ⟨hsame, -⟩ | ⟨hclient, hpair⟩
    · exact absurd hsame (h.apart b hb i eph hdrawn)
    · have hab : a = b := h.once a ha b hb (hserver.trans hpair)
      exact ⟨b, hb, hab ▸ hcookie, hclient.symm, hbpt⟩
  · -- the attacker would have one of the two private halves
    rcases ideal.deriveKey_inj hkey hxkey with ⟨hsame, -⟩ | ⟨-, hpair⟩
    · exact absurd hsame.symm (h.secret _ (h.client_drawn i eph hdrawn) x hx)
    · exact absurd (hpair.symm.trans hserver.symm) (h.secret _ (h.server_drawn a ha) x hx)

end Keys

section Requests

/-- What a request asks for was done: for a `JOIN`, the host file was written. -/
def CarriedOut (written : List (GoString × GoString)) (body : GoString) : Request → Prop
  | .get _ => True
  | .join _ name host => checkInvitee body name = .ok () ∧ (name, host) ∈ written

theorem CarriedOut.mono {written : List (GoString × GoString)} {body : GoString} {r : Request}
    (h : CarriedOut written body r) (w : GoString × GoString) :
    CarriedOut (w :: written) body r := by
  cases r with
  | get cookie => trivial
  | join cookie name host => exact ⟨h.1, List.mem_cons_of_mem _ h.2⟩

/-- What was done for the request of a connection, as far as it has come. -/
def ConnKept (written : List (GoString × GoString)) : Conn → Prop
  | .read _ name _ _ file => checkInvitee file name = .ok ()
  | .wrote cookie name host _ file => CarriedOut written file (.join cookie name host)
  | .handled r _ body => CarriedOut written body r
  | _ => True

theorem ConnKept.mono {written : List (GoString × GoString)} {c : Conn} (h : ConnKept written c)
    (w : GoString × GoString) : ConnKept (w :: written) c := by
  cases c with
  | wrote cookie name host pub file =>
      have hdone : CarriedOut written file (.join cookie name host) := h
      exact hdone.mono w
  | handled r pub body =>
      have hdone : CarriedOut written body r := h
      exact hdone.mono w
  | read cookie name host pub file => exact h
  | _ => trivial

variable {ι κ : Type} {v : Inviter} {s s' : Exchange ι κ}

/-- Nothing is answered before it is done. -/
structure Kept (s : Exchange ι κ) : Prop where
  conns : ∀ k, ConnKept s.written (s.conns k)
  answers : ∀ a ∈ s.answers, CarriedOut s.written a.plaintext a.request

theorem kept_start (fs : FileSystem) (lookup : Option (GoString → Option Ed25519Public)) :
    (start v fs lookup : Exchange ι κ).Kept where
  conns := fun _ => trivial
  answers := by intro a ha; cases ha

theorem Kept.frame (h : s.Kept) (hconns : s'.conns = s.conns) (hanswers : s'.answers = s.answers)
    (hwritten : s'.written = s.written) : s'.Kept where
  conns := by rw [hconns, hwritten]; exact h.conns
  answers := by rw [hanswers, hwritten]; exact h.answers

theorem Kept.setConn [DecidableEq κ] (h : s.Kept) (k : κ) {c : Conn} (hc : ConnKept s.written c) :
    (s.setConn k c).Kept := by
  refine ⟨fun j => ?_, h.answers⟩
  by_cases hjk : j = k
  · rw [hjk, setConn_self]
    exact hc
  · rw [setConn_of_ne _ hjk]
    exact h.conns j

theorem checkInvitee_of_readInvitation {fs : FileSystem} {paths : Paths}
    {cookie name file : GoString} (h : readInvitation fs paths cookie name = .ok file) :
    checkInvitee file name = .ok () := by
  unfold readInvitation at h
  split at h
  · cases h
  · rename_i content _
    cases hc : checkInvitee content name with
    | error e => rw [hc] at h; cases h
    | ok u => rw [hc] at h; cases h; exact hc

end Requests

section Run

variable {ι κ : Type} [DecidableEq ι] [DecidableEq κ] [Ed25519] [Sha256] [Sealing]
  {v : Inviter} {adv : Keyring} {s s' : Exchange ι κ}

theorem inv_step (ideal : Ideal) (h : s.Inv v adv) {a : ExchangeStep ι κ} (hok : s.Allowed v adv a)
    (hact : s.act v a = some s') : s'.Inv v adv := by
  cases a with
  | connect k input =>
      simp only [act] at hact
      split at hact
      · split at hact <;> cases hact <;> exact h.frame rfl rfl rfl rfl rfl
      · cases hact
  | get k =>
      simp only [act] at hact
      split at hact
      · split at hact <;> cases hact <;> exact h.frame rfl rfl rfl rfl rfl
      · cases hact
  | read k =>
      simp only [act] at hact
      split at hact
      · split at hact <;> cases hact <;> exact h.frame rfl rfl rfl rfl rfl
      · cases hact
  | write k =>
      simp only [act] at hact
      split at hact
      · split at hact <;> cases hact <;> exact h.frame rfl rfl rfl rfl rfl
      · cases hact
  | remove k works ts =>
      simp only [act] at hact
      split at hact
      · rename_i cookie name host clientPub file _
        cases hact
        unfold finishJoin
        split
        · rename_i hello _
          exact (h.announce (.hello hello) ts).frame rfl rfl rfl rfl rfl
        · exact h.frame rfl rfl rfl rfl rfl
      · cases hact
  | answer k priv =>
      simp only [act] at hact
      split at hact
      · rename_i r clientPub body _
        split at hact
        · rename_i reply hreply
          cases hact
          have hanswer := h.answer (a := ⟨r, clientPub, body, ⟨priv⟩, reply⟩) hok hreply
          exact hanswer.frame rfl rfl rfl rfl rfl
        · cases hact
          exact (h.draw hok).frame rfl rfl rfl rfl rfl
      · cases hact
  | announce a ts =>
      cases hact
      exact h.announce a ts
  | receive env =>
      cases hact
      exact h.frame (Plane.afterReceive_nodeName _ _) rfl rfl rfl rfl
  | disk fs =>
      cases hact
      exact h.frame rfl rfl rfl rfl rfl
  | call i c priv =>
      simp only [act] at hact
      split at hact
      · cases hact
        exact h.call hok
      · cases hact
  | reply i input =>
      simp only [act] at hact
      split at hact
      · rename_i c eph hi
        split at hact
        · rename_i pt hret
          cases hact
          refine h.settle (by rw [hi]; rfl) ?_
          intro c' eph' pt' heq hhash
          cases heq
          exact h.vouched_of_roundtrip ideal hi hok hret hhash
        · cases hact
          refine h.settle (by rw [hi]; rfl) ?_
          intro c' eph' pt' heq
          cases heq
      · cases hact

theorem inv_of_reached (ideal : Ideal) {fs : FileSystem}
    {lookup : Option (GoString → Option Ed25519Public)}
    (hrun : Reached (act v) (Allowed v adv) (start v fs lookup) s) : s.Inv v adv :=
  hrun.invariant (inv_start fs lookup) (fun _ _ _ hinv hok hact => inv_step ideal hinv hok hact)

theorem kept_step (h : s.Kept) {a : ExchangeStep ι κ} (hact : s.act v a = some s') : s'.Kept := by
  cases a with
  | connect k input =>
      simp only [act] at hact
      split at hact
      · split at hact <;> cases hact <;> exact h.setConn k trivial
      · cases hact
  | get k =>
      simp only [act] at hact
      split at hact
      · split at hact <;> cases hact <;> exact h.setConn k trivial
      · cases hact
  | read k =>
      simp only [act] at hact
      split at hact
      · split at hact
        · rename_i file hread
          cases hact
          exact h.setConn k (checkInvitee_of_readInvitation hread)
        · cases hact
          exact h.setConn k trivial
      · cases hact
  | write k =>
      simp only [act] at hact
      split at hact
      · rename_i cookie name host pub file hk
        have hcheck : ConnKept s.written (s.conns k) := h.conns k
        rw [hk] at hcheck
        split at hact
        · cases hact
          have hmore : ({ s with written := (name, host) :: s.written } : Exchange ι κ).Kept :=
            ⟨fun j => (h.conns j).mono _, fun a ha => (h.answers a ha).mono _⟩
          exact (hmore.setConn k (c := .wrote cookie name host pub file)
            ⟨hcheck, List.mem_cons_self⟩).frame rfl rfl rfl
        · cases hact
          exact (h.setConn k (c := .closed) trivial).frame rfl rfl rfl
      · cases hact
  | remove k works ts =>
      simp only [act] at hact
      split at hact
      · rename_i cookie name host pub file hk
        have hdone : ConnKept s.written (s.conns k) := h.conns k
        rw [hk] at hdone
        cases hact
        unfold finishJoin
        split <;> exact (h.setConn k (c := .handled (.join cookie name host) pub file) hdone).frame
          rfl rfl rfl
      · cases hact
  | answer k priv =>
      simp only [act] at hact
      split at hact
      · rename_i r pub body hk
        have hdone : ConnKept s.written (s.conns k) := h.conns k
        rw [hk] at hdone
        have hclosed : ((s.draw ⟨priv⟩).setConn k .closed).Kept :=
          (h.setConn k (c := .closed) trivial).frame rfl rfl rfl
        split at hact
        · cases hact
          refine ⟨hclosed.conns, fun a ha => ?_⟩
          rcases List.mem_cons.mp ha with rfl | ha
          · exact hdone
          · exact h.answers a ha
        · cases hact
          exact hclosed
      · cases hact
  | announce a ts => cases hact; exact h.frame rfl rfl rfl
  | receive env => cases hact; exact h.frame rfl rfl rfl
  | disk fs => cases hact; exact h.frame rfl rfl rfl
  | call i c priv =>
      simp only [act] at hact
      split at hact
      · cases hact
        exact h.frame rfl rfl rfl
      · cases hact
  | reply i input =>
      simp only [act] at hact
      split at hact
      · split at hact <;> cases hact <;> exact h.frame rfl rfl rfl
      · cases hact

end Run

end Exchange

open Exchange

/--
**Whatever a client returns that was given the hash of the inviter's key, the
inviter has answered with that plaintext to that client's key and cookie.**
-/
theorem reply_authentic {ι κ : Type} [DecidableEq ι] [DecidableEq κ] [Ed25519] [Sha256] [Sealing]
    (ideal : Ideal) {v : Inviter} {adv : Keyring} {fs : FileSystem}
    {lookup : Option (GoString → Option Ed25519Public)} {s : Exchange ι κ}
    (hrun : Reached (act v) (Allowed v adv) (start v fs lookup) s) {i : ι} {c : Call}
    {eph : Ephemeral} {pt : GoString} (hret : s.clients i = .returned c eph pt)
    (hhash : c.expectedKeyHash = v.edPriv.public.hash) :
    ∃ a ∈ s.answers, cookieOf a.request = cookieOf c.request ∧ a.clientPub = eph.pub
      ∧ a.plaintext = pt
      ∧ encryptAndReply v.edPriv a.server (cookieOf c.request) eph.pub pt = some a.reply := by
  have h := inv_of_reached ideal hrun
  obtain ⟨a, ha, hcookie, hpub, hpt⟩ := h.vouched i c eph pt hret hhash
  refine ⟨a, ha, hcookie, hpub, hpt, ?_⟩
  rw [← hcookie, ← hpub, ← hpt]
  exact h.answered a ha

/--
**If a client's `InviteJoin` succeeds, the inviter has answered that client's key
and cookie with what the client returns: to a `GET`, or to a `JOIN` for the node the
invitation is for, whose host config it has written.** Name and host config of that
`JOIN` need not be those the client sent.
-/
theorem join_answered {ι κ : Type} [DecidableEq ι] [DecidableEq κ] [Ed25519] [Sha256] [Sealing]
    (ideal : Ideal) {v : Inviter} {adv : Keyring} {fs : FileSystem}
    {lookup : Option (GoString → Option Ed25519Public)} {s : Exchange ι κ}
    (hrun : Reached (act v) (Allowed v adv) (start v fs lookup) s) {i : ι}
    {cookie name host keyHash : GoString} {eph : Ephemeral} {pt : GoString}
    (hret : s.clients i = .returned ⟨.join cookie name host, keyHash⟩ eph pt)
    (hhash : keyHash = v.edPriv.public.hash) :
    ∃ a ∈ s.answers, a.clientPub = eph.pub ∧ a.plaintext = pt
      ∧ (a.request = .get cookie ∨ ∃ name' host', a.request = .join cookie name' host'
        ∧ checkInvitee pt name' = .ok () ∧ (name', host') ∈ s.written) := by
  have hkept : s.Kept :=
    hrun.invariant (kept_start fs lookup) (fun _ _ _ hinv _ hact => kept_step hinv hact)
  obtain ⟨a, ha, hcookie, hpub, hpt⟩ := (inv_of_reached ideal hrun).vouched i _ eph pt hret hhash
  refine ⟨a, ha, hpub, hpt, ?_⟩
  have hdone := hkept.answers a ha
  cases hr : a.request with
  | get cookie' =>
      rw [hr] at hcookie
      exact .inl (congrArg Request.get hcookie)
  | join cookie' name' host' =>
      rw [hr] at hcookie hdone
      refine .inr ⟨name', host', ?_, hpt ▸ hdone.1, hdone.2⟩
      exact congrArg (Request.join · name' host') hcookie

section Sample

attribute [local instance] clearEd25519 clearSha256 clearSealing

/-- The stand-ins obey the laws. -/
theorem clear_ideal : Ideal where
  shared := by
    intro a a' k b b' hk hk'
    exact clearShared_inj (Option.some.inj (hk.trans hk'.symm))
  hkdf := by
    intro a a' k k' salt salt' b b' hk hk' h
    have hlen : k.length = k'.length := by
      rw [← Option.some.inj hk, ← Option.some.inj hk', length_clearShared, length_clearShared]
    exact (List.append_inj h hlen).1
  sum256 := by
    intro a b ha hb h
    have hcut : ∀ {x : GoString}, x.length = 32 → (x ++ List.replicate 32 0).take 32 = x := by
      intro x hx
      rw [← hx, List.take_left]
    have hab : (a ++ List.replicate 32 0).take 32 = (b ++ List.replicate 32 0).take 32 := h
    rwa [hcut ha, hcut hb] at hab

/-- An inviter, with an invitation for `bob` under the cookie `c`. -/
def sampleInviter : Inviter where
  nodeName := str "alice"
  edPriv := sampleSigner 1
  paths := samplePaths
  key_length := rfl
  name_apart := name_apart_of_validate (by decide +kernel)

def sampleInvitation : GoString :=
  str "Name = bob\n#\nName = alice\nEd25519PublicKey = " ++ (sampleSigner 1).public.string
    ++ str "\n"

def sampleDisk : FileSystem := .ofFiles [(sampleLoc ["invitations", "c"], sampleInvitation)]

/-- A call that expects that inviter. -/
def sampleCall (r : Request) : Call := ⟨r, (sampleSigner 1).public.hash⟩

/-- What the inviter sends to the client with the key `1`, having drawn the key `2`. -/
def sampleReply : Reply where
  serverPub := (Ephemeral.mk [2]).pub
  sig := (sampleSigner 1).sign (sigPayload (Ephemeral.mk [2]).pub (str "c"))
  ct := Sealing.aeadSeal (clearShared (Ephemeral.mk [2]).pub (Ephemeral.mk [1]).pub ++ str "c")
    sampleInvitation

theorem readReply_sample : readReply sampleReply.text = .ok sampleReply := by decide +kernel

theorem roundtrip_sample :
    roundtrip ⟨[1]⟩ (str "c") (sampleSigner 1).public.hash sampleReply.text
      = .ok sampleInvitation := by
  unfold roundtrip
  rw [readReply_sample]
  decide +kernel

/-- Steps up to the reply, against an attacker with the key `3`. -/
def BeforeReply (s : Exchange Unit Unit) : ExchangeStep Unit Unit → Prop
  | .answer _ priv | .call _ _ priv =>
    (Ephemeral.mk priv).pub ∉ s.drawn ∧ (Ephemeral.mk [3]).pub ≠ (Ephemeral.mk priv).pub
  | .reply _ _ => False
  | _ => True

instance (s : Exchange Unit Unit) (a : ExchangeStep Unit Unit) : Decidable (BeforeReply s a) :=
  match a with
  | .answer _ _ | .call _ _ _ => inferInstanceAs (Decidable (_ ∧ _))
  | .reply _ _ => inferInstanceAs (Decidable False)
  | .connect _ _ | .get _ | .read _ | .write _ | .remove _ _ _ | .announce _ _ | .receive _
  | .disk _ => inferInstanceAs (Decidable True)

theorem allowed_of_beforeReply {s : Exchange Unit Unit} {a : ExchangeStep Unit Unit}
    (h : BeforeReply s a) : s.Allowed sampleInviter {[3]} a := by
  have hfresh : ∀ priv, (Ephemeral.mk priv).pub ∉ s.drawn
      ∧ (Ephemeral.mk [3]).pub ≠ (Ephemeral.mk priv).pub → s.Fresh {[3]} ⟨priv⟩ := by
    rintro priv ⟨hdrawn, hadv⟩
    refine ⟨hdrawn, fun x hx => ?_⟩
    rw [Set.mem_singleton_iff.mp hx]
    exact hadv
  cases a with
  | answer k priv => exact hfresh priv h
  | call i c priv => exact hfresh priv h
  | reply i input => exact absurd h id
  | _ => trivial

/-- The inviter has sent `sampleReply`, and the client waits. -/
def Sent (r : Request) (s : Exchange Unit Unit) : Prop :=
  s.clients () = .waiting (sampleCall r) ⟨[1]⟩
    ∧ sigPayload (Ephemeral.mk [2]).pub (str "c") ∈ s.signed
    ∧ ∃ a ∈ s.answers, a.key = (Ephemeral.mk [1]).deriveKey (Ephemeral.mk [2]).pub (str "c")
      ∧ a.plaintext = sampleInvitation

instance (r : Request) (s : Exchange Unit Unit) : Decidable (Sent r s) :=
  inferInstanceAs (Decidable (_ ∧ _ ∧ _))

/-- The client may read what was sent. -/
theorem Sent.unforged {r : Request} (hr : cookieOf r = str "c") {s : Exchange Unit Unit}
    (h : Sent r s) (adv : Keyring) :
    s.Unforged sampleInviter adv (sampleCall r) ⟨[1]⟩ sampleReply := by
  obtain ⟨-, hsigned, a, ha, hkey, hpt⟩ := h
  have hcookie : cookieOf (sampleCall r).request = str "c" := hr
  constructor
  · intro _
    rw [hcookie]
    exact hsigned
  · intro key hk pt hopen
    rw [hcookie] at hk
    refine .inl ⟨a, ha, hkey.trans hk, hpt.trans ?_⟩
    -- both sides derive the same key, and the plaintext follows it
    have hshared : clearShared (Ephemeral.mk [1]).pub (Ephemeral.mk [2]).pub
        = clearShared (Ephemeral.mk [2]).pub (Ephemeral.mk [1]).pub := by decide +kernel
    have hct : sampleReply.ct = key ++ sampleInvitation := by
      rw [← Option.some.inj hk]
      show _ = clearShared (Ephemeral.mk [1]).pub (Ephemeral.mk [2]).pub ++ str "c" ++ _
      rw [hshared]
      rfl
    rw [hct] at hopen
    simpa [Sealing.aeadOpen] using hopen

/-- A run in which the client returns the invitation. -/
theorem exists_returned {r : Request} (hr : cookieOf r = str "c")
    {P : FileSystem → List (GoString × GoString) → Prop} [∀ fs w, Decidable (P fs w)]
    (labels : List (ExchangeStep Unit Unit))
    (hrun : (runActs (guarded (act sampleInviter) BeforeReply)
      (start sampleInviter sampleDisk none) labels).any
        (fun s => decide (Sent r s ∧ P s.fs s.written)) = true) :
    ∃ s : Exchange Unit Unit, Reached (act sampleInviter) (Allowed sampleInviter {[3]})
        (start sampleInviter sampleDisk none) s
      ∧ s.clients () = .returned (sampleCall r) ⟨[1]⟩ sampleInvitation ∧ P s.fs s.written := by
  obtain ⟨s, hs, hsent, hP⟩ := exists_reached_of_runActs labels hrun
  have hwait : s.clients () = .waiting (sampleCall r) ⟨[1]⟩ := hsent.1
  refine ⟨s.setClient () (.returned (sampleCall r) ⟨[1]⟩ sampleInvitation),
    .step (a := .reply () sampleReply.text) (hs.mono fun _ _ => allowed_of_beforeReply) ?_ ?_,
    setClient_self _ _ _, hP⟩
  · intro w hw reply hreply
    rw [hwait] at hw
    rw [readReply_sample] at hreply
    cases hw
    cases hreply
    exact hsent.unforged hr _
  · have hret : roundtrip ⟨[1]⟩ (cookieOf (sampleCall r).request) (sampleCall r).expectedKeyHash
        sampleReply.text = .ok sampleInvitation := by
      show roundtrip ⟨[1]⟩ (cookieOf r) _ _ = _
      rw [hr]
      exact roundtrip_sample
    simp only [act, hwait, hret]

/-- The client fetches the invitation. -/
theorem reply_authentic_get :
    ∃ s : Exchange Unit Unit, Reached (act sampleInviter) (Allowed sampleInviter {[3]})
        (start sampleInviter sampleDisk none) s
      ∧ s.clients () = .returned (sampleCall (.get (str "c"))) ⟨[1]⟩ sampleInvitation
      ∧ ∃ a ∈ s.answers, cookieOf a.request = str "c" ∧ a.clientPub = (Ephemeral.mk [1]).pub
        ∧ a.plaintext = sampleInvitation := by
  obtain ⟨s, hs, hret, -⟩ := exists_returned (r := .get (str "c")) rfl (P := fun _ _ => True)
    [.call () (sampleCall (.get (str "c"))) [1],
      .connect () (command ⟨[1]⟩ (.get (str "c"))), .get (), .answer () [2]] (by decide +kernel)
  obtain ⟨a, ha, hcookie, hpub, hpt, -⟩ := reply_authentic clear_ideal hs hret rfl
  exact ⟨s, hs, hret, a, ha, hcookie, hpub, hpt⟩

/-- A `JOIN` with the cookie `c`. -/
def sampleJoin (name host : String) : Request := .join (str "c") (str name) (str host)

/-- The client's own `JOIN` arrives. -/
theorem join_answered_unchanged :
    ∃ s : Exchange Unit Unit, Reached (act sampleInviter) (Allowed sampleInviter {[3]})
        (start sampleInviter sampleDisk none) s
      ∧ s.clients () = .returned (sampleCall (sampleJoin "bob" "Port = 1\n")) ⟨[1]⟩ sampleInvitation
      ∧ s.written = [(str "bob", str "Port = 1\n")]
      ∧ ∃ a ∈ s.answers, a.clientPub = (Ephemeral.mk [1]).pub
        ∧ a.plaintext = sampleInvitation := by
  obtain ⟨s, hs, hret, hwritten⟩ := exists_returned (r := sampleJoin "bob" "Port = 1\n") rfl
    (P := fun _ w => w = [(str "bob", str "Port = 1\n")])
    [.call () (sampleCall (sampleJoin "bob" "Port = 1\n")) [1],
      .connect () (command ⟨[1]⟩ (sampleJoin "bob" "Port = 1\n")),
      .read (), .write (), .remove () true 1, .answer () [2]] (by decide +kernel)
  obtain ⟨a, ha, hpub, hpt, -⟩ := join_answered clear_ideal hs hret rfl
  exact ⟨s, hs, hret, hwritten, a, ha, hpub, hpt⟩

/--
The attacker rewrites the request. Made a `GET`, it leaves no host file behind; made
a `JOIN` of another node with another host config, it leaves that one's. The client
returns the invitation in both runs.
-/
theorem join_rewritten :
    (∃ s : Exchange Unit Unit, Reached (act sampleInviter) (Allowed sampleInviter {[3]})
        (start sampleInviter sampleDisk none) s
      ∧ s.clients () = .returned (sampleCall (sampleJoin "bob" "Port = 1\n")) ⟨[1]⟩ sampleInvitation
      ∧ s.fs.readFile (samplePaths.hostFile (str "bob")) = .error .notExist ∧ s.written = [])
    ∧ ∃ s : Exchange Unit Unit, Reached (act sampleInviter) (Allowed sampleInviter {[3]})
        (start sampleInviter sampleDisk none) s
      ∧ s.clients () = .returned (sampleCall (sampleJoin "eve" "Port = 1\n")) ⟨[1]⟩ sampleInvitation
      ∧ s.written = [(str "bob", str "Port = 2\n")] := by
  constructor
  · exact exists_returned rfl (P := fun fs w =>
        fs.readFile (samplePaths.hostFile (str "bob")) = .error .notExist ∧ w = [])
      [.call () (sampleCall (sampleJoin "bob" "Port = 1\n")) [1],
        .connect () (command ⟨[1]⟩ (.get (str "c"))), .get (), .answer () [2]] (by decide +kernel)
  · exact exists_returned rfl (P := fun _ w => w = [(str "bob", str "Port = 2\n")])
      [.call () (sampleCall (sampleJoin "eve" "Port = 1\n")) [1],
        .connect () (command ⟨[1]⟩ (sampleJoin "bob" "Port = 2\n")),
        .read (), .write (), .remove () true 1, .answer () [2]] (by decide +kernel)

end Sample

end Gsnet.Transport
