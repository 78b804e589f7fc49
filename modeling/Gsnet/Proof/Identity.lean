import Gsnet.Proof.Reload
import Gsnet.Daemon.Run

/-!
# One identity

A daemon has its name and its signing key twice: in the plane, from start-up, and
in what is loaded. The plane puts its own name and signature on everything that
goes out; the look-up of keys, and the contents of the Hello, follow what is
loaded. A reload replaces the second copy only. What goes out afterwards is
consistent exactly when the two copies still agree.
-/

namespace Gsnet.Daemon

open Go Config Gossip

/--
What `crypto/ed25519` promises of the keys `crypto/x509` reads: a signature verifies
under the public half of the key it was made with.
-/
def SignaturesVerify [Ed25519] [PKCS8] : Prop :=
  ∀ text k m, parseEd25519PrivatePEM text = some k → k.public.verify m (k.sign m) = true

/-- And it verifies under that of no other. -/
def SignaturesBind [Ed25519] [PKCS8] : Prop :=
  ∀ text k text' k' m, parseEd25519PrivatePEM text = some k →
    parseEd25519PrivatePEM text' = some k' → k'.public.verify m (k.sign m) = true →
    k'.public = k.public

/-! ## What goes out -/

section Log

variable [Ed25519]

/-- Whatever a plane announces has its name and a signature of its key. -/
theorem announce_signed {p : Plane} {k : Ed25519Private} (hk : p.edPriv = some k)
    (a : Announcement) (ts : Int64) :
    (p.announce a ts).2.origin = p.nodeName
      ∧ (p.announce a ts).2.signature = k.sign (p.announce a ts).2.signingBytes := by
  refine ⟨Plane.announce_origin p a ts, ?_⟩
  rw [Plane.announce_eq]
  simp only [Plane.originate, Plane.mint, Plane.sign, hk]
  rfl

variable [Curve25519] {p : Plane} {l : Loaded} {ep : Option AddrPort} {clock : Clock}

/-- **Every envelope of `announceLocal` has the name and the signature of the plane.** -/
theorem announceLocalLog_signed {k : Ed25519Private} (hk : p.edPriv = some k) :
    ∀ env ∈ (announceLocalLog p l ep clock).2,
      env.origin = p.nodeName ∧ env.signature = k.sign env.signingBytes := by
  refine forall_mem_announceLocalLog (announce_signed hk _ _) fun q s ts hname hkey => ?_
  obtain ⟨horigin, hsig⟩ := announce_signed (hkey.trans hk) (.addSubnet s) ts
  exact ⟨horigin.trans hname, hsig⟩

/-- The only Hello among them carries the key that is loaded. -/
theorem announceLocalLog_hello :
    ∀ env ∈ (announceLocalLog p l ep clock).2, env.kind = .addNode →
      (Hello.unmarshal env.payload).map Hello.ed25519Public = some l.edPriv.public.raw := by
  refine forall_mem_announceLocalLog (fun _ => ?_) fun q s ts _ _ hkind => ?_
  · rw [Plane.announce_payload]
    show (Hello.unmarshal (localHello l ep).marshal).map _ = _
    rw [Hello.unmarshal_marshal]
    rfl
  · rw [Plane.announce_kind] at hkind
    cases hkind

end Log

/-! ## Every run -/

section Runs

variable [Ed25519] [Curve25519]

/--
What an `announceLocal` sends is consistent: every envelope is from the node that
is loaded, it verifies under the key the daemon itself looks up for its origin,
and that is the key the Hello among them carries.
-/
def Consistent (s : Process) (clock : Clock) : Prop :=
  ∀ env ∈ (announceLocalLog s.plane s.loaded s.endpoint clock).2,
    env.origin = s.loaded.nodeName
      ∧ ∃ pub, lookupPubKey s.fs s.paths s.loaded env.origin = some pub
        ∧ pub.verify env.signingBytes env.signature = true
        ∧ ∀ hello ∈ (announceLocalLog s.plane s.loaded s.endpoint clock).2,
            hello.kind = .addNode →
            (Hello.unmarshal hello.payload).map Hello.ed25519Public = some pub.raw

/-- What is loaded has the name and the public key of the start. -/
def SameIdentity (s₀ s : Process) : Prop :=
  s.loaded.nodeName = s₀.loaded.nodeName
    ∧ s.loaded.edPriv.public = s₀.loaded.edPriv.public

variable [PKCS8]

/-- The key that is loaded has been read from some text. -/
def KeyRead (s : Process) : Prop := ∃ text, parseEd25519PrivatePEM text = some s.loaded.edPriv

theorem keyRead_step {s : Process} (h : KeyRead s) (o : Op) : KeyRead (s.step o) := by
  cases o with
  | load =>
      simp only [Process.step]
      split
      · rename_i l hl
        obtain ⟨text, -, htext⟩ := (loads_of_load hl).edPriv
        exact ⟨text, htext⟩
      · exact h
  | _ => exact h

theorem keyRead_run {paths : Paths} {fs : FileSystem} {clock : Clock} {s₀ : Process}
    (hstart : Process.start paths fs clock = .ok s₀) (ops : List Op) : KeyRead (s₀.run ops) := by
  induction ops using List.reverseRecOn with
  | nil =>
      obtain ⟨hload, hboot⟩ := start_eq_ok.mp hstart
      obtain ⟨text, -, htext⟩ := (loads_of_load hload).edPriv
      exact ⟨text, htext⟩
  | append_singleton ops o ih =>
      rw [Process.run_append_singleton]
      exact keyRead_step ih o

/-- **An `announceLocal` with the name and the key of the plane is consistent.** -/
theorem consistent_of_same (hverify : SignaturesVerify) {s : Process} {k : Ed25519Private}
    (hk : s.plane.edPriv = some k) (hread : ∃ text, parseEd25519PrivatePEM text = some k)
    (hname : s.loaded.nodeName = s.plane.nodeName) (hpub : s.loaded.edPriv.public = k.public)
    (clock : Clock) : Consistent s clock := by
  obtain ⟨text, htext⟩ := hread
  intro env henv
  obtain ⟨horigin, hsig⟩ := announceLocalLog_signed hk env henv
  have hsame : env.origin = s.loaded.nodeName := horigin.trans hname.symm
  refine ⟨hsame, s.loaded.edPriv.public, ?_, ?_, announceLocalLog_hello⟩
  · rw [lookupPubKey, if_pos hsame]
  · rw [hpub, hsig]
    exact hverify text k _ htext

/-- **One that is consistent has them.** -/
theorem same_of_consistent (hbind : SignaturesBind) {s : Process} {k : Ed25519Private}
    (hk : s.plane.edPriv = some k) (hread : ∃ text, parseEd25519PrivatePEM text = some k)
    (hloaded : KeyRead s) {clock : Clock} (h : Consistent s clock) :
    s.loaded.nodeName = s.plane.nodeName ∧ s.loaded.edPriv.public = k.public := by
  obtain ⟨text, htext⟩ := hread
  obtain ⟨text', htext'⟩ := hloaded
  -- the Hello is enough
  have hmem := hello_mem_announceLocalLog s.plane s.loaded s.endpoint clock
  obtain ⟨horigin, pub, hlook, hverify, -⟩ := h _ hmem
  obtain ⟨hplane, hsig⟩ := announceLocalLog_signed hk _ hmem
  rw [lookupPubKey, if_pos horigin, Option.some_inj] at hlook
  subst hlook
  rw [hsig] at hverify
  exact ⟨horigin.symm.trans hplane, hbind text k text' _ _ htext htext' hverify⟩

/--
**What goes out is consistent at every `announceLocal` of a run if every configuration
announced has the name and the key the daemon was started with**; and only then, as
signatures verify under no other key.
-/
theorem identity_consistent_iff (hverify : SignaturesVerify) {paths : Paths} {fs : FileSystem}
    {clock₀ : Clock} {s₀ : Process} (hstart : Process.start paths fs clock₀ = .ok s₀)
    (ops : List Op) :
    ((∀ before clock after, ops = before ++ .announceLocal clock :: after →
        SameIdentity s₀ (s₀.run before)) →
      ∀ before clock after, ops = before ++ .announceLocal clock :: after →
        Consistent (s₀.run before) clock)
    ∧ (SignaturesBind →
      ((∀ before clock after, ops = before ++ .announceLocal clock :: after →
          Consistent (s₀.run before) clock)
        ↔ ∀ before clock after, ops = before ++ .announceLocal clock :: after →
          SameIdentity s₀ (s₀.run before))) := by
  obtain ⟨-, hplane, hkey⟩ := start_spec hstart
  have hsuffices : ∀ before clock, SameIdentity s₀ (s₀.run before) →
      Consistent (s₀.run before) clock := by
    intro before clock hsame
    obtain ⟨hid, hk⟩ := run_identity s₀ before
    exact consistent_of_same hverify (hk.trans hkey) (keyRead_run hstart [])
      (by rw [hid, hplane]; exact hsame.1) hsame.2 clock
  have hnecessary : SignaturesBind → ∀ before clock, Consistent (s₀.run before) clock →
      SameIdentity s₀ (s₀.run before) := by
    intro hbind before clock h
    obtain ⟨hid, hk⟩ := run_identity s₀ before
    have hsame := same_of_consistent hbind (hk.trans hkey) (keyRead_run hstart [])
      (keyRead_run hstart before) h
    rwa [hid, hplane] at hsame
  refine ⟨fun h before clock after hops => hsuffices before clock (h before clock after hops),
    fun hbind => ⟨fun h before clock after hops => ?_, fun h before clock after hops => ?_⟩⟩
  · exact hnecessary hbind before clock (h before clock after hops)
  · exact hsuffices before clock (h before clock after hops)

end Runs

section Sample

/-- A stand-in that reads texts of the right length only. -/
@[reducible] def sizedPKCS8 : PKCS8 := ⟨fun b => if b.length = 64 then some b else none⟩

attribute [local instance] clearEd25519 clearCurve25519 sizedPKCS8

theorem signaturesVerify_sample : SignaturesVerify := by
  intro text k m h
  simp only [parseEd25519PrivatePEM, PKCS8.ed25519, Option.map_eq_some_iff] at h
  obtain ⟨b, hb, rfl⟩ := h
  split at hb
  · rename_i hlen
    cases hb
    have hsize : ¬ (text.drop 32).length ≠ publicKeySize := by simp [publicKeySize, hlen]
    rw [Ed25519Public.verify, Ed25519Private.public, if_neg hsize]
    exact beq_self_eq_true (text.drop 32 ++ m)
  · cases hb

theorem signaturesBind_sample : SignaturesBind := by
  intro text k text' k' m _ _ h
  unfold Ed25519Public.verify at h
  split at h
  · cases h
  · have heq : k.raw.drop 32 ++ m = k'.public.raw ++ m := beq_iff_eq.mp h
    exact congrArg Ed25519Public.mk (List.append_cancel_right heq).symm

/-- The files of a node of that name with the key that belongs to `b`. -/
def identityFiles (name : String) (b : UInt8) : FileSystem :=
  .ofFiles [
    (sampleLoc ["gsnet.conf"], str "Name = " ++ str name ++ str "\n"),
    (sampleLoc ["ed25519_key.priv"], (sampleSigner b).raw),
    (sampleLoc ["wg.priv"], (sampleWG 1).string)]

/-- Node `a`, just started. -/
def startedNode : Process :=
  .boot samplePaths (identityFiles "a" 1) (sampleConfigured [] []) sampleClock

theorem start_startedNode :
    Process.start samplePaths (identityFiles "a" 1) sampleClock = .ok startedNode :=
  Process.start_of_load (by decide +kernel) sampleClock

/-- A redial sends what the start has sent. -/
theorem identity_consistent_redial : Consistent startedNode sampleClock := by
  refine ((identity_consistent_iff signaturesVerify_sample start_startedNode
    [.announceLocal sampleClock]).2 signaturesBind_sample).mpr ?_ [] sampleClock [] rfl
  intro before clock after hsplit
  cases before with
  | nil => exact ⟨rfl, rfl⟩
  | cons o before =>
      have hlen := congrArg List.length hsplit
      simp at hlen

/-- What `announceLocal` sends after a reload of these files: the origins, and what verifies. -/
def sentAfter (files : FileSystem) : List (GoString × Option Bool) :=
  let s := startedNode.run [.edit files, .load]
  (announceLocalLog s.plane s.loaded s.endpoint sampleClock).2.map fun env =>
    (env.origin, (lookupPubKey s.fs s.paths s.loaded env.origin).map fun pub =>
      pub.verify env.signingBytes env.signature)

/-- With a new name the origin is still the old one; with a new key nothing verifies. -/
theorem identity_split :
    Process.start samplePaths (identityFiles "a" 1) sampleClock = .ok startedNode
      ∧ (startedNode.run [.edit (identityFiles "z" 1), .load]).loaded.nodeName = str "z"
      ∧ sentAfter (identityFiles "z" 1) = [(str "a", none)]
      ∧ (startedNode.run [.edit (identityFiles "a" 9), .load]).loaded.nodeName = str "a"
      ∧ sentAfter (identityFiles "a" 9) = [(str "a", some false)] :=
  ⟨start_startedNode, by decide +kernel, by decide +kernel, by decide +kernel, by decide +kernel⟩

end Sample

end Gsnet.Daemon
