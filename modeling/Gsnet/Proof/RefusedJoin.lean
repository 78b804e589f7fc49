import Gsnet.Proof.Confine
import Gsnet.Gossip.Announce
import Gsnet.Transport

/-!
# What a refused JOIN leaves behind

`handleInvite2Join` lets the daemon write the host file, remove the invitation and
announce the invitee, and only then asks for the key of the answer. A client whose
public key is of low order gets an `ERR` line for a join that has been carried out.
Two smaller leaks are in the daemon: the hosts directory is made before it is known
whether the host file can be written, and a write that the system breaks off leaves a
part of the file.

Cookie and name may lead out of the two directories, so what a join does to them is
followed location by location.
-/

namespace Gsnet.Transport

open Go Invite Daemon FileSystem

section Spec

variable (paths : Paths)

/-- The directory and what is in it are as they were. -/
def SameBelow (fs fs' : FileSystem) (dir : Location) : Prop :=
  ∀ loc, dir <+: loc → fs'.nodes.get? loc = fs.nodes.get? loc

structure Unchanged (s s' : Serving) : Prop where
  hosts : SameBelow s.fs s'.fs (s.fs.locate paths.hostsDir)
  invitations : SameBelow s.fs s'.fs (s.fs.locate paths.invitationsDir)
  outbox : s'.plane.outbox = s.plane.outbox

/-- In the hosts directory or the invitations directory. -/
def Watched (fs : FileSystem) (loc : Location) : Prop :=
  fs.locate paths.hostsDir <+: loc ∨ fs.locate paths.invitationsDir <+: loc

/-- The hosts directory is there, or can be made. -/
structure Creatable (fs : FileSystem) : Prop where
  text : 0 ∉ paths.hostsDir
  clear : ∀ l ∈ steps (fs.locate paths.hostsDir), ∀ c, fs.nodes.get? l ≠ some (.file c)

/-- Whatever the join does is done outside of the two directories, or was done before. -/
structure Idle [Ed25519] (ts : Int64) (s : Serving) (cookie name hostConfig : GoString) :
    Prop where
  hosts : s.fs.isDir (s.fs.locate paths.hostsDir) = true
  invitation : ¬ Watched paths s.fs (walk (s.fs.locate paths.invitationsDir) cookie)
  host : Watched paths s.fs (walk (s.fs.locate paths.hostsDir) name) →
    s.fs.nodes.get? (walk (s.fs.locate paths.hostsDir) name) = some (.file hostConfig)
  hello : ∀ h, inviteeHello name hostConfig = some h →
    s.plane.outbox.get? (Gossip.Plane.helloID s.plane.nodeName)
      = some (s.plane.announceHello h ts).2

/-- Nothing stands in the way of a JOIN but what is found out before it has an effect. -/
structure Timely [Ed25519] (LowOrder : EphemeralPub → Prop) (drawn : Option Ephemeral) (ts : Int64)
    (s : Serving) (cookie name hostConfig : GoString) (clientPub : EphemeralPub) : Prop where
  /-- The hosts directory need not be made for a file that cannot be written. -/
  hosts : Creatable paths s.fs → ¬ Writable s.fs paths name →
    s.fs.isDir (s.fs.locate paths.hostsDir) = true
  /-- The write is not broken off, or what it leaves does not show. -/
  whole : ∀ written, Writable s.fs paths name →
    s.fs.brokenOff (walk (s.fs.locate paths.hostsDir) name) = some written →
    s.fs.isDir (s.fs.locate paths.hostsDir) = true
      ∧ (Watched paths s.fs (walk (s.fs.locate paths.hostsDir) name) →
        s.fs.nodes.get? (walk (s.fs.locate paths.hostsDir) name)
          = some (.file (hostConfig.take written)))
  /-- There is going to be a shared secret, or the join has no effect. -/
  secret : Writable s.fs paths name →
    s.fs.brokenOff (walk (s.fs.locate paths.hostsDir) name) = none →
    drawn = none ∨ LowOrder clientPub → Idle paths ts s cookie name hostConfig

end Spec

variable {paths : Paths} {fs fs' : FileSystem}

/-! ## The two directories -/

theorem hostsDir_mem_steps (fs : FileSystem) (paths : Paths) :
    fs.locate paths.hostsDir ∈ steps (fs.locate paths.hostsDir) :=
  mem_steps.mpr ⟨List.prefix_rfl, by simp [(locate_dirs fs paths).1]⟩

theorem watched_hostsDir (fs : FileSystem) (paths : Paths) :
    Watched paths fs (fs.locate paths.hostsDir) := .inl List.prefix_rfl

/-- On the way to the hosts directory only that directory itself is watched. -/
theorem eq_hostsDir_of_watched {l : Location} (hl : Watched paths fs l)
    (hstep : l ∈ steps (fs.locate paths.hostsDir)) : l = fs.locate paths.hostsDir := by
  obtain ⟨hlead, -⟩ := mem_steps.mp hstep
  rcases hl with hl | hl
  · exact hlead.eq_of_length_le hl.length_le
  · -- the invitations directory is as far from the root, and another
    obtain ⟨hhosts, hinv⟩ := locate_dirs fs paths
    have htrans := hl.trans hlead
    rw [hhosts, hinv] at htrans
    have heq := htrans.eq_of_length (by simp)
    exact absurd (List.append_cancel_left heq) (by decide)

theorem unchanged_iff {s s' : Serving} :
    Unchanged paths s s' ↔
      (∀ loc, Watched paths s.fs loc → s'.fs.nodes.get? loc = s.fs.nodes.get? loc)
        ∧ s'.plane.outbox = s.plane.outbox := by
  constructor
  · rintro ⟨hhosts, hinv, hout⟩
    exact ⟨fun loc hw => hw.elim (hhosts loc) (hinv loc), hout⟩
  · rintro ⟨htree, hout⟩
    exact ⟨fun loc hl => htree loc (.inl hl), fun loc hl => htree loc (.inr hl), hout⟩

theorem unchanged_refl (s : Serving) : Unchanged paths s s := ⟨fun _ _ => rfl, fun _ _ => rfl, rfl⟩

/-! ## What a join does -/

section Join

variable {made : FileSystem} {cookie name hostConfig content : GoString}

/-- The directory is there, once it can be there. -/
theorem isDir_hostsDir_iff (hc : Creatable paths fs) :
    fs.isDir (fs.locate paths.hostsDir) = true
      ↔ fs.nodes.get? (fs.locate paths.hostsDir) ≠ none := by
  have hne : fs.locate paths.hostsDir ≠ [] := by simp [(locate_dirs fs paths).1]
  have hfree := hc.clear _ (hostsDir_mem_steps fs paths)
  unfold isDir
  cases hn : fs.nodes.get? (fs.locate paths.hostsDir) with
  | none => simp [hne]
  | some n =>
      cases n with
      | dir => simp
      | file c => exact absurd hn (hfree c)

/-- Making the hosts directory shows unless it is there. -/
theorem tree_made_iff (hmk : fs.mkdirAll paths.hostsDir = some made) :
    (∀ loc, Watched paths fs loc → made.nodes.get? loc = fs.nodes.get? loc)
      ↔ fs.isDir (fs.locate paths.hostsDir) = true := by
  obtain ⟨htext, hclear⟩ := mkdirAll_eq_some.mp ⟨made, hmk⟩
  have hget := (mkdirAll_get? hmk).2
  rw [isDir_hostsDir_iff ⟨htext, hclear⟩]
  constructor
  · intro htree hnone
    have hat := htree _ (watched_hostsDir fs paths)
    rw [hget, if_pos ⟨hostsDir_mem_steps fs paths, hnone⟩, hnone] at hat
    cases hat
  · intro hthere loc hw
    rw [hget, if_neg]
    rintro ⟨hstep, hnone⟩
    rw [eq_hostsDir_of_watched hw hstep] at hnone
    exact hthere hnone

/-- A host file, or the part of one, shows unless it is elsewhere or was there before. -/
theorem tree_put_iff (hmk : fs.mkdirAll paths.hostsDir = some made)
    (hcan : Writable fs paths name) :
    (∀ loc, Watched paths fs loc →
        (made.put (walk (fs.locate paths.hostsDir) name) content).nodes.get? loc
          = fs.nodes.get? loc)
      ↔ fs.isDir (fs.locate paths.hostsDir) = true
        ∧ (Watched paths fs (walk (fs.locate paths.hostsDir) name) →
          fs.nodes.get? (walk (fs.locate paths.hostsDir) name) = some (.file content)) := by
  have hhost : fs.locate paths.hostsDir ≠ walk (fs.locate paths.hostsDir) name := by
    intro heq
    have hnot := hcan.not_dir.2
    rw [← heq] at hnot
    exact hnot (hostsDir_mem_steps fs paths)
  simp only [get?_put]
  constructor
  · intro htree
    refine ⟨?_, ?_⟩
    · rw [isDir_hostsDir_iff ⟨hcan.dir_text, hcan.clear⟩]
      intro hnone
      have hat := htree _ (watched_hostsDir fs paths)
      rw [if_neg hhost, (mkdirAll_get? hmk).2, if_pos ⟨hostsDir_mem_steps fs paths, hnone⟩,
        hnone] at hat
      cases hat
    · intro hw
      have hat := htree _ hw
      rw [if_pos rfl] at hat
      exact hat.symm
  · rintro ⟨hthere, hsame⟩ loc hw
    split
    · rename_i heq
      rw [heq] at hw ⊢
      exact (hsame hw).symm
    · exact (tree_made_iff hmk).mpr hthere loc hw

/-- The tree a join leaves: the invitation is gone, or the host file in its place. -/
theorem consume_written (hmk : fs.mkdirAll paths.hostsDir = some made)
    (hread : fs.readFile (invitationPath paths cookie) = .ok content) (loc : Location) :
    (consume (made.put (walk (fs.locate paths.hostsDir) name) hostConfig) paths cookie).nodes.get?
        loc
      = if loc = walk (fs.locate paths.invitationsDir) cookie then none
        else (made.put (walk (fs.locate paths.hostsDir) name) hostConfig).nodes.get? loc := by
  obtain ⟨h0, -, hfile⟩ := readFile_eq_ok.mp hread
  have hloc : (made.put (walk (fs.locate paths.hostsDir) name) hostConfig).locate
      (invitationPath paths cookie) = fs.locate (invitationPath paths cookie) :=
    locate_congr (mkdirAll_get? hmk).1 _
  have hstands : ∃ c, (made.put (walk (fs.locate paths.hostsDir) name) hostConfig).nodes.get?
      (fs.locate (invitationPath paths cookie)) = some (.file c) := by
    rw [get?_put]
    split
    · exact ⟨hostConfig, rfl⟩
    · exact ⟨content, (file_mkdirAll_iff hmk _ _).mpr hfile⟩
  obtain ⟨c, hstands⟩ := hstands
  unfold consume
  rw [remove_file h0 (by rw [hloc]; exact hstands), Option.getD_some, hloc, GoMap.get?_delete,
    locate_invitationPath]

/-- What a join does to the tree shows unless it is done elsewhere, or was done before. -/
theorem tree_join_iff (hmk : fs.mkdirAll paths.hostsDir = some made)
    (hcan : Writable fs paths name)
    (hread : fs.readFile (invitationPath paths cookie) = .ok content) :
    (∀ loc, Watched paths fs loc → (consume (made.put (walk (fs.locate paths.hostsDir) name)
        hostConfig) paths cookie).nodes.get? loc = fs.nodes.get? loc)
      ↔ fs.isDir (fs.locate paths.hostsDir) = true
        ∧ ¬ Watched paths fs (walk (fs.locate paths.invitationsDir) cookie)
        ∧ (Watched paths fs (walk (fs.locate paths.hostsDir) name) →
          fs.nodes.get? (walk (fs.locate paths.hostsDir) name) = some (.file hostConfig)) := by
  obtain ⟨-, -, hfile⟩ := readFile_eq_ok.mp hread
  rw [locate_invitationPath] at hfile
  rw [and_left_comm, ← tree_put_iff hmk hcan]
  simp only [consume_written hmk hread]
  constructor
  · intro htree
    have hinv : ¬ Watched paths fs (walk (fs.locate paths.invitationsDir) cookie) := by
      intro hw
      have hat := htree _ hw
      rw [if_pos rfl, hfile] at hat
      cases hat
    refine ⟨hinv, fun loc hw => ?_⟩
    have hat := htree loc hw
    rwa [if_neg (by rintro rfl; exact hinv hw)] at hat
  · rintro ⟨hinv, htree⟩ loc hw
    rw [if_neg (by rintro rfl; exact hinv hw)]
    exact htree loc hw

end Join

/-- An announcement shows unless the outbox holds the very same one. -/
theorem outbox_after_iff [Ed25519] {s : Serving} {o : Served} {ts : Int64} :
    (s.after ts o).plane.outbox = s.plane.outbox
      ↔ ∀ h, o.hello = some h → s.plane.outbox.get? (Gossip.Plane.helloID s.plane.nodeName)
        = some (s.plane.announceHello h ts).2 := by
  cases ho : o.hello with
  | none => simp [Serving.after, ho]
  | some h =>
      have hout : (s.after ts o).plane.outbox = s.plane.outbox.set
          (Gossip.Plane.helloID s.plane.nodeName) (s.plane.announceHello h ts).2 := by
        simp only [Serving.after, ho]
        exact Gossip.Plane.announce_outbox s.plane (.hello h) ts
      rw [hout]
      constructor
      · intro heq h' hh
        cases hh
        have hat := congrArg (·.get? (Gossip.Plane.helloID s.plane.nodeName)) heq
        rw [GoMap.get?_set_self] at hat
        exact hat.symm
      · intro hsame
        refine GoMap.ext_get? fun k => ?_
        rw [GoMap.get?_set]
        split
        · rename_i hk
          rw [hk, hsame h rfl]
        · rfl

/-! ## Requests -/

section Requests

variable [Ed25519] [Sealing] {LowOrder : EphemeralPub → Prop} {edPriv : Ed25519Private}
  {drawn : Option Ephemeral} {ts : Int64} {s : Serving} {req : Request} {clientPub : EphemeralPub}

/-- Whatever the answer, the handler has done its work. -/
theorem handleInvite2_state :
    (handleInvite2 paths edPriv drawn ts s req clientPub).1
      = s.after ts (serve s.fs paths req) := by
  simp only [handleInvite2]
  split
  · rfl
  · split
    · rfl
    · split <;> rfl

theorem handleInvite2_error {e : InviteError} (h : (serve s.fs paths req).reply = .error e) :
    (handleInvite2 paths edPriv drawn ts s req clientPub).2.refused = true := by
  simp only [handleInvite2, h, Answered.refused]

/-- A request the handler has granted is refused for want of a key only. -/
theorem handleInvite2_granted
    (hlow : ∀ priv pub, Sealing.x25519 priv pub = none ↔ LowOrder pub) {body : GoString}
    (h : (serve s.fs paths req).reply = .ok body) :
    (handleInvite2 paths edPriv drawn ts s req clientPub).2.refused = true
      ↔ drawn = none ∨ LowOrder clientPub := by
  simp only [handleInvite2, h]
  cases drawn with
  | none => simp [Answered.refused]
  | some server =>
      rw [← hlow server.priv clientPub]
      cases hx : Sealing.x25519 server.priv clientPub with
      | none => simp [encryptAndReply, Ephemeral.deriveKey, hx, Answered.refused]
      | some shared => simp [encryptAndReply, Ephemeral.deriveKey, hx, Answered.refused]

omit [Sealing] in
theorem unchanged_get (cookie : GoString) :
    Unchanged paths s (s.after ts (serve s.fs paths (.get cookie))) := by
  have hget : s.after ts (serve s.fs paths (.get cookie)) = s := by
    simp only [serve, handleInviteGet, Serving.after]
    split <;> rfl
  rw [hget]
  exact unchanged_refl s

section Join

variable {cookie name hostConfig file : GoString}

/-- A JOIN whose host file is not written is refused, and leaves what the failure left. -/
theorem failed_unchanged_iff {fs' : FileSystem}
    (hr : readInvitation s.fs paths cookie name = .ok file)
    (hw : writeHost s.fs paths name hostConfig = .error fs') :
    ((handleInvite2 paths edPriv drawn ts s (.join cookie name hostConfig) clientPub).2.refused
          = true →
        Unchanged paths s (s.after ts (handleInviteJoin s.fs paths cookie name hostConfig)))
      ↔ ∀ loc, Watched paths s.fs loc → fs'.nodes.get? loc = s.fs.nodes.get? loc := by
  have hafter : s.after ts (handleInviteJoin s.fs paths cookie name hostConfig)
      = ⟨fs', s.plane⟩ := by
    simp only [handleInviteJoin, hr, hw, Serving.after]
  have hrefused := @handleInvite2_error paths _ _ edPriv drawn ts s
    (.join cookie name hostConfig) clientPub .os (by simp only [serve, handleInviteJoin, hr, hw])
  rw [imp_iff_right hrefused, hafter, unchanged_iff, and_iff_left rfl]

/-- A JOIN whose host file is written is carried out, whatever the answer. -/
theorem granted_unchanged_iff (hlow : ∀ priv pub, Sealing.x25519 priv pub = none ↔ LowOrder pub)
    {made : FileSystem} (hr : readInvitation s.fs paths cookie name = .ok file)
    (hmk : s.fs.mkdirAll paths.hostsDir = some made) (hcan : Writable s.fs paths name)
    (hw : writeHost s.fs paths name hostConfig
      = .ok (made.put (walk (s.fs.locate paths.hostsDir) name) hostConfig)) :
    ((handleInvite2 paths edPriv drawn ts s (.join cookie name hostConfig) clientPub).2.refused
          = true →
        Unchanged paths s (s.after ts (handleInviteJoin s.fs paths cookie name hostConfig)))
      ↔ (drawn = none ∨ LowOrder clientPub → Idle paths ts s cookie name hostConfig) := by
  obtain ⟨content, -, hread, -⟩ := readInvitation_ok_iff.mp ⟨file, hr⟩
  have hreply : (serve s.fs paths (.join cookie name hostConfig)).reply = .ok file := by
    simp only [serve, handleInviteJoin, hr, hw]
  have hhello : (handleInviteJoin s.fs paths cookie name hostConfig).hello
      = inviteeHello name hostConfig := by
    simp only [handleInviteJoin, hr, hw]
  have htree : (s.after ts (handleInviteJoin s.fs paths cookie name hostConfig)).fs = consume
      (made.put (walk (s.fs.locate paths.hostsDir) name) hostConfig) paths cookie := by
    simp only [handleInviteJoin, hr, hw, Serving.after]
  rw [handleInvite2_granted hlow hreply, unchanged_iff, htree, tree_join_iff hmk hcan hread,
    outbox_after_iff, hhello]
  refine imp_congr_right fun _ => ⟨?_, ?_⟩
  · rintro ⟨⟨hhosts, hinv, hhost⟩, hhello'⟩
    exact ⟨hhosts, hinv, hhost, hhello'⟩
  · intro hidle
    exact ⟨⟨hidle.hosts, hidle.invitation, hidle.host⟩, hidle.hello⟩

/-- **When a JOIN that is refused has changed nothing.** -/
theorem join_unchanged_iff (hlow : ∀ priv pub, Sealing.x25519 priv pub = none ↔ LowOrder pub) :
    ((handleInvite2 paths edPriv drawn ts s (.join cookie name hostConfig) clientPub).2.refused
          = true →
        Unchanged paths s
          (handleInvite2 paths edPriv drawn ts s (.join cookie name hostConfig) clientPub).1)
      ↔ (Invites s.fs paths cookie name →
        Timely paths LowOrder drawn ts s cookie name hostConfig clientPub) := by
  rw [handleInvite2_state, serve]
  cases hr : readInvitation s.fs paths cookie name with
  | error e =>
      have hsame : s.after ts (handleInviteJoin s.fs paths cookie name hostConfig) = s := by
        simp only [handleInviteJoin, hr, Serving.after]
      rw [hsame]
      refine iff_of_true (fun _ => unchanged_refl s) fun hyes => ?_
      obtain ⟨file, hfile⟩ := readInvitation_ok_iff.mpr hyes
      cases hr.symm.trans hfile
  | ok file =>
      have hyes : Invites s.fs paths cookie name := readInvitation_ok_iff.mp ⟨file, hr⟩
      rw [imp_iff_right hyes]
      rcases writeHost_spec s.fs paths name hostConfig with
        ⟨hmk, hno, hw⟩ | ⟨made, hmk, ⟨hno, hw⟩ | ⟨hcan, hwhole, hw⟩ | ⟨hcan, written, hbroken, hw⟩⟩
      · -- the hosts directory cannot be made
        have hnot : ¬ Creatable paths s.fs := by
          intro hc
          obtain ⟨made, hmade⟩ := mkdirAll_eq_some.mpr ⟨hc.text, hc.clear⟩
          cases hmk.symm.trans hmade
        rw [failed_unchanged_iff hr hw]
        exact iff_of_true (fun _ _ => rfl) ⟨fun hc => absurd hc hnot,
          fun _ hcan => absurd hcan hno, fun hcan => absurd hcan hno⟩
      · -- the host file cannot be opened
        obtain ⟨htext, hclear⟩ := mkdirAll_eq_some.mp ⟨made, hmk⟩
        rw [failed_unchanged_iff hr hw, tree_made_iff hmk]
        exact ⟨fun h => ⟨fun _ _ => h, fun _ hcan => absurd hcan hno, fun hcan => absurd hcan hno⟩,
          fun h => h.hosts ⟨htext, hclear⟩ hno⟩
      · -- the join is carried out
        rw [granted_unchanged_iff hlow hr hmk hcan hw]
        constructor
        · intro h
          refine ⟨fun _ hno => absurd hcan hno, fun written _ hbroken => ?_, fun _ _ => h⟩
          cases hwhole.symm.trans hbroken
        · intro h
          exact h.secret hcan hwhole
      · -- the write is broken off
        rw [failed_unchanged_iff hr hw, tree_put_iff hmk hcan]
        constructor
        · intro h
          refine ⟨fun _ hno => absurd hcan hno, fun written' _ hbroken' => ?_, fun _ hwhole => ?_⟩
          · cases hbroken.symm.trans hbroken'
            exact h
          · cases hwhole.symm.trans hbroken
        · intro h
          exact h.whole written hcan hbroken

end Join

/--
**A refused request changes nothing, unless it is a JOIN that was granted too soon.**

`LowOrder` are the points `X25519` does not give a secret for.
-/
theorem refused_unchanged_iff
    (hlow : ∀ priv pub, Sealing.x25519 priv pub = none ↔ LowOrder pub) (input : GoString) :
    ((handleInbound paths edPriv drawn ts s input).2.refused = true →
        Unchanged paths s (handleInbound paths edPriv drawn ts s input).1)
      ↔ ∀ cookie name hostConfig clientPub,
        readInbound input = .ok (.invite (.join cookie name hostConfig) clientPub) →
        Invites s.fs paths cookie name →
        Timely paths LowOrder drawn ts s cookie name hostConfig clientPub := by
  unfold handleInbound
  cases hin : readInbound input with
  | error e =>
      simp only [reduceCtorEq, false_implies, implies_true, iff_true]
      exact fun _ => unchanged_refl s
  | ok c =>
      cases c with
      | gossip =>
          simp only [Except.ok.injEq, reduceCtorEq, false_implies, implies_true, iff_true]
          exact fun _ => unchanged_refl s
      | invite req pub =>
          cases req with
          | get cookie =>
              simp only [Except.ok.injEq, Inbound.invite.injEq, reduceCtorEq, false_and,
                false_implies, implies_true, iff_true]
              intro _
              rw [handleInvite2_state]
              exact unchanged_get cookie
          | join cookie name hostConfig =>
              simp only
              rw [join_unchanged_iff hlow]
              constructor
              · intro h cookie' name' hostConfig' pub' heq
                cases heq
                exact h
              · intro h
                exact h cookie name hostConfig pub rfl

end Requests

/-! ### A client key of low order -/

section Sample

/-- The point that gives no secret in the sample. -/
def zeroPub : EphemeralPub := ⟨List.replicate 32 0, by simp⟩

/-- As `clearSealing`, but without a secret for that point. -/
@[reducible] def strictSealing : Sealing where
  basepoint := clearPub
  x25519 priv peer := if peer = zeroPub then none else some (clearShared (clearPub priv) peer)
  hkdf secret salt _ := secret ++ salt
  aeadSeal := clearSealing.aeadSeal
  aeadOpen := clearSealing.aeadOpen

attribute [local instance] clearEd25519 strictSealing

theorem strictSealing_secret (priv : GoString) (pub : EphemeralPub) :
    Sealing.x25519 priv pub = none ↔ pub = zeroPub := by
  show (if pub = zeroPub then none else some _) = none ↔ pub = zeroPub
  simp

/-- An inviter with an invitation for bob. -/
def inviting : Serving where
  fs := .ofFiles [
    (sampleLoc ["hosts", "alice"], str "Port = 655\n"),
    (sampleLoc ["invitations", "c"], str "Name = bob\n")]
  plane := Gossip.newPlane (str "alice") (some (sampleSigner 1)) none

/-- A JOIN under that name, with the key that gives no secret. -/
def joinAs (name : GoString) : GoString :=
  str "INVITE2 JOIN c " ++ name ++ str " " ++ ephemeralPubToBase64 zeroPub ++ str "\n"
    ++ base64Encode (str "Ed25519PublicKey = " ++ base64Encode (List.replicate 32 7)) ++ str "\n"

/-- What happens to the connection. -/
def refusedJoin (name : GoString) : Serving × Answered :=
  handleInbound samplePaths (sampleSigner 1) (some ⟨[9]⟩) 1 inviting (joinAs name)

/-- Somebody the invitation is not for is turned away at the door. -/
theorem refused_unchanged_eve :
    (refusedJoin (str "eve")).2 = .err (.handler (.nameMismatch (str "bob")))
      ∧ Unchanged samplePaths inviting (refusedJoin (str "eve")).1 := by
  have hread : readInbound (joinAs (str "eve")) = .ok (.invite (.join (str "c") (str "eve")
      (str "Ed25519PublicKey = " ++ base64Encode (List.replicate 32 7))) zeroPub) := by
    decide +kernel
  refine ⟨by decide +kernel, ?_⟩
  refine (refused_unchanged_iff strictSealing_secret (joinAs (str "eve"))).mpr ?_
    (by decide +kernel)
  intro cookie name hostConfig clientPub heq hinvites
  rw [hread] at heq
  cases heq
  obtain ⟨file, hfile⟩ := readInvitation_ok_iff.mpr hinvites
  have hno : readInvitation inviting.fs samplePaths (str "c") (str "eve")
      = .error (.nameMismatch (str "bob")) := by decide +kernel
  rw [hno] at hfile
  cases hfile

/-- The invitee gets an error; the join stands all the same. -/
theorem low_order_join_stands :
    (refusedJoin (str "bob")).2 = .err .deriveKey
      ∧ inviting.fs.nodes.get? (sampleLoc ["hosts", "bob"]) = none
      ∧ (refusedJoin (str "bob")).1.fs.nodes.get? (sampleLoc ["hosts", "bob"]) ≠ none
      ∧ inviting.fs.nodes.get? (sampleLoc ["invitations", "c"]) ≠ none
      ∧ (refusedJoin (str "bob")).1.fs.nodes.get? (sampleLoc ["invitations", "c"]) = none
      ∧ inviting.plane.outbox.get? (str "alice/hello") = none
      ∧ (refusedJoin (str "bob")).1.plane.outbox.get? (str "alice/hello") ≠ none
      ∧ ¬ Unchanged samplePaths inviting (refusedJoin (str "bob")).1 := by
  refine ⟨by decide +kernel, by decide +kernel, by decide +kernel, by decide +kernel,
    by decide +kernel, by decide +kernel, by decide +kernel, fun h => ?_⟩
  have hout := congrArg (·.get? (str "alice/hello")) h.outbox
  exact absurd hout (by decide +kernel)

end Sample

end Gsnet.Transport
