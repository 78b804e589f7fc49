import Gsnet.Daemon.Run
import Gsnet.Proof.Reload

/-!
# The Hello in the outbox

`AnnounceHello` takes the contents of a Hello from its caller and the ID from the
plane, so whoever calls it writes the one slot of the node's own Hello.
`announceLocal` calls it with the local Hello, `handleInviteJoin` with one about
the invitee. Every JOIN that brings a signing key puts the invitee into the
inviter's slot, and there it stays until the next `announceLocal`: whoever
connects meanwhile learns nothing about the inviter.

No other operation writes the outbox. The local Hello is therefore in its place
all the time exactly when no such JOIN is served, and when its texts survive JSON
in the first place.
-/

namespace Gsnet.Daemon

open Go Config Gossip

/-! ## Hellos that survive JSON -/

/-- The texts of a Hello are valid UTF-8. -/
def ValidTexts (h : Hello) : Prop :=
  toValidUTF8 h.name = h.name ∧ toValidUTF8 h.endpoint = h.endpoint

theorem wgString_ne_nil (k : WGKey) : k.string ≠ [] := by
  have hlen := k.length_raw
  unfold WGKey.string
  match h : k.raw with
  | [] => rw [h] at hlen; cases hlen
  | [a] => exact List.cons_ne_nil _ _
  | [a, b] => exact List.cons_ne_nil _ _
  | a :: b :: c :: t => exact List.cons_ne_nil _ _

section

variable [Curve25519]

/-- Of the texts of the local Hello only the name and the endpoint can be spoilt. -/
theorem unmarshal_localHello (l : Loaded) (ep : Option AddrPort) :
    Hello.unmarshal (localHello l ep).marshal
      = some { localHello l ep with
          name := toValidUTF8 l.nodeName
          endpoint := toValidUTF8 (localHello l ep).endpoint } := by
  have hkey : toValidUTF8 (Curve25519.publicKey l.wgPriv).string
      = (Curve25519.publicKey l.wgPriv).string :=
    toValidUTF8_of_valid (validUTF8_ascii fun c hc => (base64Encode_chars _ c hc).2)
  have haddr : ∀ a : Option Prefix, toValidUTF8 (a.elim [] Prefix.string)
      = a.elim [] Prefix.string := by
    intro a
    cases a with
    | none => rfl
    | some a => exact toValidUTF8_of_valid (validUTF8_ascii a.string_ascii)
  rw [Hello.unmarshal_marshal]
  simp only [localHello, hkey, haddr]

theorem unmarshal_localHello_iff (l : Loaded) (ep : Option AddrPort) :
    Hello.unmarshal (localHello l ep).marshal = some (localHello l ep)
      ↔ ValidTexts (localHello l ep) := by
  rw [unmarshal_localHello, Option.some_inj, Hello.mk.injEq]
  exact ⟨fun h => ⟨h.1, h.2.2.2.1⟩, fun h => ⟨h.1, rfl, rfl, h.2, rfl, rfl⟩⟩

end

/-! ## The slot -/

section Slot

variable [Ed25519]

theorem announceSubnets_hello (clock : Nat → Int64) (subnets : List (Subnet × Nat)) (p : Plane) :
    (subnets.foldl (fun p s => (p.announceAddSubnet s.1.string (clock s.2)).1) p).outbox.get?
        (Plane.helloID p.nodeName) = p.outbox.get? (Plane.helloID p.nodeName) := by
  induction subnets generalizing p with
  | nil => rfl
  | cons s subnets ih =>
      have hcall : p.announceAddSubnet s.1.string (clock s.2)
          = p.announce (.addSubnet s.1.string) (clock s.2) := rfl
      have hstep := ih (p.announceAddSubnet s.1.string (clock s.2)).1
      rw [hcall, Plane.announce_nodeName, Plane.announce_outbox, Announcement.id,
        GoMap.get?_set, if_neg (subnetID_ne_helloID _ _).symm] at hstep
      exact hstep

/-- **After `announceLocal` the slot holds the local Hello.** -/
theorem announceLocal_hello [Curve25519] (p : Plane) (l : Loaded) (ep : Option AddrPort)
    (clock : Clock) :
    ∃ env, (announceLocal p l ep clock).outbox.get? (Plane.helloID p.nodeName) = some env
      ∧ env.kind = .addNode ∧ env.payload = (localHello l ep).marshal := by
  have hcall : p.announceHello (localHello l ep) clock.hello
      = p.announce (.hello (localHello l ep)) clock.hello := rfl
  have hslot := announceSubnets_hello clock.subnet l.subnets.zipIdx
    (p.announceHello (localHello l ep) clock.hello).1
  rw [hcall, Plane.announce_nodeName, Plane.announce_outbox, Announcement.id, GoMap.get?_set,
    if_pos rfl] at hslot
  exact ⟨_, hslot, Plane.announce_kind _ _ _, Plane.announce_payload _ _ _⟩

end Slot

/-! ## Invitations with a key -/

/-- The host config a client sends along gives a signing key. -/
def GivesKey (hostConfig : GoString) : Prop :=
  ∃ es v pub, Config.parse hostConfig = .ok es
    ∧ es.getFirst (str "Ed25519PublicKey") = some v
    ∧ parseEd25519PublicBase64 (trimSpace v) = some pub

theorem inviteeHello_eq_none {name hostConfig : GoString} :
    inviteeHello name hostConfig = none ↔ ¬ GivesKey hostConfig := by
  unfold inviteeHello GivesKey
  cases Config.parse hostConfig with
  | error e => simp
  | ok es =>
      cases hv : es.getFirst (str "Ed25519PublicKey") with
      | none => simp [hv]
      | some v => cases hp : parseEd25519PublicBase64 (trimSpace v) <;> simp [hv, hp]

/-- A JOIN that is served and brings a key. -/
structure KeyedJoin (s : Process) (cookie name hostConfig : GoString) : Prop where
  /-- There is an invitation under the cookie, and it is for that name. -/
  invited : ∃ file, readInvitation s.fs s.paths cookie name = .ok file
  /-- The host file can be written. -/
  written : ∃ fs, writeHost s.fs s.paths name hostConfig = .ok fs
  key : GivesKey hostConfig

/-- **A Hello about the invitee goes out exactly for a JOIN with a key.** -/
theorem join_hello_eq_none (s : Process) (cookie name hostConfig : GoString) :
    (handleInviteJoin s.fs s.paths cookie name hostConfig).hello = none
      ↔ ¬ KeyedJoin s cookie name hostConfig := by
  unfold handleInviteJoin
  cases hr : readInvitation s.fs s.paths cookie name with
  | error e =>
      refine iff_of_true rfl fun h => ?_
      obtain ⟨file, hfile⟩ := h.invited
      rw [hr] at hfile
      cases hfile
  | ok file =>
      cases hw : writeHost s.fs s.paths name hostConfig with
      | error fs =>
          refine iff_of_true rfl fun h => ?_
          obtain ⟨fs', hfs⟩ := h.written
          rw [hw] at hfs
          cases hfs
      | ok fs =>
          show inviteeHello name hostConfig = none ↔ _
          rw [inviteeHello_eq_none]
          exact not_congr ⟨fun hk => ⟨⟨file, hr⟩, ⟨fs, hw⟩, hk⟩, KeyedJoin.key⟩

/-- It names no WireGuard key. -/
theorem join_hello_wgPublic {s : Process} {cookie name hostConfig : GoString} {h : Hello}
    (hh : (handleInviteJoin s.fs s.paths cookie name hostConfig).hello = some h) :
    h.wgPublic = [] := by
  unfold handleInviteJoin at hh
  cases hr : readInvitation s.fs s.paths cookie name with
  | error e => rw [hr] at hh; cases hh
  | ok file =>
      rw [hr] at hh
      cases hw : writeHost s.fs s.paths name hostConfig with
      | error fs => rw [hw] at hh; cases hh
      | ok fs =>
          rw [hw] at hh
          replace hh : inviteeHello name hostConfig = some h := hh
          unfold inviteeHello at hh
          cases hc : Config.parse hostConfig with
          | error e => rw [hc] at hh; cases hh
          | ok es =>
              rw [hc] at hh
              simp only [Option.bind_eq_some_iff, Option.map_eq_some_iff] at hh
              obtain ⟨v, -, pub, -, rfl⟩ := hh
              rfl

/-! ## Every run -/

section Runs

variable [Ed25519] [Curve25519]

/--
The slot of the node's own Hello holds it, as it was at the last `announceLocal`,
and under the name the node has.
-/
def HasLocalHello (s : Process) : Prop :=
  ∃ env, s.plane.outbox.get? (Plane.helloID s.loaded.nodeName) = some env ∧ env.kind = .addNode
    ∧ Hello.unmarshal env.payload = some (localHello s.last.1 s.last.2)
    ∧ s.last.1.nodeName = s.loaded.nodeName

/-- An operation leaves the local Hello in its place. -/
def Keeps (s : Process) : Op → Prop
  | .announceLocal _ => ValidTexts (localHello s.loaded s.endpoint)
  | .join cookie name hostConfig _ => ¬ KeyedJoin s cookie name hostConfig
  | _ => True

/-- What `announceLocal` leaves in the slot is the local Hello, if its texts survive. -/
theorem hasLocalHello_announced {s : Process} {p : Plane} {l : Loaded} {ep : Option AddrPort}
    {clock : Clock} (hplane : s.plane = announceLocal p l ep clock) (hlast : s.last = (l, ep))
    (hloaded : s.loaded = l) (hname : p.nodeName = l.nodeName) :
    HasLocalHello s ↔ ValidTexts (localHello l ep) := by
  obtain ⟨env, hslot, hkind, hpayload⟩ := announceLocal_hello p l ep clock
  unfold HasLocalHello
  rw [hplane, hlast, hloaded, ← hname, hslot]
  constructor
  · rintro ⟨env', he, -, hread, -⟩
    cases he
    rw [hpayload] at hread
    exact (unmarshal_localHello_iff l ep).mp hread
  · intro hv
    refine ⟨env, rfl, hkind, ?_, rfl⟩
    rw [hpayload]
    exact (unmarshal_localHello_iff l ep).mpr hv

/-- **One operation**, in a state that has the local Hello in its place. -/
theorem hasLocalHello_step [PKCS8] {s : Process} {o : Op} (hs : HasLocalHello s)
    (hname : s.loaded.nodeName = s.plane.nodeName)
    (hname' : (s.step o).loaded.nodeName = s.plane.nodeName) :
    HasLocalHello (s.step o) ↔ Keeps s o := by
  cases o with
  | edit fs => exact iff_of_true hs trivial
  | load =>
      refine iff_of_true ?_ trivial
      -- only what is loaded changes, and the name is the same
      obtain ⟨env, hslot, hkind, hread, hlast⟩ := hs
      cases hl : load s.fs s.paths with
      | ok l =>
          have hload : s.step .load = { s with loaded := l } := by simp only [Process.step, hl]
          rw [hload] at hname' ⊢
          have hsame : l.nodeName = s.loaded.nodeName := hname'.trans hname.symm
          refine ⟨env, ?_, hkind, hread, hlast.trans hsame.symm⟩
          rw [← hsame] at hslot
          exact hslot
      | error e =>
          have hload : s.step .load = s := by simp only [Process.step, hl]
          rw [hload]
          exact ⟨env, hslot, hkind, hread, hlast⟩
  | discover ep => exact iff_of_true hs trivial
  | announceLocal clock => exact hasLocalHello_announced rfl rfl rfl hname.symm
  | join cookie name hostConfig ts =>
      cases hh : (handleInviteJoin s.fs s.paths cookie name hostConfig).hello with
      | none =>
          refine iff_of_true ?_ ((join_hello_eq_none s cookie name hostConfig).mp hh)
          simpa only [HasLocalHello, Process.step, hh, Option.elim_none] using hs
      | some h =>
          -- the Hello about the invitee takes the slot, and names no WireGuard key
          refine iff_of_false ?_ fun hk => ?_
          · rintro ⟨env, hslot, -, hread, -⟩
            simp only [Process.step, hh, Option.elim_some] at hslot hread
            have hcall : s.plane.announceHello h ts = s.plane.announce (.hello h) ts := rfl
            rw [hcall, Plane.announce_outbox, hname, Announcement.id, GoMap.get?_set,
              if_pos rfl, Option.some_inj] at hslot
            rw [← hslot, Plane.announce_payload] at hread
            replace hread : Hello.unmarshal h.marshal = _ := hread
            rw [Hello.unmarshal_marshal, join_hello_wgPublic hh, Option.some_inj] at hread
            exact wgString_ne_nil _ (congrArg Hello.wgPublic hread).symm
          · rw [(join_hello_eq_none s cookie name hostConfig).mpr hk] at hh
            cases hh
  | receive env =>
      refine iff_of_true ?_ trivial
      obtain ⟨-, -, hout⟩ := Plane.afterReceive_frame s.verifying env
      obtain ⟨env', hslot, hrest⟩ := hs
      refine ⟨env', ?_, hrest⟩
      show (s.verifying.afterReceive env).outbox.get? _ = _
      rw [hout]
      exact hslot

/--
**The local Hello is in its place after every operation of a run exactly when no
JOIN that is served brings a key**, and the texts of the local Hello are valid
UTF-8 whenever it is announced.
-/
theorem localHello_kept_iff [PKCS8] {paths : Paths} {fs : FileSystem} {clock : Clock} {s₀ : Process}
    (hstart : Process.start paths fs clock = .ok s₀) (ops : List Op)
    (hname : ∀ before after, ops = before ++ after →
      (s₀.run before).loaded.nodeName = s₀.loaded.nodeName) :
    (∀ before after, ops = before ++ after → HasLocalHello (s₀.run before))
      ↔ ValidTexts (localHello s₀.loaded none)
        ∧ ∀ before o after, ops = before ++ o :: after → Keeps (s₀.run before) o := by
  obtain ⟨hboot, hplane, -⟩ := start_spec hstart
  have hfirst : HasLocalHello s₀ ↔ ValidTexts (localHello s₀.loaded none) :=
    hasLocalHello_announced (congrArg Process.plane hboot) (congrArg Process.last hboot) rfl rfl
  have hstep : ∀ before o after, ops = before ++ o :: after → HasLocalHello (s₀.run before) →
      (HasLocalHello (s₀.run (before ++ [o])) ↔ Keeps (s₀.run before) o) := by
    intro before o after hops hs
    have hid := (run_identity s₀ before).1
    have hnext := hname (before ++ [o]) after (by simp [hops])
    rw [Process.run_append_singleton] at hnext ⊢
    refine hasLocalHello_step hs ?_ ?_
    · rw [hname before (o :: after) hops, hid, hplane]
    · rw [hnext, hid, hplane]
  constructor
  · intro h
    refine ⟨hfirst.mp (h [] ops rfl), fun before o after hops => ?_⟩
    exact (hstep before o after hops (h before (o :: after) hops)).mp
      (h (before ++ [o]) after (by simp [hops]))
  · rintro ⟨hvalid, hkeeps⟩ before
    induction before using List.reverseRecOn with
    | nil => exact fun _ _ => hfirst.mpr hvalid
    | append_singleton before o ih =>
        intro after hops
        have hops' : ops = before ++ o :: after := by simpa using hops
        exact (hstep before o after hops' (ih (o :: after) hops')).mpr
          (hkeeps before o after hops')

end Runs

section Sample

attribute [local instance] clearEd25519 clearCurve25519 clearPKCS8

/-- Node `a` with nothing in its configuration but its name. -/
def sampleProcess : Process := .boot samplePaths (sampleFiles []) loadedNone.loaded sampleClock

/-- A redial announces the local Hello again. -/
theorem localHello_kept_redial :
    Process.start samplePaths (sampleFiles []) sampleClock = .ok sampleProcess
      ∧ HasLocalHello (sampleProcess.run [.announceLocal sampleClock]) := by
  have hstart : Process.start samplePaths (sampleFiles []) sampleClock = .ok sampleProcess :=
    Process.start_of_load loadedNone.load_eq sampleClock
  have hvalid : ValidTexts (localHello loadedNone.loaded none) := by
    unfold ValidTexts
    decide +kernel
  refine ⟨hstart, (localHello_kept_iff hstart [.announceLocal sampleClock] ?_).mpr
    ⟨hvalid, ?_⟩ [.announceLocal sampleClock] [] rfl⟩
  · intro before after hsplit
    cases before with
    | nil => rfl
    | cons o before =>
        obtain ⟨rfl, hnil⟩ := List.cons.inj hsplit
        obtain ⟨rfl, -⟩ := List.append_eq_nil_iff.mp hnil.symm
        rfl
  · intro before o after hsplit
    cases before with
    | nil =>
        obtain ⟨rfl, -⟩ := List.cons.inj hsplit
        exact hvalid
    | cons o' before =>
        have hlen := congrArg List.length hsplit
        simp at hlen

/-- The files of node `a` with an invitation for `b` under the cookie `c`. -/
def invitedFiles : FileSystem :=
  .ofFiles [
    (sampleLoc ["gsnet.conf"], str "Name = a\n"),
    (sampleLoc ["ed25519_key.priv"], (sampleSigner 1).raw),
    (sampleLoc ["wg.priv"], (sampleWG 1).string),
    (sampleLoc ["invitations", "c"], str "Name = b\n")]

/-- The JOIN of `b` with its signing key. -/
def sampleJoin : Op :=
  .join (str "c") (str "b")
    (str "Ed25519PublicKey = " ++ (sampleSigner 2).public.string ++ str "\n") 2

/-- Whom the slot of a node's own Hello is about. -/
def slotName (s : Process) : Option GoString :=
  (s.plane.outbox.get? (Plane.helloID s.loaded.nodeName)).bind fun env =>
    (Hello.unmarshal env.payload).map Hello.name

/-- After the JOIN the slot of `a` is about `b`. -/
theorem localHello_displaced :
    Process.start samplePaths invitedFiles sampleClock
        = .ok (.boot samplePaths invitedFiles loadedNone.loaded sampleClock)
      ∧ loadedNone.loaded.nodeName = str "a"
      ∧ slotName (.boot samplePaths invitedFiles loadedNone.loaded sampleClock) = some (str "a")
      ∧ slotName ((Process.boot samplePaths invitedFiles loadedNone.loaded sampleClock).run
          [sampleJoin]) = some (str "b") := by
  have hload : load invitedFiles samplePaths = .ok loadedNone.loaded := by decide +kernel
  exact ⟨Process.start_of_load hload sampleClock, rfl, by decide +kernel, by decide +kernel⟩

end Sample

end Gsnet.Daemon
