import Gsnet.Gossip.Wire
import Gsnet.Proof.Trust

/-!
# Signatures along a path

An envelope is flooded: every hop decodes the line, checks the signature and
writes the envelope anew for its own neighbours. `SigningBytes` is meant to be
"a stable encoding so that re-encoding by intermediaries does not invalidate the
signature". It covers the payload byte for byte as it stood in the line, and a
hop writes the payload compacted, so the signature survives exactly where
compaction has nothing to do. Once it has been done, it is done for good: only
the first hop can break a signature.
-/

namespace Gsnet.Gossip

open Go Proof

/-- `Receive` takes the envelope as news and hands it to `Broadcast`. -/
def Plane.Accepts [Ed25519] (p : Plane) (env : Envelope) : Prop :=
  ∃ p', p.receive env = .ok (p', some env)

theorem Plane.accepts_iff [Ed25519] {p : Plane} {env : Envelope} :
    p.Accepts env ↔ p.verify env = true ∧ (p.claim env.id env.ts).isSome = true := by
  unfold Plane.Accepts Plane.receive
  cases hv : p.verify env with
  | false => simp
  | true =>
      cases hc : p.claim env.id env.ts with
      | none => simp
      | some p' => simp

/-- Whatever key the envelope verifies under, the other one does. -/
def Envelope.KeepsSignature [Ed25519] (e e' : Envelope) : Prop :=
  ∀ pub : Ed25519Public, pub.verify e.signingBytes e.signature = true →
    pub.verify e'.signingBytes e'.signature = true

/--
After any number of hops the envelope is still decoded, with the bytes its
origin signed, and verifies under the same keys.
-/
def Envelope.StaysSigned [Ed25519] (e : Envelope) : Prop :=
  ∀ n, ∃ e', e.forwarded n = some e' ∧ e'.signingBytes = e.signingBytes ∧ e.KeepsSignature e'

/-- There is a payload, and compaction leaves it as it is. -/
def Envelope.Tight (e : Envelope) : Prop := e.payload ≠ [] ∧ tight .between e.payload = true

instance (e : Envelope) : Decidable e.Tight := inferInstanceAs (Decidable (_ ∧ _))

theorem rewritten_eq_self_iff {e : Envelope} : rewritten e.payload = e.payload ↔ e.Tight := by
  unfold rewritten Envelope.Tight
  split
  · rename_i h
    rw [h]
    exact iff_of_false (by decide +kernel) (by simp)
  · rename_i h
    rw [compactFrom_eq_self_iff]
    simp [h]

example : rewritten (str "\x7b \x7d") = str "\x7b\x7d" := by decide +kernel

/-- Nothing of an envelope changes on its way but the payload. -/
theorem Envelope.forwarded_of_tight {e : Envelope} (h : e.OnWire) (ht : e.Tight) (n : Nat) :
    e.forwarded n = some e := by
  induction n with
  | zero => rfl
  | succ n ih =>
      rw [Envelope.forwarded, ih, Option.bind_some, h.hop, rewritten_eq_self_iff.mpr ht]

theorem signingBytes_payload_inj {e : Envelope} {payload : GoString}
    (h : { e with payload := payload }.signingBytes = e.signingBytes) : payload = e.payload :=
  List.append_cancel_left h

theorem Envelope.OnWire.staysSigned_iff [Ed25519] {e : Envelope} (hwire : e.OnWire) :
    e.StaysSigned ↔ e.Tight := by
  constructor
  · intro h
    -- the first hop tells
    obtain ⟨e', he', hbytes, -⟩ := h 1
    have hone : e.forwarded 1 = some { e with payload := rewritten e.payload } := hwire.hop
    cases hone.symm.trans he'
    exact rewritten_eq_self_iff.mp (signingBytes_payload_inj hbytes)
  · intro h n
    exact ⟨e, Envelope.forwarded_of_tight hwire h n, rfl, fun _ hv => hv⟩

/--
**Forwarding keeps a signature exactly when the payload came compact.** Whatever
line an envelope was decoded from, accepted or not, it is decoded from what is
written for it after any number of hops, with the same signed bytes, just when
it has a payload with no white space between tokens and no `<`, `>`, `&`, U+2028
or U+2029 written out.
-/
theorem stays_signed_iff [Ed25519] {input later : GoString} {e : Envelope}
    (hline : handleGossip input = some (some e, later)) : e.StaysSigned ↔ e.Tight := by
  obtain ⟨r, -, hr⟩ := Option.map_eq_some_iff.mp hline
  exact (Envelope.onWire_of_unmarshal (Prod.mk.inj hr).1).staysSigned_iff

section ForwardSample

attribute [local instance] clearEd25519

/-- A ping of `a`, signed over an empty object with some space between its braces. -/
def spacedPing (ws : GoString) : Envelope :=
  (newPlane (str "a") (some (privateNamed (str "a"))) none).sign
    ⟨str "a/ping", str "a", .ping, 1, 0x7B :: (ws ++ [0x7D]), []⟩

/-- The line it arrives in, the payload spelled that way. -/
def spacedLine (ws : GoString) : GoString :=
  writeObject ((spacedPing ws).members (0x7B :: (ws ++ [0x7D]))) ++ [0x0A]

theorem onWire_spacedPing {ws : GoString} (h : Spaces ws) : (spacedPing ws).OnWire := by
  refine ⟨?_, ?_, ?_, .inr (@Spelled.emptyObject 9998 ws h)⟩
  · exact @validUTF8_ascii (str "a/ping") (by decide +kernel)
  · exact @validUTF8_ascii (str "a") (by decide +kernel)
  · exact @validUTF8_ascii (str "ping") (by decide +kernel)

theorem handleGossip_spacedLine {ws : GoString} (h : Spaces ws) (hp : Printable ws) :
    handleGossip (spacedLine ws) = some (some (spacedPing ws), []) :=
  (onWire_spacedPing h).handleGossip (@Spelled.emptyObject 9998 ws h) (by simp [hp])

theorem stays_signed_compact :
    handleGossip (spacedLine []) = some (some (spacedPing []), [])
      ∧ (spacedPing []).StaysSigned := by
  have hline := handleGossip_spacedLine spaces_nil printable_nil
  exact ⟨hline, (stays_signed_iff hline).mpr (by decide +kernel)⟩

/-- One space is enough: accepted here, and refused by the next node that knows the same keys. -/
theorem spaced_payload_loses_signature :
    handleGossip (spacedLine [0x20]) = some (some (spacedPing [0x20]), [])
      ∧ observer.Accepts (spacedPing [0x20])
      ∧ (spacedPing [0x20]).hop = some { spacedPing [0x20] with payload := [0x7B, 0x7D] }
      ∧ observer.verify { spacedPing [0x20] with payload := [0x7B, 0x7D] } = false
      ∧ ¬ (spacedPing [0x20]).StaysSigned := by
  have hspace : Spaces [0x20] := by simp [Spaces, isJsonSpace]
  have hhop : (spacedPing [0x20]).hop
      = some { spacedPing [0x20] with payload := [0x7B, 0x7D] } := by
    have hr : rewritten (spacedPing [0x20]).payload = [0x7B, 0x7D] := by decide +kernel
    rw [(onWire_spacedPing hspace).hop, hr]
  refine ⟨handleGossip_spacedLine hspace (by simp),
    Plane.accepts_iff.mpr ⟨by decide +kernel, by decide +kernel⟩, hhop, by decide +kernel, ?_⟩
  rw [(onWire_spacedPing hspace).staysSigned_iff]
  decide +kernel

end ForwardSample

end Gsnet.Gossip
