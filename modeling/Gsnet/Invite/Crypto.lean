import Gsnet.Keys

/-!
# The cryptography of an invitation

`internal/invite/crypto.go`. Both sides of an invitation session draw an X25519
key pair; the key of the reply comes from the shared secret with the cookie as
salt. The algorithms belong to `golang.org/x/crypto` and stay parameters.
-/

namespace Gsnet.Invite

open Go

/-- The public half of an X25519 key pair. -/
@[ext] structure EphemeralPub where
  raw : GoString
  length_raw : raw.length = 32

instance : DecidableEq EphemeralPub := fun a b =>
  decidable_of_iff (a.raw = b.raw) EphemeralPub.ext_iff.symm

/-- `golang.org/x/crypto`. -/
class Sealing where
  /-- `curve25519.X25519` with the base point. -/
  basepoint : GoString → EphemeralPub
  /-- `curve25519.X25519`: an error where the shared secret would be zero. -/
  x25519 : GoString → EphemeralPub → Option GoString
  /-- `hkdf.New(sha256.New, secret, salt, info)`, read to the length of a key. -/
  hkdf : (secret salt info : GoString) → GoString
  /-- `chacha20poly1305` under the zero nonce. -/
  aeadSeal : (key plaintext : GoString) → GoString
  aeadOpen : (key ciphertext : GoString) → Option GoString

/-- `hkdfInfo`. -/
def hkdfInfo : GoString := str "gsnet-invite-v1"

/-- One side's key pair for a single session. -/
structure Ephemeral where
  priv : GoString
  deriving DecidableEq

section

variable [Sealing]

/-- The public half that `NewEphemeral` computes. -/
def Ephemeral.pub (e : Ephemeral) : EphemeralPub := Sealing.basepoint e.priv

/-- `DeriveKey`. -/
def Ephemeral.deriveKey (e : Ephemeral) (peerPub : EphemeralPub) (cookie : GoString) :
    Option GoString :=
  (Sealing.x25519 e.priv peerPub).map fun shared => Sealing.hkdf shared cookie hkdfInfo

end

/-- Why a public key is refused. -/
inductive PubError where
  | base64
  /-- `ephemeral pub: wrong length %d`. -/
  | length (n : Nat)
  deriving DecidableEq, Repr

def ephemeralPubFromBase64 (s : GoString) : Except PubError EphemeralPub :=
  match base64Decode s with
  | none => .error .base64
  | some b => if h : b.length = 32 then .ok ⟨b, h⟩ else .error (.length b.length)

def ephemeralPubToBase64 (pub : EphemeralPub) : GoString := base64Encode pub.raw

/-! ## A stand-in -/

theorem length_clearRaw (priv : GoString) :
    ((priv ++ List.replicate 32 0).take 32).length = 32 := by
  simp

/-- A key pair with the same two halves, cut or filled up. -/
def clearPub (priv : GoString) : EphemeralPub :=
  ⟨(priv ++ List.replicate 32 0).take 32, length_clearRaw priv⟩

/-- Both public halves, in an order that does not depend on the side. -/
def clearShared (a b : EphemeralPub) : GoString :=
  if a.raw < b.raw then a.raw ++ b.raw else b.raw ++ a.raw

theorem length_clearShared (a b : EphemeralPub) : (clearShared a b).length = 64 := by
  unfold clearShared
  split <;> rw [List.length_append, a.length_raw, b.length_raw]

/-- The secret tells the two public halves, but not which is whose. -/
theorem clearShared_inj {a b a' b' : EphemeralPub} (h : clearShared a b = clearShared a' b') :
    (a = a' ∧ b = b') ∨ (a = b' ∧ b = a') := by
  have hparts : ∀ {x y x' y' : EphemeralPub}, x.raw ++ y.raw = x'.raw ++ y'.raw →
      x = x' ∧ y = y' := by
    intro x y x' y' hxy
    obtain ⟨hx, hy⟩ := List.append_inj hxy (by rw [x.length_raw, x'.length_raw])
    exact ⟨EphemeralPub.ext hx, EphemeralPub.ext hy⟩
  unfold clearShared at h
  split at h <;> split at h
  · exact .inl (hparts h)
  · exact .inr (hparts h)
  · exact .inr (hparts h).symm
  · exact .inl (hparts h).symm

/--
A stand-in to evaluate the model with: the secret is the pair of public halves,
and a ciphertext is the plaintext after the key.
-/
@[reducible] def clearSealing : Sealing where
  basepoint := clearPub
  x25519 priv peer := some (clearShared (clearPub priv) peer)
  hkdf secret salt _ := secret ++ salt
  aeadSeal key plaintext := key ++ plaintext
  aeadOpen key ciphertext :=
    if key.isPrefixOf ciphertext then some (ciphertext.drop key.length) else none

end Gsnet.Invite
