import Gsnet.Go.Base64

/-!
# Keys

`internal/keys`. The signature algorithm and the hash belong to the standard
library and stay parameters: nothing in the control plane depends on how a
signature is computed, only on which key a check is made against.
-/

namespace Gsnet

open Go

/-- `crypto/ed25519`: signing with a private key, checking with a public one. -/
class Ed25519 where
  sign : GoString → GoString → GoString
  verify : GoString → GoString → GoString → Bool

/--
A stand-in to evaluate the model with: the signature is the public key and the
message in clear, so that only the key it was made with accepts it.
-/
@[reducible] def clearEd25519 : Ed25519 where
  sign priv msg := priv.drop 32 ++ msg
  verify pub msg sig := sig == pub ++ msg

/-- A private key: the seed followed by the public key. -/
structure Ed25519Private where
  raw : GoString
  deriving DecidableEq, Repr

/-- A public key. The zero value has no bytes. -/
structure Ed25519Public where
  raw : GoString
  deriving DecidableEq, Repr

/-- `ed25519.PublicKeySize`. -/
def publicKeySize : Nat := 32

def Ed25519Private.public (p : Ed25519Private) : Ed25519Public := ⟨p.raw.drop 32⟩

def Ed25519Private.sign [Ed25519] (p : Ed25519Private) (msg : GoString) : GoString :=
  Ed25519.sign p.raw msg

/-- A key of the wrong length verifies nothing. -/
def Ed25519Public.verify [Ed25519] (p : Ed25519Public) (msg sig : GoString) : Bool :=
  if p.raw.length ≠ publicKeySize then false else Ed25519.verify p.raw msg sig

theorem Ed25519Public.length_of_verify [Ed25519] {pub : Ed25519Public} {msg sig : GoString}
    (h : pub.verify msg sig = true) : pub.raw.length = publicKeySize := by
  unfold Ed25519Public.verify at h
  split at h
  · cases h
  · rename_i hlen
    exact not_not.mp hlen

/-- `ParseEd25519PublicBase64`. -/
def parseEd25519PublicBase64 (s : GoString) : Option Ed25519Public :=
  (base64Decode s).bind fun b => if b.length ≠ publicKeySize then none else some ⟨b⟩

/-- `ParseEd25519PublicBase64ish`: thirty-two raw bytes, or base64 text. -/
def parseEd25519PublicBase64ish (b : GoString) : Option Ed25519Public :=
  if b.length = publicKeySize then some ⟨b⟩ else parseEd25519PublicBase64 b

/-- `String()`: the key in base64. -/
def Ed25519Public.string (p : Ed25519Public) : GoString := base64Encode p.raw

/-- `crypto/sha256`. -/
class Sha256 where
  sum256 : GoString → GoString
  length_sum256 : ∀ b, (sum256 b).length = 32

/-- A stand-in to evaluate the model with: the bytes themselves, cut or filled up. -/
@[reducible] def clearSha256 : Sha256 where
  sum256 b := (b ++ List.replicate 32 0).take 32
  length_sum256 b := by simp

/-- `Hash`: the fingerprint in invitation URLs. -/
def Ed25519Public.hash [Sha256] (p : Ed25519Public) : GoString :=
  base64RawURLEncode (Sha256.sum256 p.raw)

theorem Ed25519Public.length_hash [Sha256] (pub : Ed25519Public) : pub.hash.length = 43 := by
  rw [Ed25519Public.hash, length_base64RawURLEncode, Sha256.length_sum256]

theorem Ed25519Public.hash_ne_nil [Sha256] (pub : Ed25519Public) : pub.hash ≠ [] := by
  refine base64RawURLEncode_ne_nil (List.ne_nil_of_length_pos ?_)
  rw [Sha256.length_sum256]
  decide

/-- `encoding/pem` and `crypto/x509`: the bytes of an Ed25519 private key in a PEM text. -/
class PKCS8 where
  ed25519 : GoString → Option GoString

/-- A stand-in to evaluate the model with: the text is the key. -/
@[reducible] def clearPKCS8 : PKCS8 := ⟨some⟩

def parseEd25519PrivatePEM [PKCS8] (b : GoString) : Option Ed25519Private :=
  (PKCS8.ed25519 b).map Ed25519Private.mk

/-! ## WireGuard keys -/

/-- `wgtypes.Key`: thirty-two bytes. -/
structure WGKey where
  raw : GoString
  length_raw : raw.length = 32
  deriving DecidableEq

/-- `wgtypes.ParseKey`. -/
def parseKey (s : GoString) : Option WGKey :=
  (base64Decode s).bind fun b => if h : b.length = 32 then some ⟨b, h⟩ else none

def WGKey.string (k : WGKey) : GoString := base64Encode k.raw

/-- `wgtypes.Key.PublicKey`: the public half of a private key. -/
class Curve25519 where
  publicKey : WGKey → WGKey

/-- A stand-in to evaluate the model with: both halves are the same. -/
@[reducible] def clearCurve25519 : Curve25519 := ⟨id⟩

end Gsnet
