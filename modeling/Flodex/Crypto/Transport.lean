import Flodex.Crypto.Scheme
import Flodex.Foundations.Checked

/-!
# The transport between a client and a node

Both ends agree on a key by their X25519 keys and the session id, and seal what they exchange under
it. The primitives are parameters; what the crate makes of them is here.
-/

namespace Flodex

open Text

/-- What `x25519_dalek`, `hkdf`, `chacha20poly1305` and `base64` compute. -/
structure Transport where
  publicKey : Bytes32 → Bytes32
  diffieHellman : Bytes32 → Bytes32 → Bytes32
  /-- From a salt, a secret and an info. -/
  hkdf : List UInt8 → Bytes32 → List UInt8 → Bytes32
  aeadSeal : Bytes32 → Bytes 24 → List UInt8 → Except String (List UInt8)
  aeadOpen : Bytes32 → Bytes 24 → List UInt8 → Except String (List UInt8)
  b64Encode : List UInt8 → String
  b64Decode : String → Except String (List UInt8)

namespace Transport

variable (t : Transport)

/-- `HKDF_INFO`. -/
def hkdfInfo : List UInt8 := utf8 "fldx-v0-session-key".toList

def deriveKey (shared : Bytes32) (sessionId : String) : Bytes32 :=
  t.hkdf (utf8 sessionId.toList) shared hkdfInfo

/-- The ciphertext, under the nonce that is drawn. -/
def encrypt (key : Bytes32) (nonce : Bytes 24) (plaintext : List UInt8) :
    Except String (List UInt8) :=
  (t.aeadSeal key nonce plaintext).mapError fun e => "encrypt failed: " ++ e

def decrypt (key : Bytes32) (nonce ciphertext : List UInt8) : Except String (List UInt8) := do
  let nonce ← orThrow (Bytes.ofList? 24 nonce)
    ("nonce must be 24 bytes, got " ++ toString nonce.length)
  (t.aeadOpen key nonce ciphertext).mapError fun e => "decrypt failed: " ++ e

/-- What the primitives promise an honest sender. -/
structure Lawful : Prop where
  b64Decode : ∀ bytes, t.b64Decode (t.b64Encode bytes) = .ok bytes
  agree : ∀ a b, t.diffieHellman a (t.publicKey b) = t.diffieHellman b (t.publicKey a)
  aeadOpen : ∀ key nonce plaintext ciphertext, t.aeadSeal key nonce plaintext = .ok ciphertext →
    t.aeadOpen key nonce ciphertext = .ok plaintext

variable {t}

theorem Lawful.decrypt_encrypt (lawful : t.Lawful) {key : Bytes32} {nonce : Bytes 24}
    {plaintext ciphertext : List UInt8} (h : t.encrypt key nonce plaintext = .ok ciphertext) :
    t.decrypt key nonce.toList ciphertext = .ok plaintext := by
  have hopen := lawful.aeadOpen _ _ _ _ (mapError_eq_ok.1 h)
  simp only [decrypt, Bytes.ofList?_toList, orThrow, Option.elim_some, hopen, Except.mapError,
    bind, Except.bind]

end Transport

end Flodex
