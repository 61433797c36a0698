import Flodex.Crypto.Scheme

/-!
# Identity signatures

Nodes sign what they tell a coordinator with ECDSA over SHA-256. The hash and the verification of
a prehash are parameters, the latter with the parsers of the compressed key and of the signature;
the lengths are checked before.
-/

namespace Flodex

/-- `IDENTITY_PUBKEY_SIZE`: the length of a compressed key. -/
def identityPubkeySize : ℕ := 33

/-- `IDENTITY_SIG_SIZE`: the length of a signature `r‖s`. -/
def identitySigSize : ℕ := 64

/-- The hash, and the verification of a signature of a key on it. -/
structure IdentityCrypto where
  sha256 : List UInt8 → Bytes32
  verifyPrehash : List UInt8 → Bytes32 → List UInt8 → Bool

namespace IdentityCrypto

variable (crypto : IdentityCrypto)

def verifyIdentitySignature (pubkeyCompressed message signature : List UInt8) : Bool :=
  if pubkeyCompressed.length ≠ identityPubkeySize ∨ signature.length ≠ identitySigSize then false
  else crypto.verifyPrehash pubkeyCompressed (crypto.sha256 message) signature

/-- A signature of the symbolic scheme. -/
def symbolicSign (key message : List UInt8) : List UInt8 :=
  key ++ (Crypto.symbolic.keccak256 message).toList.take 31

/-- The symbolic scheme: a signature names the key and most of the last word of the message. -/
def symbolic : IdentityCrypto where
  sha256 := Crypto.symbolic.keccak256
  verifyPrehash key hash signature := signature = key ++ hash.toList.take 31

/-- A symbolic signature verifies. -/
theorem symbolic_verify_sign {key : List UInt8} (hkey : key.length = identityPubkeySize)
    (message : List UInt8) :
    symbolic.verifyIdentitySignature key message (symbolicSign key message) = true := by
  have hsig : (symbolicSign key message).length = identitySigSize := by
    simp [symbolicSign, hkey, identityPubkeySize, identitySigSize]
  rw [verifyIdentitySignature, if_neg (by simp [hkey, hsig])]
  exact decide_eq_true rfl

end IdentityCrypto

end Flodex
