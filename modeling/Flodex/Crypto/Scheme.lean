import Flodex.Foundations.Text

/-!
# Hashes and recoverable signatures

Keccak and ECDSA recovery are parameters: a hash to 32 bytes, and a partial function from a digest
and a signature to the address of the signer. `recover` stands for `ECDSA.recover` of the
contracts as well as for `recover_from_prehash` of the Rust code; both accept only signatures of
65 bytes. What is built over them, the EIP-191 envelope, is the programs' own.

`Crypto.symbolic` is a scheme in which a signature names its signer and the digest it is for.
-/

namespace Flodex

/-- Ethereum addresses. -/
abbrev Address := Bytes 20

/-- Words of 32 bytes. -/
abbrev Bytes32 := Bytes 32

/-- `EIP191_SIG_SIZE`: the length of a signature `r‖s‖v`. -/
def eip191SigSize : ℕ := 65

/-- The hash and the recovery of signers. -/
structure Crypto where
  keccak256 : List UInt8 → Bytes32
  recover : Bytes32 → List UInt8 → Option Address
  /-- Both libraries reject a signature of any other length. -/
  length_of_recover : ∀ {d sig a}, recover d sig = some a → sig.length = eip191SigSize

namespace Crypto

variable (crypto : Crypto)

/-- `EIP191_PREFIX`: the bytes `"\x19Ethereum Signed Message:\n32"`. -/
def eip191Prefix : List UInt8 := 25 :: Text.utf8 "Ethereum Signed Message:\n32".toList

/-- `MessageHashUtils.toEthSignedMessageHash`: the digest of a hash. -/
def toEthSignedMessageHash (hash : Bytes32) : Bytes32 :=
  crypto.keccak256 (eip191Prefix ++ hash.toList)

/-- `eip191_digest`: the digest of a message. -/
def eip191Digest (message : List UInt8) : Bytes32 :=
  let inner := crypto.keccak256 message
  crypto.keccak256 (eip191Prefix ++ inner.toList)

/-- `recover_eip191`: the address that signed a message. -/
def recoverEip191 (message sig : List UInt8) : Option Address :=
  crypto.recover (crypto.eip191Digest message) sig

/-- A signature of the symbolic scheme. -/
def symbolicSign (signer : Address) (digest : Bytes32) : List UInt8 :=
  signer.toList ++ digest.toList ++ List.replicate 13 0

/-- The symbolic scheme: a signature names the signer and the digest, and the hash is the last
word hashed. -/
def symbolic : Crypto where
  keccak256 l := ⟨((List.replicate 32 0 ++ l).reverse.take 32).reverse, by simp⟩
  recover d sig :=
    if sig.length = eip191SigSize ∧ (sig.drop 20).take 32 = d.toList then
      Bytes.ofList? 20 (sig.take 20)
    else none
  length_of_recover h := by
    split at h
    · rename_i hsig
      exact hsig.1
    · simp at h

/-- A symbolic signature recovers to its signer. -/
theorem symbolic_recover_sign (a : Address) (d : Bytes32) :
    symbolic.recover d (symbolicSign a d) = some a := by
  have hlen : (symbolicSign a d).length = eip191SigSize := by simp [symbolicSign, eip191SigSize]
  have hdigest : ((symbolicSign a d).drop 20).take 32 = d.toList := by
    rw [symbolicSign, List.append_assoc]
    exact take_drop_field a.length_toList d.length_toList
  have hsigner : (symbolicSign a d).take 20 = a.toList := by
    rw [symbolicSign, List.append_assoc, List.take_append_of_le_length (by simp),
      List.take_of_length_le (by simp)]
  rw [symbolic]
  simp only [hlen, hdigest, hsigner, and_self, if_true, Bytes.ofList?_toList]

end Crypto

end Flodex
