import Flodex.Foundations.Bytes

/-!
# The keys of a node

Both keypairs of a node are determined by a seed of 32 bytes. Every seed is an X25519 secret; a
seed of an identity has to be a scalar of secp256k1, which is then its secret key.
-/

namespace Flodex

/-- `KEY_SIZE`. -/
def keySize : ℕ := 32

/-- The order of secp256k1. -/
def secp256k1Order : ℕ := 0xFFFFFFFFFFFFFFFFFFFFFFFFFFFFFFFEBAAEDCE6AF48A03BBFD25E8CD0364141

/-- The seed is the secret key of an identity. -/
def IsScalar (seed : Bytes keySize) : Prop :=
  0 < beNat seed.toList ∧ beNat seed.toList < secp256k1Order

instance (seed : Bytes keySize) : Decidable (IsScalar seed) := inferInstanceAs (Decidable (_ ∧ _))

@[ext] structure NodeKeys where
  seed : Bytes keySize
  deriving DecidableEq

@[ext] structure NodeIdentity where
  seed : Bytes keySize
  isScalar : IsScalar seed
  deriving DecidableEq

def NodeKeys.fromSeed (seed : Bytes keySize) : NodeKeys := ⟨seed⟩

/-- The identity of a seed, if it is a scalar. -/
def NodeIdentity.fromSeed (seed : Bytes keySize) : Option NodeIdentity :=
  if h : IsScalar seed then some ⟨seed, h⟩ else none

theorem NodeIdentity.fromSeed_eq_some {seed : Bytes keySize} {identity : NodeIdentity} :
    fromSeed seed = some identity ↔ identity.seed = seed := by
  unfold fromSeed
  split_ifs with h
  · rw [Option.some.injEq, NodeIdentity.ext_iff, eq_comm]
  · simp only [false_iff]
    rintro rfl
    exact h identity.isScalar

end Flodex
