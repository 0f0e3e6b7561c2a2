import Mathlib.Data.UInt

/-! The interface of a detached signature scheme with 32-byte public keys and 64-byte signatures,
which is what Ed25519 offers: a signature made with a secret verifies under its public key. -/

namespace Kit

structure SignatureScheme where
  Secret : Type
  publicKey : Secret → List UInt8
  sign : Secret → List UInt8 → List UInt8
  verify : (key message signature : List UInt8) → Bool
  publicKey_length : ∀ secret, (publicKey secret).length = 32
  sign_length : ∀ secret message, (sign secret message).length = 64
  verify_sign : ∀ secret message,
    verify (publicKey secret) message (sign secret message) = true

namespace SignatureScheme

/-- The last 64 bytes of a message, padded in front and shifted by the key's first byte. -/
def tag (key message : List UInt8) : List UInt8 :=
  ((List.replicate 64 0 ++ message).reverse.take 64).map (· + key.headD 0)

/-- A scheme of the right shape and no security, to evaluate runs with. -/
def sample : SignatureScheme where
  Secret := UInt8
  publicKey secret := List.replicate 32 secret
  sign secret message := tag (List.replicate 32 secret) message
  verify key message signature := decide (signature = tag key message)
  publicKey_length secret := List.length_replicate
  sign_length secret message := by simp [tag]
  verify_sign secret message := decide_eq_true rfl

end SignatureScheme

end Kit
