import AtomicSwap.Crypto.Monero.Keys

-- Proofs that a point on the ed25519 curve and a point on the secp256k1 curve have the same
-- logarithm.
namespace DLEq

-- A copy into an array of 32 bytes.
def copy32 (bs : List UInt8) : List UInt8 :=
  (bs ++ List.replicate 32 0).take 32

-- A proof as the one who made it has it. The secret `x` is in little endian.
structure Proof where
  x     : List UInt8
  proof : List UInt8
  deriving DecidableEq

def Proof.secret (p : Proof) : List UInt8 :=
  copy32 p.x.reverse

variable (C : Monero.Curve)

structure VerifyResult where
  ed25519Pub   : Monero.PublicKey C
  secp256k1Pub : PublicKey

-- What the library for the proofs offers, where `secp256k1 n` is the point with the logarithm `n`.
structure Library where
  secp256k1       : ℕ → PublicKey
  newProof        : Monero.Scalar → List UInt8
  verify          : List UInt8 → Option (VerifyResult C)
  verify_newProof : ∀ x, verify (newProof x) = some ⟨⟨C.scalarBaseMult x⟩, secp256k1 x⟩

variable {C}

-- The library chooses the secret `x`.
def Library.prove (lib : Library C) (x : Monero.Scalar) : Proof where
  x     := x.bytes
  proof := lib.newProof x

theorem copy32_eq {bs : List UInt8} (h : bs.length = 32) : copy32 bs = bs := by
  simp [copy32, ← h]

theorem prove_secret (lib : Library C) (x : Monero.Scalar) :
    (lib.prove x).secret = Bytes.be 32 x := by
  simp [Proof.secret, Library.prove, Monero.Scalar.bytes, Bytes.be, copy32_eq]

end DLEq
