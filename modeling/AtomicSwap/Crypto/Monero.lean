import AtomicSwap.Library.Bytes

namespace Monero

-- The order of the prime order subgroup of the ed25519 curve.
def l : ℕ := 2 ^ 252 + 27742317777372353535851937790883648493

abbrev Scalar := Fin l

inductive KeyError
  | invalidInput     -- errInvalidInput
  | invalidEncoding  -- the bytes are not a canonical scalar
  deriving DecidableEq

def privateKeySize : ℕ := 32

def Scalar.setCanonicalBytes (bs : List UInt8) : Except KeyError Scalar :=
  if h : bs.length = 32 ∧ Bytes.leValue bs < l then .ok ⟨_, h.right⟩ else .error .invalidEncoding

structure PrivateSpendKey where
  key : Scalar
  deriving DecidableEq

def newPrivateSpendKey (b : List UInt8) : Except KeyError PrivateSpendKey := do
  if b.length ≠ privateKeySize then
    throw .invalidInput
  let sk ← Scalar.setCanonicalBytes b
  return { key := sk }

theorem newPrivateSpendKey_le_eq_ok {n : ℕ} {x : Scalar} (h : n < 256 ^ 32) :
    newPrivateSpendKey (Bytes.le 32 n) = .ok ⟨x⟩ ↔ n = x := by
  have hv : Bytes.leValue (Bytes.le 32 n) = n := by rw [Bytes.leValue_le, Nat.mod_eq_of_lt h]
  by_cases hl : n < l
  case pos =>
    simp [newPrivateSpendKey, privateKeySize, Scalar.setCanonicalBytes, hv, hl, Fin.ext_iff, bind,
      Except.bind, pure, Except.pure]
  case neg =>
    have hn : n ≠ x := fun hn => hl <| hn ▸ x.isLt
    simp [newPrivateSpendKey, privateKeySize, Scalar.setCanonicalBytes, hv, hl, hn, bind,
      Except.bind]

end Monero
