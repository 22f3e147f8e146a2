import AtomicSwap.Ethereum.Basic
import Mathlib.Data.Set.Function

namespace Ethereum.Secp256k1

def gx : Uint256 := 0x79BE667EF9DCBBAC55A06295CE870B07029BFCDB2DCE28D959F2815B16F81798#256

-- The order of the group that `G = (gx, gy)` generates.
def m : Uint256 := 0xFFFFFFFFFFFFFFFFFFFFFFFFFFFFFFFEBAAEDCE6AF48A03BBFD25E8CD0364141#256

def mulmod (a b n : Uint256) : Uint256 :=
  if n = 0 then 0 else .ofNat 256 (a.toNat * b.toNat % n.toNat)

-- Checks that `Q = scalar * G`, where `qKeccak` is the Keccak-256 hash of `Q`. Only the 160 bits
-- that form an address are compared.
def mulVerify (host : Host) (scalar qKeccak : Uint256) : Bool :=
  let qRes := host.ecrecover 0 27 gx (mulmod scalar gx m)
  qKeccak.setWidth 160 == qRes

-- The inverse of `gx` modulo `m`.
def gxInv : ℕ := 0x1dd887b3eaf153260a95e8b9fd31f60ac115d26ccbe1f572c0b8d7a6dec520fe

-- What `ecrecover` computes on the arguments that `mulVerify` gives to it, where `pubKeyHash k` is
-- the Keccak-256 hash of the point `k * G`. The last 160 bits of this hash are an address.
structure Recovers (host : Host) (pubKeyHash : ℕ → Bytes32) : Prop where
  recover : ∀ t : Bytes32, 0 < t.toNat → t.toNat < m.toNat →
    host.ecrecover 0 27 gx t = (pubKeyHash (t.toNat * gxInv % m.toNat)).setWidth 160
  zero    : host.ecrecover 0 27 gx 0 = 0

variable {host : Host} {pubKeyHash : ℕ → Bytes32} {s : Uint256} {x : ℕ}

theorem mul_gx_gxInv (n : ℕ) : n * gx.toNat % m.toNat * gxInv % m.toNat = n % m.toNat := by
  have h : gx.toNat * gxInv % m.toNat = 1 := by decide
  rw [Nat.mod_mul_mod, Nat.mul_assoc, Nat.mul_mod, h, Nat.mul_one, Nat.mod_mod]

theorem toNat_mulmod : (mulmod s gx m).toNat = s.toNat * gx.toNat % m.toNat := by
  have hm : m ≠ 0 := by decide
  have hl : s.toNat * gx.toNat % m.toNat < 2 ^ 256 :=
    (Nat.mod_lt _ <| by decide).trans m.isLt
  rw [mulmod, if_neg hm, BitVec.toNat_ofNat, Nat.mod_eq_of_lt hl]

theorem mulmod_gxInv : (mulmod s gx m).toNat * gxInv % m.toNat = s.toNat % m.toNat := by
  rw [toNat_mulmod, mul_gx_gxInv]

-- What is compared with a commitment.
theorem ecrecover_mulmod (h : Recovers host pubKeyHash) :
    host.ecrecover 0 27 gx (mulmod s gx m) =
      if s.toNat % m.toNat = 0 then 0 else (pubKeyHash (s.toNat % m.toNat)).setWidth 160 := by
  split
  case isTrue hs =>
    have hz : mulmod s gx m = 0 := by
      apply BitVec.eq_of_toNat_eq
      rw [toNat_mulmod, Nat.mul_mod, hs, Nat.zero_mul]
      rfl
    rw [hz, h.zero]
  case isFalse hs =>
    have hp : 0 < (mulmod s gx m).toNat := by
      apply Nat.pos_of_ne_zero
      intro h₀
      have hi := mulmod_gxInv (s := s)
      rw [h₀, Nat.zero_mul, Nat.zero_mod] at hi
      exact hs hi.symm
    have hl : (mulmod s gx m).toNat < m.toNat := by
      rw [toNat_mulmod]
      exact Nat.mod_lt _ <| by decide
    rw [h.recover _ hp hl, mulmod_gxInv]

-- Below the order of the group only the secret that was committed to is accepted, unless two points
-- in question have the same address.
theorem eq_of_mulVerify {K : Set ℕ} (h : Recovers host pubKeyHash)
    (inj : K.InjOn fun k => (pubKeyHash k).setWidth 160) (hx : x ∈ K) (hk : s.toNat ∈ K)
    (hs : 0 < s.toNat ∧ s.toNat < m.toNat) (hv : mulVerify host s (pubKeyHash x)) :
    s.toNat = x := by
  have hm : s.toNat % m.toNat = s.toNat := Nat.mod_eq_of_lt hs.right
  simp only [mulVerify, ecrecover_mulmod h, hm, if_neg hs.left.ne', beq_iff_eq] at hv
  exact (inj hx hk hv).symm

end Ethereum.Secp256k1
