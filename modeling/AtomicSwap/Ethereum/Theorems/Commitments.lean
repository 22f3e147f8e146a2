import AtomicSwap.Ethereum.SwapCreator.Theorems.Secrets
import AtomicSwap.Ethereum.VaultManager.Theorems.Collateral

open Reentrant

namespace Ethereum.Secp256k1

variable {host : Host} {pubKeyHash : ℕ → Bytes32}

-- A commitment is opened by the secret of its point only, exactly if it is not the commitment whose
-- last 160 bits are the address that stands for a failure.
theorem opened_by_secret_iff (h : Recovers host pubKeyHash) (c : Bytes32) :
    (∀ s, mulVerify host s c →
      ¬m.toNat ∣ s.toNat ∧ c.setWidth 160 = (pubKeyHash (s.toNat % m.toNat)).setWidth 160) ↔
    c.setWidth 160 ≠ 0 := by
  simp only [mulVerify, ecrecover_mulmod h, beq_iff_eq, Nat.dvd_iff_mod_eq_zero]
  constructor
  case mp =>
    intro ho hc
    exact (ho 0 hc).left rfl
  case mpr =>
    intro hc s hv
    split at hv
    case isTrue     => exact absurd hv hc
    case isFalse hs => exact ⟨hs, hv⟩

theorem opened_by_secret_iff_pubKeyHash :
    let host := SwapCreator.Sample.host
    let c := SwapCreator.Sample.pubKeyHash 1
    mulVerify host 1 c ∧ ∀ s, mulVerify host s c → ¬m.toNat ∣ s.toNat :=
  ⟨by decide, fun s hs =>
    ((opened_by_secret_iff SwapCreator.Sample.recovers _).mpr (by decide) s hs).left⟩

namespace Sample

-- The address in this commitment is zero.
def noPoint : Bytes32 := 2 ^ 160

def newSwap : SwapCreator.Call :=
  .newSwap ⟨SwapCreator.Sample.swap.owner, 5⟩ noPoint noPoint 0xB0B 100 100 native 5 0

open VaultManager.Sample

def vaults : VaultManager.Deployment :=
  { deployment with host := SwapCreator.Sample.host }

-- A mint is finalized with the secret zero, and its tokens are burned.
def mintAndBurn : List (VaultManager.Block × VaultManager.Call) :=
  [(blockAt 1000 1, .createVault ⟨provider, 0⟩ native),
   (blockAt 1000 1, .depositCollateral ⟨provider, 300 * 10 ^ 18⟩ (300 * 10 ^ 18)),
   (blockAt 1000 1, .initiateMint ⟨user, 0⟩ provider (10 ^ 12) noPoint 3600),
   (blockAt 1012 2, .setMintReady ⟨provider, 0⟩ 0),
   (blockAt 1012 2, .finalizeMint ⟨user, 0⟩ 0 0),
   (blockAt 1024 3, .initiateBurn ⟨user, 0⟩ (10 ^ 7) provider noPoint)]

end Sample

-- All three functions accept a commitment that the number zero opens.
theorem opened_by_zero :
    Recovers SwapCreator.Sample.host SwapCreator.Sample.pubKeyHash ∧
    mulVerify SwapCreator.Sample.host 0 Sample.noPoint ∧
    (exec (SwapCreator.step SwapCreator.Sample.deployment ⟨1000⟩) ⟨Sample.newSwap, []⟩
      (.deployed SwapCreator.Sample.funds)).isOk ∧
    (VaultManager.runCalls Sample.vaults (fun _ _ _ => true) Sample.mintAndBurn
      VaultManager.Sample.initial).isSome :=
  ⟨SwapCreator.Sample.recovers, by decide +kernel, by decide +kernel, by decide +kernel⟩

end Ethereum.Secp256k1
