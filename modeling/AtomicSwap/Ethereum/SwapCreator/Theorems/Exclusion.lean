import AtomicSwap.Ethereum.SwapCreator.Theorems.Custody

open Reentrant Function

namespace Ethereum.SwapCreator

variable {d : Deployment} {block : Block} {s : State} {sw : Swap} {x y : Bytes32} {v : Uint256}

-- The code gets past all of its checks: it returns, or reaches the transfer of an asset.
def Passes (m : M Unit) (s : State) : Prop :=
  ∀ e, m s ≠ .revert (.custom e)

-- Nothing has to be known about the code that a transfer calls, so no reply to it is considered.
theorem passes_iff_wp {m : M Unit} :
    Passes m s ↔
    Code.wp (fun _ _ => False) m (fun _ _ => True) (fun e => ∀ k, e ≠ .custom k) s := by
  simp only [Passes, Code.wp]
  cases m s <;> simp [Tree.Sat]

theorem check_iff {p q : Prop} {e : Error} :
    (p → ∀ k, Revert.custom e ≠ .custom k) ∧ (¬p → q) ↔ ¬p ∧ q := by
  by_cases h : p <;> simp [h]

theorem wp_pay {id : Bytes32} {asset dst : Address} :
    Code.wp (fun _ _ => False) (pay d id asset dst v) (fun _ _ => True)
      (fun e => ∀ k, e ≠ .custom k) s := by
  simp [pay]

theorem claim_passes_iff :
    Passes (claim d block ⟨sw.claimer, v⟩ sw x) s ↔
    (s.swaps <| swapID d sw).IsOpen ∧
    (sw.timeout1 ≤ block.timestamp ∨ s.swaps (swapID d sw) = .ready) ∧
    block.timestamp < sw.timeout2 ∧ Secp256k1.mulVerify d.host x sw.claimCommitment := by
  simp only [passes_iff_wp, claim, _claim, checkClaim, verifySecret, emit, setStage, Code.wp_bind,
    Code.wp_get, Code.wp_revertIf, Code.wp_modify, wp_pay, check_iff, Stage.isOpen_iff]
  simp [and_assoc, imp_iff_not_or]

theorem refund_passes_iff :
    Passes (refund d block ⟨sw.owner, v⟩ sw y) s ↔
    (s.swaps <| swapID d sw).IsOpen ∧
    (sw.timeout2 ≤ block.timestamp ∨
      block.timestamp ≤ sw.timeout1 ∧ s.swaps (swapID d sw) ≠ .ready) ∧
    Secp256k1.mulVerify d.host y sw.refundCommitment := by
  simp only [passes_iff_wp, refund, checkRefund, verifySecret, emit, setStage, Code.wp_bind,
    Code.wp_get, Code.wp_revertIf, Code.wp_modify, wp_pay, check_iff, Stage.isOpen_iff]
  simp [and_assoc, imp_iff_not_or]

-- A swap can be claimed and refunded at the same time in one case only: the comparisons of both
-- functions include the first timeout, and until the swap is ready nothing else tells them apart.
theorem claim_refund_exclusion_iff {txs : List (Block × Act Call)}
    {balances : Ledger Address Address}
    (h : ∀ tx ∈ txs, tx.snd.All (d.this ∉ Call.senders ·))
    (hs : s = runTxs (step d) txs (.deployed balances))
    (hc : s.swapOf (swapID d sw) = some sw)
    (hx : Secp256k1.mulVerify d.host x sw.claimCommitment)
    (hy : Secp256k1.mulVerify d.host y sw.refundCommitment) :
    ¬(Passes (claim d block ⟨sw.claimer, 0⟩ sw x) s ∧
      Passes (refund d block ⟨sw.owner, 0⟩ sw y) s) ↔
    ¬(s.swaps (swapID d sw) = .pending ∧ block.timestamp = sw.timeout1) := by
  have h : ∀ tx ∈ txs, tx.snd.All (Call.Admissible d Set.univ tx.fst) :=
    fun tx ht => h tx ht |>.mono fun _ hs => ⟨hs, fun _ _ => trivial⟩
  have he : Evolves d _ ∅ 0 (.deployed balances) s := hs ▸ runTxs_evolves h
  have ht := (he.wf.entry hc).valid.timeouts
  rw [claim_passes_iff, refund_passes_iff]
  cases hg : s.swaps (swapID d sw)
  all_goals simp [Stage.IsOpen, hx, hy]
  all_goals bv_omega

namespace Sample

def afterNewSwap : State :=
  runTxs (step deployment) created (.deployed funds)

theorem created_senders : ∀ tx ∈ created, tx.snd.All (deployment.this ∉ Call.senders ·) := by
  simp only [created, List.mem_singleton, forall_eq]
  exact .mk (by decide) (by simp)

theorem swapOf_afterNewSwap : afterNewSwap.swapOf (swapID deployment swap) = some swap := by
  decide +kernel

theorem verify_secrets :
    Secp256k1.mulVerify deployment.host 1 swap.claimCommitment ∧
    Secp256k1.mulVerify deployment.host 2 swap.refundCommitment := by
  decide

end Sample

theorem claim_refund_overlap :
    Passes (claim Sample.deployment ⟨1100⟩ ⟨Sample.swap.claimer, 0⟩ Sample.swap 1)
      Sample.afterNewSwap ∧
    Passes (refund Sample.deployment ⟨1100⟩ ⟨Sample.swap.owner, 0⟩ Sample.swap 2)
      Sample.afterNewSwap := by
  rw [claim_passes_iff, refund_passes_iff]
  decide +kernel

theorem claim_refund_exclusion_before :
    ¬(Passes (claim Sample.deployment ⟨1099⟩ ⟨Sample.swap.claimer, 0⟩ Sample.swap 1)
        Sample.afterNewSwap ∧
      Passes (refund Sample.deployment ⟨1099⟩ ⟨Sample.swap.owner, 0⟩ Sample.swap 2)
        Sample.afterNewSwap) := by
  have ⟨hx, hy⟩ := Sample.verify_secrets
  apply claim_refund_exclusion_iff Sample.created_senders rfl Sample.swapOf_afterNewSwap hx hy
    |>.mpr
  decide +kernel

end Ethereum.SwapCreator
