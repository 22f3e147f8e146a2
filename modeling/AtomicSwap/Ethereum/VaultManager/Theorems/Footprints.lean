import AtomicSwap.Library.Reentrant.Frame
import AtomicSwap.Ethereum.VaultManager.Basic

open Reentrant Code Function

namespace Ethereum.VaultManager

variable {δ : Type} {g : State → δ} {d : Deployment} {block : Block} {msg : Msg}
  {lp asset src dst : Address} {id commitment secret : Bytes32} {n m : Uint256}

section Parts

-- A view `g` of the state is left as it is by all functions that only write what it ignores.
variable
  (hl : ∀ s l, g s = g { s with logs := l })
  (hb : ∀ s l, g s = g { s with balances := l })
  (he : ∀ s e, g s = g { s with entered := e })
  (hc : ∀ s lp n,
    g s = g { s with vaults := update s.vaults lp { s.vaults lp with collateralAmount := n } })
  (hv : ∀ s lp v, g s = g { s with vaults := update s.vaults lp v })
  (ht : ∀ s n l, g s = g { s with totalSupply := n, balances := l })
  (hi : ∀ s l, g s = g { s with vaultList := l })

include hl in
theorem emit_leaves {e : Event} : Leaves g (emit e) :=
  leaves_modify fun s => hl s _

include he in
theorem nonReentrant_leaves {m : M Unit} (hm : Leaves g m) : Leaves g (nonReentrant m) :=
  leaves_bind leaves_get fun _ => leaves_bind leaves_revertIf fun _ =>
    leaves_bind (leaves_modify fun s => he s _) fun _ => leaves_bind hm fun _ =>
    leaves_modify fun s => he s _

include hb in
theorem payable_leaves : Leaves g (payable d msg) :=
  leaves_bind leaves_get fun _ => leaves_bind leaves_revertIf fun _ => leaves_modify fun s => hb s _

include hb in
theorem safeTransferFrom_leaves : Leaves g (safeTransferFrom d asset src n) :=
  leaves_ite
    (leaves_bind leaves_get fun _ => leaves_bind leaves_revertIf fun _ =>
      leaves_modify fun s => hb s _)
    leaves_handOver

include hb in
theorem takeCollateral_leaves : Leaves g (takeCollateral d msg asset n) :=
  leaves_ite leaves_revertIf <| leaves_bind leaves_revertIf fun _ => safeTransferFrom_leaves hb

include hb in
theorem sendCollateral_leaves : Leaves g (sendCollateral d asset dst n) :=
  leaves_ite
    (leaves_bind leaves_get fun _ => leaves_bind leaves_revertIf fun _ =>
      leaves_bind (leaves_modify fun s => hb s _) fun _ => leaves_handOver)
    (leaves_ite
      (leaves_bind leaves_get fun _ => leaves_bind leaves_revertIf fun _ =>
        leaves_modify fun s => hb s _)
      leaves_handOver)

theorem requireRatio_leaves : Leaves g (requireRatio block asset n m) :=
  leaves_bind leaves_get fun _ => leaves_bind leaves_lift fun _ => leaves_revertIf

include hc in
theorem addCollateral_leaves : Leaves g (addCollateral lp n) :=
  leaves_bind leaves_get fun _ => leaves_bind leaves_lift fun _ => leaves_modify fun s => hc s ..

include hl hb he hc in
theorem depositCollateral_leaves : Leaves g (depositCollateral d msg n) :=
  nonReentrant_leaves he <| leaves_bind leaves_get fun _ => leaves_bind leaves_revertIf fun _ =>
    leaves_bind leaves_revertIf fun _ => leaves_bind (takeCollateral_leaves hb) fun _ =>
    leaves_bind (addCollateral_leaves hc) fun _ => emit_leaves hl

include hl hb he hc in
theorem withdrawCollateral_leaves : Leaves g (withdrawCollateral d block msg n) :=
  nonReentrant_leaves he <| leaves_bind leaves_get fun _ => leaves_bind leaves_revertIf fun _ =>
    leaves_bind leaves_revertIf fun _ => leaves_bind leaves_revertIf fun _ =>
    leaves_bind leaves_lift fun _ =>
    leaves_bind (leaves_ite requireRatio_leaves leaves_pure) fun _ =>
    leaves_bind (leaves_modify fun s => hc s ..) fun _ =>
    leaves_bind (sendCollateral_leaves hb) fun _ => emit_leaves hl

section Mint

variable (hm : ∀ s r, g s = g { s with mintRequests := update s.mintRequests id r })

include hl in
theorem initiateMint_leaves
    (hm : ∀ s r, g s = g { s with
      mintRequests := update s.mintRequests (requestID d block msg.sender lp n commitment) r }) :
    Leaves g (initiateMint d block msg lp n commitment m) :=
  leaves_bind leaves_get fun _ => leaves_bind leaves_revertIf fun _ =>
    leaves_bind leaves_revertIf fun _ => leaves_bind leaves_revertIf fun _ =>
    leaves_bind leaves_revertIf fun _ => leaves_bind leaves_lift fun _ =>
    leaves_bind leaves_lift fun _ => leaves_bind requireRatio_leaves fun _ =>
    leaves_bind leaves_revertIf fun _ => leaves_bind leaves_lift fun _ =>
    leaves_bind (leaves_modify fun s => hm s _) fun _ => leaves_bind (emit_leaves hl) fun _ =>
    leaves_pure

include hl hm in
theorem setMintReady_leaves : Leaves g (setMintReady msg id) :=
  leaves_bind leaves_get fun _ => leaves_bind leaves_revertIf fun _ =>
    leaves_bind leaves_revertIf fun _ => leaves_bind (leaves_modify fun s => hm s _) fun _ =>
    emit_leaves hl

include hl hm in
theorem cancelMint_leaves : Leaves g (cancelMint block msg id) :=
  leaves_bind leaves_get fun _ => leaves_bind leaves_revertIf fun _ =>
    leaves_bind leaves_revertIf fun _ => leaves_bind leaves_lift fun _ =>
    leaves_bind leaves_revertIf fun _ => leaves_bind (leaves_modify fun s => hm s _) fun _ =>
    emit_leaves hl

end Mint

section Burn

variable (hr : ∀ s r, g s = g { s with burnRequests := update s.burnRequests id r })

include hl he hc hr in
theorem finalizeBurn_leaves : Leaves g (finalizeBurn d block id secret) :=
  nonReentrant_leaves he <| leaves_bind leaves_get fun _ => leaves_bind leaves_revertIf fun _ =>
    leaves_bind leaves_revertIf fun _ => leaves_bind leaves_revertIf fun _ =>
    leaves_bind (addCollateral_leaves hc) fun _ =>
    leaves_bind (leaves_modify fun s => hr s _) fun _ => emit_leaves hl

include hl hb he hr in
theorem claimSlashedCollateral_leaves : Leaves g (claimSlashedCollateral d block msg id) :=
  nonReentrant_leaves he <| leaves_bind leaves_get fun _ => leaves_bind leaves_revertIf fun _ =>
    leaves_bind leaves_revertIf fun _ => leaves_bind leaves_revertIf fun _ =>
    leaves_bind (sendCollateral_leaves hb) fun _ => leaves_bind leaves_get fun _ =>
    leaves_bind (leaves_modify fun s => hr s _) fun _ => emit_leaves hl

end Burn

end Parts

-- The functions of the owner, and what others do with their assets.
def Call.isOther : Call → Bool
  | addCollateralSupport .. | removeCollateralSupport .. | transferOwnership ..
  | renounceOwnership .. | outside .. => true
  | _                                 => false

-- What no such call writes.
def State.fixed (s : State) :
    (Bytes32 → MintRequest) × (Bytes32 → BurnRequest) × (Address → Vault) × Bool × Address ×
    Uint256 :=
  (s.mintRequests, s.burnRequests, s.vaults, s.entered, s.tokenManager, s.totalSupply)

theorem dispatch_other_leaves {c : Call} (h : c.isOther) :
    Leaves State.fixed (dispatch d block c) := by
  have owner : Leaves State.fixed (onlyOwner c.msg) :=
    leaves_bind leaves_get fun _ => leaves_revertIf
  cases c
  case addCollateralSupport =>
    exact leaves_bind owner fun _ => leaves_bind leaves_revertIf fun _ =>
      leaves_bind (leaves_modify fun _ => rfl) fun _ => emit_leaves fun _ _ => rfl
  case removeCollateralSupport => exact leaves_bind owner fun _ => leaves_modify fun _ => rfl
  case transferOwnership =>
    exact leaves_bind owner fun _ => leaves_bind leaves_revertIf fun _ => leaves_modify fun _ => rfl
  case renounceOwnership => exact leaves_bind owner fun _ => leaves_modify fun _ => rfl
  case outside =>
    exact leaves_bind leaves_get fun _ => leaves_bind leaves_revertIf fun _ =>
      leaves_modify fun _ => rfl
  all_goals simp [Call.isOther] at h

theorem dispatch_manage_leaves
    (h : ∀ s a n, g s = g { s with tokenManager := a, totalSupply := n }) :
    Leaves g (dispatch d block <| .manage dst n) :=
  leaves_bind leaves_get fun _ => leaves_bind leaves_revertIf fun _ => leaves_modify fun s => h s ..

-- Before the function of a call runs, at most the balances change.
theorem step_leaves {c : Call} (hb : ∀ s l, g s = g { s with balances := l })
    (h : Leaves g (dispatch d block c)) : Leaves g (step d block c) := by
  simp only [step]
  split
  case h_1 => exact leaves_bind (payable_leaves hb) fun _ => h
  case h_2 => exact leaves_bind leaves_revertIf fun _ => h

def Call.isGuarded : Call → Bool
  | depositCollateral .. | withdrawCollateral .. | finalizeMint .. | finalizeBurn ..
  | claimSlashedCollateral .. | liquidate .. => true
  | _                                        => false

-- The mint request that a call is about.
def Call.mintID (d : Deployment) (block : Block) : Call → Option Bytes32
  | initiateMint msg lpVault xmrAmount claimCommitment _ =>
    requestID d block msg.sender lpVault xmrAmount claimCommitment
  | setMintReady _ requestId   => requestId
  | finalizeMint _ requestId _ => requestId
  | cancelMint _ requestId     => requestId
  | _                          => none

-- The burn request that a call is about.
def Call.burnID (d : Deployment) (block : Block) : Call → Option Bytes32
  | initiateBurn msg wsxmrAmount lpVault refundCommitment =>
    requestID d block msg.sender lpVault wsxmrAmount refundCommitment
  | finalizeBurn _ requestId _         => requestId
  | claimSlashedCollateral _ requestId => requestId
  | _                                  => none

variable {c : Call}

theorem nonReentrant_reverts {m : M Unit} {s : State} (he : s.entered) :
    nonReentrant m s = .revert (.custom .reentrantCall) := by
  simp [nonReentrant, Bind.bind, Code.get, revertIf, Tree.bind, he]

-- No guarded function runs while another one waits.
theorem dispatch_reverts {s : State} (hg : c.isGuarded) (he : s.entered) :
    dispatch d block c s = .revert (.custom .reentrantCall) := by
  cases c
  case depositCollateral      => exact nonReentrant_reverts he
  case withdrawCollateral     => exact nonReentrant_reverts he
  case finalizeMint           => exact nonReentrant_reverts he
  case finalizeBurn           => exact nonReentrant_reverts he
  case claimSlashedCollateral => exact nonReentrant_reverts he
  case liquidate              => exact nonReentrant_reverts he
  all_goals simp [Call.isGuarded] at hg

theorem step_reverts {s : State} (hg : c.isGuarded) (he : s.entered) :
    ∃ e, step d block c s = .revert e := by
  simp only [step]
  split
  case h_1 msg _ =>
    by_cases hb : s.balances native msg.sender < msg.value.toNat
    case pos => exact ⟨.callFailed, by simp [payable, Bind.bind, Code.get, revertIf, Tree.bind, hb]⟩
    case neg =>
      refine ⟨.custom .reentrantCall, ?_⟩
      simp only [payable, Bind.bind, Code.get, revertIf, Code.modify, Tree.bind, hb, if_false]
      exact dispatch_reverts hg he
  case h_2 =>
    by_cases hv : c.msg.value = 0
    case neg =>
      refine ⟨.notPayable, ?_⟩
      simp only [nonpayable, Bind.bind, revertIf, ne_eq, hv, not_false_eq_true, if_true, Tree.bind]
    case pos =>
      refine ⟨.custom .reentrantCall, ?_⟩
      simp only [nonpayable, Bind.bind, revertIf, Tree.bind, hv, ne_eq, not_true, if_false]
      exact dispatch_reverts hg he

end Ethereum.VaultManager
