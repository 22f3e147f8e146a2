import AtomicSwap.Relayer.Theorems.Validated
import AtomicSwap.Ethereum.SwapCreator.Theorems.Exclusion
import AtomicSwap.Library.Reentrant.Visible

open Reentrant Code Function

namespace Ethereum.SwapCreator

variable {d : Deployment} {S : Set Swap} {block : Block} {s : State} {sw : Swap} {x y : Bytes32}
  {R : State → State → Prop} {Q : Unit → State → Prop} {E : Revert Error → Prop}

-- The refund secret of an open swap, in the time in which it can be refunded.
structure Refundable (d : Deployment) (block : Block) (s : State) (sw : Swap) (secret : Bytes32) :
    Prop where
  stage  : (s.swaps <| swapID d sw).IsOpen
  time   : sw.timeout2 ≤ block.timestamp ∨
    block.timestamp ≤ sw.timeout1 ∧ s.swaps (swapID d sw) ≠ .ready
  secret : Secp256k1.mulVerify d.host secret sw.refundCommitment

-- The swap is settled by one payment.
structure SettledTo (d : Deployment) (sw : Swap) (dst : Address) (s s' : State) : Prop where
  stage    : s'.swaps (swapID d sw) = .completed
  payouts  : s'.payouts (swapID d sw) = [(dst, sw.value.toNat)]
  balances : s'.balances = s.balances.move sw.asset d.this dst sw.value.toNat

theorem wp_checkRefund_of_refundable (hr : Refundable d block s sw y) :
    wp R (checkRefund d block ⟨sw.owner, 0⟩ sw y) Q E s ↔ Q () s := by
  obtain ⟨hi, hc⟩ := Stage.isOpen_iff.mp hr.stage
  have ht : ¬(block.timestamp < sw.timeout2 ∧
      (sw.timeout1 < block.timestamp ∨ s.swaps (swapID d sw) = .ready)) := by
    rintro ⟨hl, hg⟩
    have ht := hr.time
    obtain hg | hg := hg
    · bv_omega
    · exact ht.elim (BitVec.not_le.mpr hl ·) (·.right hg)
  simp [checkRefund, verifySecret, hi, hc, ht, hr.secret]

-- An asset that only moves by exact transfers is paid out if the contract has enough of it.
theorem pay_settles {dst : Address} {stage : Stage} {e : Event}
    (hu : s.payouts (swapID d sw) = [])
    (ha : d.Holds sw.asset) (hb : sw.value.toNat ≤ s.balances sw.asset d.this)
    (hd : dst ≠ d.this) (hs : stage = .completed) :
    wp R (pay d (swapID d sw) sw.asset dst sw.value) (fun _ => SettledTo d sw dst s)
      (fun _ => False) (s.mark (swapID d sw) stage e) := by
  have ha : sw.asset = native ∨ d.standard sw.asset := ha
  simp only [pay, wp_bind, wp_modify, wp_ite, wp_get, wp_revertIf, wp_handOver, State.mark]
  refine ⟨fun _ => ⟨fun hl => ?_, fun _ => ⟨fun hn => hd hn.right, fun _ => ?_⟩⟩,
    fun hn => absurd ha hn⟩
  · exact absurd hl (by simpa using hb)
  · exact ⟨by simp [hs], by simp [hu], rfl⟩

-- No other code is called then.
theorem pay_holds {id : Bytes32} {asset dst : Address} {value : Uint256} (ha : d.Holds asset) :
    holds (fun _ => False) (pay d id asset dst value) (fun _ _ => True) s := by
  have ha : asset = native ∨ d.standard asset := ha
  simp [pay, ha]

theorem claim_settles_open (hc : Claimable d block s sw x) (hu : s.payouts (swapID d sw) = [])
    (ha : d.Holds sw.asset) (hb : sw.value.toNat ≤ s.balances sw.asset d.this)
    (hd : sw.claimer ≠ d.this) (rs : List (Reply (Act Call))) :
    ∃ s', exec (step d block) ⟨.claim ⟨sw.claimer, 0⟩ sw x, rs⟩ s = .ok s' ∧
      SettledTo d sw sw.claimer s s' := by
  have hw : wp (fun _ _ => True) (step d block <| .claim ⟨sw.claimer, 0⟩ sw x)
      (fun _ => SettledTo d sw sw.claimer s) (fun _ => False) s := by
    simp only [step, nonpayable, claim, wp_bind, wp_revertIf, ne_eq, not_true_eq_false,
      false_imp_iff, true_imp_iff, true_and, not_false_eq_true, wp_claim_of_claimable hc]
    exact pay_settles hu ha hb hd rfl
  refine exec_ok_of_holds hw ?_
  simp only [step, nonpayable, claim, _claim, checkClaim, verifySecret, emit, setStage, holds_bind,
    holds_get, holds_modify, holds_revertIf, pay_holds ha, implies_true]

theorem refund_settles_open (hr : Refundable d block s sw y) (hu : s.payouts (swapID d sw) = [])
    (ha : d.Holds sw.asset) (hb : sw.value.toNat ≤ s.balances sw.asset d.this)
    (hd : sw.owner ≠ d.this) (rs : List (Reply (Act Call))) :
    ∃ s', exec (step d block) ⟨.refund ⟨sw.owner, 0⟩ sw y, rs⟩ s = .ok s' ∧
      SettledTo d sw sw.owner s s' := by
  have hw : wp (fun _ _ => True) (step d block <| .refund ⟨sw.owner, 0⟩ sw y)
      (fun _ => SettledTo d sw sw.owner s) (fun _ => False) s := by
    simp only [step, nonpayable, refund, wp_bind, wp_revertIf, ne_eq, not_true_eq_false,
      false_imp_iff, true_imp_iff, true_and, not_false_eq_true, wp_checkRefund_of_refundable hr]
    exact pay_settles (e := .refunded (swapID d sw) y) hu ha hb hd rfl
  refine exec_ok_of_holds hw ?_
  simp only [step, nonpayable, refund, checkRefund, verifySecret, emit, setStage, holds_bind,
    holds_get, holds_modify, holds_revertIf, pay_holds ha, implies_true]

-- There is no time at which an open swap is stuck.
theorem claimable_or_refundable (ho : (s.swaps <| swapID d sw).IsOpen)
    (hx : Secp256k1.mulVerify d.host x sw.claimCommitment)
    (hy : Secp256k1.mulVerify d.host y sw.refundCommitment) (block : Block) :
    Claimable d block s sw x ∨ Refundable d block s sw y := by
  by_cases ht : sw.timeout2 ≤ block.timestamp
  case pos => exact .inr ⟨ho, .inl ht, hy⟩
  case neg =>
    have ht := BitVec.not_le.mp ht
    by_cases hr : s.swaps (swapID d sw) = .ready
    case pos => exact .inl ⟨ho, .inr hr, ht, hx⟩
    case neg =>
      by_cases h₁ : block.timestamp ≤ sw.timeout1
      case pos => exact .inr ⟨ho, .inr ⟨h₁, hr⟩, hy⟩
      case neg => exact .inl ⟨ho, .inl (by bv_omega), ht, hx⟩

-- The contract holds the value of an open swap, and nobody has got any of it.
theorem funded_of_open {balances : Ledger Address Address} {txs : List (Block × Act Call)}
    (inj : CollisionFree d S) (h : ∀ tx ∈ txs, tx.snd.All (Call.Admissible d S tx.fst))
    (hs : s = runTxs (step d) txs (.deployed balances)) (hm : sw ∈ S) (ha : d.Holds sw.asset)
    (ho : (s.swaps <| swapID d sw).IsOpen) :
    s.payouts (swapID d sw) = [] ∧ sw.value.toNat ≤ s.balances sw.asset d.this := by
  have he : Evolves d S ∅ 0 (.deployed balances) s := hs ▸ runTxs_evolves h
  refine ⟨he.wf.unpaid_of_open ho, ?_⟩
  have hv := he.wf.sum_le_owed (T := {sw}) (a := sw.asset) inj (by simp [hm, ho])
  rw [Finset.sum_singleton] at hv
  exact hv.trans <| hs ▸ runTxs_solvent inj h ha

-- Whatever has happened so far, one of the two sides can end an open swap in the next block, and it
-- gets the whole value.
theorem open_swap_settles {balances : Ledger Address Address} {txs : List (Block × Act Call)}
    (inj : CollisionFree d S) (h : ∀ tx ∈ txs, tx.snd.All (Call.Admissible d S tx.fst))
    (hs : s = runTxs (step d) txs (.deployed balances))
    (hm : sw ∈ S) (ha : d.Holds sw.asset) (hd : sw.claimer ≠ d.this ∧ sw.owner ≠ d.this)
    (hx : Secp256k1.mulVerify d.host x sw.claimCommitment)
    (hy : Secp256k1.mulVerify d.host y sw.refundCommitment)
    (ho : (s.swaps <| swapID d sw).IsOpen) (block : Block) :
    (Claimable d block s sw x ∨ Refundable d block s sw y) ∧
    (Claimable d block s sw x → ∀ rs, ∃ s',
      exec (step d block) ⟨.claim ⟨sw.claimer, 0⟩ sw x, rs⟩ s = .ok s' ∧
      SettledTo d sw sw.claimer s s') ∧
    (Refundable d block s sw y → ∀ rs, ∃ s',
      exec (step d block) ⟨.refund ⟨sw.owner, 0⟩ sw y, rs⟩ s = .ok s' ∧
      SettledTo d sw sw.owner s s') := by
  obtain ⟨hu, hb⟩ := funded_of_open inj h hs hm ha ho
  exact ⟨claimable_or_refundable ho hx hy block,
    fun hc => claim_settles_open hc hu ha hb hd.left,
    fun hr => refund_settles_open hr hu ha hb hd.right⟩

theorem open_swap_settles_created :
    ∃ s', exec (step Sample.deployment ⟨1150⟩) ⟨.claim ⟨0xB0B, 0⟩ Sample.swap 1, []⟩
        Sample.afterNewSwap = .ok s' ∧
      s'.payouts (swapID Sample.deployment Sample.swap) = [(0xB0B, 5)] := by
  obtain ⟨hx, hy⟩ := Sample.verify_secrets
  have ha : ∀ tx ∈ Sample.created,
      tx.snd.All (Call.Admissible Sample.deployment {Sample.swap} tx.fst) :=
    fun tx ht => Sample.claimed_admissible tx <| List.mem_append_left _ ht
  have hp : Sample.afterNewSwap.swaps (swapID Sample.deployment Sample.swap) = .pending := by
    decide +kernel
  have hs : Sample.afterNewSwap =
      runTxs (step Sample.deployment) Sample.created (.deployed Sample.funds) := rfl
  generalize Sample.afterNewSwap = s at hp hs
  have ho : (s.swaps <| swapID Sample.deployment Sample.swap).IsOpen := by rw [hp]; trivial
  obtain ⟨_, hc, _⟩ := open_swap_settles (Set.injOn_singleton ..) ha hs (Set.mem_singleton _)
    (.inl rfl) (by decide) hx hy ho ⟨1150⟩
  obtain ⟨s', he, hp⟩ := hc ⟨ho, .inl (by decide), by decide, hx⟩ []
  exact ⟨s', he, hp.payouts⟩

end Ethereum.SwapCreator
