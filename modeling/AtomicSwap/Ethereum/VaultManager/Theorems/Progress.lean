import AtomicSwap.Ethereum.VaultManager.Theorems.Supply

open Reentrant Code Function

namespace Ethereum.VaultManager

variable {d : Deployment} {block : Block} {s : State} {id secret : Bytes32} {lp asset : Address}
  {amount : Uint256} {R : State → State → Prop} {E : Revert Error → Prop}

-- Between transactions: no call is running, and the contract owns what it owes.
structure Settled (d : Deployment) (s : State) : Prop where
  idle    : s.entered = false
  wf      : s.WF
  solvent : s.Solvent d

theorem Settled.le_balance (h : Settled d s) (ha : d.Holds asset) (lp : Address) (id : Bytes32) :
    (s.vaults lp).deposit asset + (s.burnRequests id).escrow s.vaults asset ≤
      s.balances asset d.this := by
  have hd := le_sum (fun lp => (s.vaults lp).deposit asset) lp
  have he := le_sum (fun id => (s.burnRequests id).escrow s.vaults asset) id
  exact (Nat.add_le_add hd he).trans (h.solvent ha)

theorem settled_of_run {owner tokenManager : Address} {totalSupply : Uint256}
    {balances : Ledger Address Address} {txs : List (Block × Act Call)}
    (h : ∀ tx ∈ txs, tx.snd.All (·.msg.sender ≠ d.this))
    (hs : s = runTxs (step d) txs (.constructed d owner tokenManager totalSupply balances)) :
    Settled d s := by
  have ht : Transition d (.constructed d owner tokenManager totalSupply balances) s :=
    hs ▸ runTxs_guarantees .refl (step_guarantees d) _ txs h constructed_wf
  refine ⟨ht.entered, ht.evolves.wf, fun {a} ha => ?_⟩
  have hc := ht.evolves.covers ha
  rw [constructed_owed] at hc
  simp only [Pi.zero_apply] at hc
  omega

theorem wp_step_of_nonpayable {c : Call} {Q : Unit → State → Prop}
    (hc : step d block c = nonpayable c.msg >>= fun _ => dispatch d block c)
    (hm : c.msg.value = 0) : wp R (step d block c) Q E s ↔ wp R (dispatch d block c) Q E s := by
  simp [hc, nonpayable, hm]

-- A guarded call can start between transactions.
theorem wp_nonReentrant {m : M Unit} {Q : Unit → State → Prop} (h : s.entered = false)
    (hw : wp R m (fun _ s' => Q () { s' with entered := false }) E { s with entered := true }) :
    wp R (nonReentrant m) Q E s := by
  simp only [nonReentrant, setEntered, wp_bind, wp_get, wp_revertIf, wp_modify, h,
    Bool.false_eq_true, false_imp_iff, not_false_eq_true, true_imp_iff, true_and]
  exact hw.mono (fun _ _ hq => by rwa [wp_modify]) fun _ he => he

-- Collateral that only moves by exact transfers is paid out if the contract has enough of it. What
-- the receiver does then is left open.
theorem wp_sendCollateral {dst : Address} {v : Uint256} {Q : Unit → State → Prop}
    (hr : ∀ s, R s s) (ha : d.Holds asset) (hb : v.toNat ≤ s.balances asset d.this)
    (hq : ∀ s', R { s with balances := s.balances.move asset d.this dst v.toNat } s' → Q () s') :
    wp R (sendCollateral d asset dst v) Q E s := by
  simp only [sendCollateral, wp_ite, wp_bind, wp_get, wp_revertIf, wp_modify, wp_handOver]
  refine ⟨?_, fun hn => ⟨fun _ => ⟨fun hl => absurd hb (by omega), fun _ => hq _ (hr _)⟩, ?_⟩⟩
  · rintro rfl
    exact ⟨fun hl => absurd hb (by omega), fun _ => hq⟩
  · exact fun hs => absurd (ha.resolve_left hn) hs

-- The escrow of a burn goes back to the vault.
structure Returned (id : Bytes32) (s s' : State) : Prop where
  status     : (s'.burnRequests id).status = .completed
  collateral : (s'.vaults (s.burnRequests id).lpVault).collateralAmount.toNat =
    (s.vaults (s.burnRequests id).lpVault).collateralAmount.toNat +
      (s.burnRequests id).escrowedCollateral.toNat

-- The collateral is paid out, and then the receiver may change the state by `R`.
def Pays (d : Deployment) (R : State → State → Prop) (asset dst : Address) (v : Uint256)
    (s s' : State) : Prop :=
  ∃ s₁ s₂, s₁.balances = s.balances.move asset d.this dst v.toNat ∧ R s₁ s₂ ∧
    s'.balances = s₂.balances

section Burn

variable (h : Settled d s) (hp : (s.burnRequests id).status = .pending)
include h hp

theorem sum_lt (ha : d.Holds (s.vaults (s.burnRequests id).lpVault).collateralAsset)
    (hb : s.balances (s.vaults (s.burnRequests id).lpVault).collateralAsset d.this < 2 ^ 256) :
    (s.vaults (s.burnRequests id).lpVault).collateralAmount.toNat +
      (s.burnRequests id).escrowedCollateral.toNat < 2 ^ 256 := by
  have hl := h.le_balance ha (s.burnRequests id).lpVault id
  simp only [Vault.deposit, BurnRequest.escrow, hp, and_self, if_true] at hl
  omega

theorem finalizeBurn_ok (sender : Address)
    (ht : block.timestamp < (s.burnRequests id).deadline)
    (hv : Secp256k1.mulVerify d.host secret (s.burnRequests id).refundCommitment)
    (hb : (s.vaults (s.burnRequests id).lpVault).collateralAmount.toNat +
      (s.burnRequests id).escrowedCollateral.toNat < 2 ^ 256) (rs : List (Reply (Act Call))) :
    ∃ s', exec (step d block) ⟨.finalizeBurn ⟨sender, 0⟩ id secret, rs⟩ s = .ok s' ∧
      Returned id s s' := by
  have hw : wp (fun _ _ => True) (step d block <| .finalizeBurn ⟨sender, 0⟩ id secret)
      (fun _ => Returned id s) (fun _ => False) s := by
    refine (wp_step_of_nonpayable rfl rfl).mpr <| wp_nonReentrant h.idle ?_
    simp only [verifySecret, addCollateral, setVault, setBurnRequest, emit, wp_bind, wp_get,
      wp_revertIf, wp_modify, wp_lift, hp, hv, Uint256.add, Uint256.checked, hb, if_true, ne_eq,
      not_true_eq_false, false_imp_iff, true_imp_iff, true_and, not_false_eq_true,
      BitVec.not_le.mpr ht]
    refine ⟨fun n hn => ⟨by simp, ?_⟩, by simp⟩
    obtain rfl := Except.ok.inj hn
    simpa using hb
  refine exec_ok_of_holds hw ?_
  simp only [step, nonpayable, dispatch, finalizeBurn, nonReentrant, setEntered, verifySecret,
    addCollateral, setVault, setBurnRequest, emit, holds_bind, holds_get, holds_modify,
    holds_revertIf, holds_lift, implies_true]

theorem wp_claimSlashedCollateral (hr : ∀ s, R s s)
    (ha : d.Holds (s.vaults (s.burnRequests id).lpVault).collateralAsset)
    (ht : (s.burnRequests id).deadline ≤ block.timestamp) :
    wp R (step d block <| .claimSlashedCollateral ⟨(s.burnRequests id).user, 0⟩ id)
      (fun _ s' => (s'.burnRequests id).status = .slashed ∧
        Pays d R (s.vaults (s.burnRequests id).lpVault).collateralAsset (s.burnRequests id).user
          (s.burnRequests id).escrowedCollateral s s') (fun _ => False) s := by
  have hb := (Nat.le_add_left ..).trans <| h.le_balance ha (s.burnRequests id).lpVault id
  refine (wp_step_of_nonpayable rfl rfl).mpr <| wp_nonReentrant h.idle ?_
  simp only [setBurnRequest, emit, wp_bind, wp_get, wp_revertIf, hp, ne_eq,
    not_true_eq_false, false_imp_iff, true_imp_iff, true_and, not_false_eq_true,
    BitVec.not_lt.mpr ht]
  refine wp_sendCollateral hr ha ?_ fun s' hs => ?_
  · simpa [BurnRequest.escrow, hp] using hb
  · simp only [wp_bind, wp_get, wp_modify, update_self, true_and]
    exact ⟨_, s', rfl, hs, rfl⟩

end Burn

-- Prices do not matter for a vault without debt.
theorem wp_withdrawCollateral (h : Settled d s) (hr : ∀ s, R s s) (hv : (s.vaults lp).active)
    (hd : (s.vaults lp).debtAmount = 0) (ha : d.Holds (s.vaults lp).collateralAsset)
    (hn : amount ≠ 0) (hm : amount ≤ (s.vaults lp).collateralAmount) :
    wp R (step d block <| .withdrawCollateral ⟨lp, 0⟩ amount)
      (fun _ s' => True ∧ Pays d R (s.vaults lp).collateralAsset lp amount s s')
      (fun _ => False) s := by
  have hb := (Nat.le_add_right ..).trans <| h.le_balance ha lp 0
  refine (wp_step_of_nonpayable rfl rfl).mpr <| wp_nonReentrant h.idle ?_
  simp only [checkWithdrawal, setVault, emit, wp_bind, wp_get, wp_revertIf, wp_lift, hv, hd, hn,
    BitVec.not_lt.mpr hm, Uint256.sub, hm, if_true, false_imp_iff, true_imp_iff, true_and,
    not_false_eq_true, not_true_eq_false]
  refine ⟨fun a _ => ?_, by simp⟩
  rw [if_neg (BitVec.lt_irrefl _), wp_pure, wp_bind, wp_modify, wp_bind]
  refine wp_sendCollateral hr ha ?_ fun s' hs => ?_
  · exact (BitVec.le_def.mp hm).trans (by simpa [Vault.deposit] using hb)
  · simp only [wp_modify]
    exact ⟨_, s', rfl, hs, rfl⟩

-- A call that pays out succeeds, whatever else the receiver does before it accepts the payment. A
-- receiver that only takes the payment has it in the end.
theorem exec_pays {c : Call} {dst : Address} {v : Uint256} {P : State → Prop}
    (hw : ∀ {R : State → State → Prop}, (∀ s, R s s) →
      wp R (step d block c) (fun _ s' => P s' ∧ Pays d R asset dst v s s') (fun _ => False) s)
    {rs : List (Reply (Act Call))} (hr : ∀ r ∈ rs, r.accepts) :
    ∃ s', exec (step d block) ⟨c, rs⟩ s = .ok s' ∧ P s' ∧
      (rs = [] → s'.balances = s.balances.move asset d.this dst v.toNat) := by
  have hx : ∃ s', exec (step d block) ⟨c, rs⟩ s = .ok s' ∧ P s' ∧ Pays d _ asset dst v s s' :=
    exec_ok_wp (hw fun _ => trivial) hr
  obtain ⟨s', he, hp, -⟩ := hx
  refine ⟨s', he, hp, ?_⟩
  rintro rfl
  obtain ⟨-, s₁, s₂, h₁, rfl, h₂⟩ := exec_nil_wp (hw fun _ => rfl) he
  exact h₂.trans h₁

-- Whatever has happened so far, no collateral is stuck. The escrow of a burn can be released at any
-- time: with the secret until the deadline, and from then on to the user, if the user accepts it. A
-- vault without debt can be emptied at any price by a provider that accepts the collateral.
theorem collateral_released {owner tokenManager : Address} {totalSupply : Uint256}
    {balances : Ledger Address Address} {txs : List (Block × Act Call)}
    (h : ∀ tx ∈ txs, tx.snd.All (·.msg.sender ≠ d.this))
    (hs : s = runTxs (step d) txs (.constructed d owner tokenManager totalSupply balances))
    (block : Block) (rs : List (Reply (Act Call))) :
    (∀ id, let r := s.burnRequests id
      let asset := (s.vaults r.lpVault).collateralAsset
      r.status = .pending → d.Holds asset → s.balances asset d.this < 2 ^ 256 →
      (block.timestamp < r.deadline ∧ ∀ sender secret,
        Secp256k1.mulVerify d.host secret r.refundCommitment →
        ∃ s', exec (step d block) ⟨.finalizeBurn ⟨sender, 0⟩ id secret, rs⟩ s = .ok s' ∧
          Returned id s s') ∨
      (r.deadline ≤ block.timestamp ∧ ((∀ reply ∈ rs, reply.accepts) →
        ∃ s', exec (step d block) ⟨.claimSlashedCollateral ⟨r.user, 0⟩ id, rs⟩ s = .ok s' ∧
          (s'.burnRequests id).status = .slashed ∧
          (rs = [] → s'.balances = s.balances.move asset d.this r.user
            r.escrowedCollateral.toNat)))) ∧
    (∀ lp amount, let vault := s.vaults lp
      vault.active → vault.debtAmount = 0 → d.Holds vault.collateralAsset → amount ≠ 0 →
      amount ≤ vault.collateralAmount → (∀ reply ∈ rs, reply.accepts) →
      ∃ s', exec (step d block) ⟨.withdrawCollateral ⟨lp, 0⟩ amount, rs⟩ s = .ok s' ∧
        (rs = [] →
          s'.balances = s.balances.move vault.collateralAsset d.this lp amount.toNat)) := by
  have h : Settled d s := settled_of_run h hs
  constructor
  · intro id r asset hp ha hb
    by_cases ht : block.timestamp < r.deadline
    case neg =>
      have ht := BitVec.not_lt.mp ht
      exact .inr ⟨ht, exec_pays fun hr => wp_claimSlashedCollateral h hp hr ha ht⟩
    case pos =>
      exact .inl ⟨ht, fun sender secret hv =>
        finalizeBurn_ok h hp sender ht hv (sum_lt h hp ha hb) rs⟩
  · intro lp amount vault hv hd ha hn hm hr
    obtain ⟨s', he, -, hp⟩ := exec_pays (fun hr => wp_withdrawCollateral h hr hv hd ha hn hm) hr
    exact ⟨s', he, hp⟩

namespace Sample

theorem burned_senders : ∀ tx ∈ burned, tx.snd.All (·.msg.sender ≠ deployment.this) := by
  have single (c : Call) (h : c.msg.sender ≠ deployment.this) :
      Act.All (fun c : Call => c.msg.sender ≠ deployment.this) ⟨c, []⟩ := .mk h (by simp)
  simp only [burned, List.forall_mem_cons, List.not_mem_nil, false_imp_iff, implies_true, and_true]
  refine ⟨single _ ?_, single _ ?_, single _ ?_, single _ ?_, single _ ?_, .mk ?_ ?_⟩
  case refine_7 =>
    simp only [List.mem_singleton, forall_eq, Reply.acts]
    exact single _ (by decide)
  all_goals decide

end Sample

theorem collateral_released_burned :
    ∃ s', exec (step Sample.deployment <| Sample.blockAt 100000 9)
        ⟨.claimSlashedCollateral ⟨Sample.user, 0⟩ Sample.secondID, []⟩ Sample.afterBurn = .ok s' ∧
      (s'.burnRequests Sample.secondID).status = .slashed := by
  have hp : (Sample.afterBurn.burnRequests Sample.secondID).status = .pending := by decide
  have hu : (Sample.afterBurn.burnRequests Sample.secondID).user = Sample.user := by decide
  have ht : (Sample.afterBurn.burnRequests Sample.secondID).deadline ≤ 100000 := by decide
  have ha : (Sample.afterBurn.vaults
      (Sample.afterBurn.burnRequests Sample.secondID).lpVault).collateralAsset = native := by decide
  have hb : Sample.afterBurn.balances native Sample.deployment.this < 2 ^ 256 := by decide
  have hs : Sample.afterBurn = runTxs (step Sample.deployment) Sample.burned
      (.constructed Sample.deployment 0x72 Sample.deployment.this 0 Sample.funds) := rfl
  generalize Sample.afterBurn = s at hp hu ht ha hb hs ⊢
  obtain ⟨hl, -⟩ | ⟨-, hc⟩ := (collateral_released Sample.burned_senders hs
    (Sample.blockAt 100000 9) []).left Sample.secondID hp (.inl ha) (ha ▸ hb)
  · exact absurd hl (BitVec.not_lt.mpr ht)
  · obtain ⟨s', he, hs', -⟩ := hc (by simp)
    exact ⟨s', hu ▸ he, hs'⟩

end Ethereum.VaultManager
