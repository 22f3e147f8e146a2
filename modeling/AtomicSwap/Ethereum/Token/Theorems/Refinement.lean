import AtomicSwap.Ethereum.SwapCreator.Basic
import AtomicSwap.Ethereum.Token.Safe
import AtomicSwap.Ethereum.Token.Theorems.Allowances
import AtomicSwap.Ethereum.VaultManager.Basic
import AtomicSwap.Library.Reentrant.Returns

open Function Machine Reentrant.Code

namespace Ethereum.Token

variable {t t' : ERC20} {l : Ledger Address Address} {tok src dst : Address} {v : Uint256}

-- The ledger that the other contracts are modelled with shows the balances of the token.
def Views (tok : Address) (t : ERC20) (l : Ledger Address Address) : Prop :=
  ∀ a, l tok a = (t.balances a).toNat

namespace Views

theorem put (h : Views tok t l) {a : Address} (ha : t'.balances = update t.balances a v) :
    Views tok t' (l.put tok a v.toNat) := by
  intro b
  by_cases hb : b = a
  case pos => subst hb; simp [ha]
  case neg => rw [Ledger.put_of_holder_ne hb, ha, update_of_ne hb, h b]

theorem transfer (h : Views tok t l) (hs : t.Supplied) (ht : t._transfer src dst v = .ok t') :
    Views tok t' (l.move tok src dst v.toNat) := by
  obtain ⟨_, _, hv, rfl⟩ := ERC20._transfer_eq_ok.mp ht
  have hsub : (t.balances src - v).toNat = l tok src - v.toNat := by rw [h src]; bv_omega
  have h₁ : Views tok { t with balances := update t.balances src (t.balances src - v) }
      (l.put tok src (l tok src - v.toNat)) := hsub ▸ h.put rfl
  have hadd := ERC20.toNat_add (a := dst) (hs.fits hv)
  rw [← h₁ dst] at hadd
  simp only [Ledger.move, ← hadd]
  exact h₁.put rfl

theorem mint (h : Views tok t l) (hs : t.Supplied) (hm : t._mint dst v = .ok t') :
    Views tok t' (l.put tok dst (l tok dst + v.toNat)) := by
  obtain ⟨_, n, hn, rfl⟩ := ERC20._mint_eq_ok.mp hm
  have hv : ERC20.total t.balances + v.toNat < 2 ^ 256 := by rw [hs.sum, ← hn]; exact n.isLt
  have hadd := ERC20.toNat_add (a := dst) hv
  rw [← h dst] at hadd
  exact hadd ▸ h.put rfl

theorem burn (h : Views tok t l) (hb : t._burn src v = .ok t') :
    Views tok t' (l.put tok src (l tok src - v.toNat)) := by
  obtain ⟨_, hv, rfl⟩ := ERC20._burn_eq_ok.mp hb
  have hsub : (t.balances src - v).toNat = l tok src - v.toNat := by rw [h src]; bv_omega
  exact hsub ▸ h.put rfl

theorem not_lt_iff (h : Views tok t l) (src : Address) (v : Uint256) :
    ¬l tok src < v.toNat ↔ v ≤ t.balances src := by
  rw [h src, Nat.not_lt]
  exact Iff.rfl

end Views

variable {this sender spender : Address}

-- A token that is called by the account that owns the tokens only checks the balance.
theorem transfer_isOk_iff (ht : this ≠ 0) (hd : dst ≠ 0) :
    (∃ t', t.transfer this dst v = .ok t') ↔ v ≤ t.balances this := by
  simp only [ERC20.transfer, ERC20._transfer_eq_ok, ht, hd, ne_eq, not_false_eq_true, true_and,
    exists_and_left, exists_eq', and_true]

-- What the spender may take.
def ERC20.Allows (t : ERC20) (owner spender : Address) (v : Uint256) : Prop :=
  t.allowances owner spender = .allOnes 256 ∨ v ≤ t.allowances owner spender

theorem transferFrom_isOk_iff (hs : src ≠ 0) (hp : spender ≠ 0) (hd : dst ≠ 0) :
    (∃ t', t.transferFrom spender src dst v = .ok t') ↔
    t.Allows src spender v ∧ v ≤ t.balances src := by
  simp only [ERC20.transferFrom, Except.bind_ok_iff, ERC20._transfer_eq_ok, ERC20.Allows,
    ERC20._spendAllowance_eq_ok, ERC20._approve_eq_ok, hs, hp, hd, ne_eq, not_false_eq_true,
    true_and]
  constructor
  case mp =>
    rintro ⟨t', u, ⟨ha, rfl⟩ | ⟨_, ha, rfl⟩, hv, _⟩
    · exact ⟨.inl ha, hv⟩
    · exact ⟨.inr ha, hv⟩
  case mpr =>
    rintro ⟨ha, hv⟩
    by_cases hm : t.allowances src spender = .allOnes 256
    case pos => exact ⟨_, t, .inl ⟨hm, rfl⟩, hv, rfl⟩
    case neg => exact ⟨_, _, .inr ⟨hm, ha.resolve_left hm, rfl⟩, hv, rfl⟩

theorem transferFrom_views (hs : t.Supplied) (h : Views tok t l)
    (ht : t.transferFrom spender src dst v = .ok t') :
    v ≤ t.balances src ∧ Views tok t' (l.move tok src dst v.toNat) := by
  obtain ⟨u, ha, ht⟩ := Except.bind_ok_iff.mp ht
  have hb : u.balances = t.balances := (ERC20.core_spendAllowance ha).left
  have hu : Views tok u l := fun a => hb ▸ h a
  obtain ⟨_, _, hv, _⟩ := ERC20._transfer_eq_ok.mp ht
  exact ⟨hb ▸ hv, hu.transfer (hs.spendAllowance ha) ht⟩

-- A call of the token and the step that stands for it in the model of its caller succeed under the
-- same condition, and if they do then the ledger still shows the balances.
structure Simulates {σ ε ε' : Type} (tok : Address) (ledger : σ → Ledger Address Address)
    (p : Prop) (call : Except ε' ERC20) (step : Reentrant.Tree σ ε Unit) : Prop where
  succeeds : (∃ t', call = .ok t') ↔ p ∧ ∃ s', step = .ret () s'
  views    : ∀ t' s', call = .ok t' → step = .ret () s' → Views tok t' (ledger s')

section Simulates

variable {σ ε : Type} {revertData : Revert Error → List UInt8} {e : ε} {s' : σ}
  {ledger : σ → Ledger Address Address} {step : Reentrant.Tree σ ε Unit}

theorem ret_isOk_iff {p : Prop} [Decidable p]
    (hs : step = if p then .revert e else .ret () s') : (∃ s, step = .ret () s) ↔ ¬p := by
  by_cases h : p <;> simp [hs, h]

variable (hs : t.Supplied) (hv : Views tok t l)
include hs hv

theorem safeTransferFrom_simulates (hsrc : src ≠ 0) (ht : this ≠ 0)
    (hstep : step = if l tok src < v.toNat then .revert e else .ret () s')
    (hl : ledger s' = l.move tok src this v.toNat) :
    Simulates tok ledger (t.Allows src this v)
      (SafeERC20.safeTransferFrom revertData t this src this v) step where
  succeeds := by
    simp only [SafeERC20.safeTransferFrom, SafeERC20.call_eq_ok, ret_isOk_iff hstep, hv.not_lt_iff]
    exact transferFrom_isOk_iff hsrc ht ht
  views u w hu hw := by
    obtain ⟨hb, hm⟩ := transferFrom_views hs hv <| SafeERC20.call_eq_ok.mp hu
    rw [hstep, if_neg ((hv.not_lt_iff _ _).mpr hb)] at hw
    cases hw
    exact hl ▸ hm

theorem safeTransfer_simulates (hdst : dst ≠ 0) (ht : this ≠ 0)
    (hstep : step = if l tok this < v.toNat then .revert e else .ret () s')
    (hl : ledger s' = l.move tok this dst v.toNat) :
    Simulates tok ledger True (SafeERC20.safeTransfer revertData t this dst v) step where
  succeeds := by
    simp only [SafeERC20.safeTransfer, SafeERC20.call_eq_ok, ret_isOk_iff hstep, hv.not_lt_iff,
      true_and]
    exact transfer_isOk_iff ht hdst
  views u w hu hw := by
    have hu : t._transfer this dst v = .ok u := SafeERC20.call_eq_ok.mp hu
    obtain ⟨_, _, hb, _⟩ := ERC20._transfer_eq_ok.mp hu
    rw [hstep, if_neg ((hv.not_lt_iff _ _).mpr hb)] at hw
    cases hw
    exact hl ▸ hv.transfer hs hu

end Simulates

section SwapCreator

variable {d : SwapCreator.Deployment} {s : SwapCreator.State} {id : Bytes32}

theorem safeTransferFrom_standard (hd : d.standard tok) :
    SwapCreator.safeTransferFrom d tok src v s =
      if s.balances tok src < v.toNat then .revert .callFailed
      else .ret () { s with balances := s.balances.move tok src d.this v.toNat } := by
  by_cases h : s.balances tok src < v.toNat
  all_goals
    simp [SwapCreator.safeTransferFrom, hd, Bind.bind, Reentrant.Code.get, Reentrant.Tree.bind,
      Reentrant.Code.revertIf, Reentrant.Code.modify, h]

theorem pay_standard (hd : d.standard tok) (hn : tok ≠ native) :
    SwapCreator.pay d id tok dst v s =
      if s.balances tok d.this < v.toNat then .revert .lacksFunds
      else .ret ()
        { s with
          payouts  := update s.payouts id (s.payouts id ++ [(dst, v.toNat)])
          balances := s.balances.move tok d.this dst v.toNat } := by
  by_cases h : s.balances tok d.this < v.toNat
  all_goals
    simp [SwapCreator.pay, hd, hn, Bind.bind, Reentrant.Code.get, Reentrant.Tree.bind,
      Reentrant.Code.revertIf, Reentrant.Code.modify, h]

end SwapCreator

section VaultManager

variable {d : VaultManager.Deployment} {s : VaultManager.State}

theorem takeCollateral_standard (hd : d.standard tok) :
    VaultManager.safeTransferFrom d tok src v s =
      if s.balances tok src < v.toNat then .revert .callFailed
      else .ret () { s with balances := s.balances.move tok src d.this v.toNat } := by
  by_cases h : s.balances tok src < v.toNat
  all_goals
    simp [VaultManager.safeTransferFrom, hd, Bind.bind, Reentrant.Code.get, Reentrant.Tree.bind,
      Reentrant.Code.revertIf, Reentrant.Code.modify, h]

theorem sendCollateral_standard (hd : d.standard tok) (hn : tok ≠ native) :
    VaultManager.sendCollateral d tok dst v s =
      if s.balances tok d.this < v.toNat then .revert .lacksFunds
      else .ret () { s with balances := s.balances.move tok d.this dst v.toNat } := by
  by_cases h : s.balances tok d.this < v.toNat
  all_goals
    simp [VaultManager.sendCollateral, hd, hn, Bind.bind, Reentrant.Code.get, Reentrant.Tree.bind,
      Reentrant.Code.revertIf, Reentrant.Code.modify, h]

end VaultManager

theorem run_supplied {s₀ : State} {initialOwner : Address} (h : State.new initialOwner = .ok s₀)
    (cs : List Call) : (run step cs s₀).Supplied :=
  run_keeps (I := fun s : State => s.Supplied) (fun _ _ => step_supplied) (new_supplied h)

-- The token can be an asset of both contracts: it is one of the assets that move exactly the amount
-- that is asked for, which the proofs about the contracts rely on. A deposit also needs an
-- allowance.
theorem token_simulates_transfers {s₀ : State} {initialOwner tok : Address}
    (h : State.new initialOwner = .ok s₀) (cs : List Call)
    (creator : SwapCreator.Deployment) (s : SwapCreator.State)
    (vaults : VaultManager.Deployment) (s' : VaultManager.State)
    (hd : creator.standard tok ∧ vaults.standard tok)
    (hn : tok ≠ native ∧ creator.this ≠ 0 ∧ vaults.this ≠ 0)
    (hv : Views tok (run step cs s₀).toERC20 s.balances)
    (hv' : Views tok (run step cs s₀).toERC20 s'.balances)
    (revertData : Revert Error → List UInt8) :
    let t := (run step cs s₀).toERC20
    (∀ src v, src ≠ 0 →
      Simulates tok (·.balances) (t.Allows src creator.this v)
        (SafeERC20.safeTransferFrom revertData t creator.this src creator.this v)
        (SwapCreator.safeTransferFrom creator tok src v s) ∧
      Simulates tok (·.balances) (t.Allows src vaults.this v)
        (SafeERC20.safeTransferFrom revertData t vaults.this src vaults.this v)
        (VaultManager.safeTransferFrom vaults tok src v s')) ∧
    (∀ dst v, dst ≠ 0 →
      (∀ id, Simulates tok (·.balances) True
        (SafeERC20.safeTransfer revertData t creator.this dst v)
        (SwapCreator.pay creator id tok dst v s)) ∧
      Simulates tok (·.balances) True (SafeERC20.safeTransfer revertData t vaults.this dst v)
        (VaultManager.sendCollateral vaults tok dst v s')) := by
  intro t
  obtain ⟨hn, hc, hm⟩ := hn
  have hs : t.Supplied := run_supplied h cs
  refine ⟨fun src v hsrc => ⟨?_, ?_⟩, fun dst v hdst => ⟨fun id => ?_, ?_⟩⟩
  · exact safeTransferFrom_simulates hs hv hsrc hc (safeTransferFrom_standard hd.left) rfl
  · exact safeTransferFrom_simulates hs hv' hsrc hm (takeCollateral_standard hd.right) rfl
  · exact safeTransfer_simulates hs hv hdst hc (pay_standard hd.left hn) rfl
  · exact safeTransfer_simulates hs hv' hdst hm (sendCollateral_standard hd.right hn) rfl

section Manager

variable {d : VaultManager.Deployment} {s s' : VaultManager.State} {t t' : State} {c : Call}
  {block : VaultManager.Block}

-- What the model of the vaults shows of the token `wsXMR`.
structure Manages (d : VaultManager.Deployment) (t : State) (s : VaultManager.State) : Prop where
  manager  : s.tokenManager = t.vaultManager
  supply   : s.totalSupply = t.totalSupply
  balances : Views d.wsxmrToken t.toERC20 s.balances

theorem mint_eq_ok : t.mint sender dst v = .ok t' ↔
    sender = t.vaultManager ∧
      ∃ u, t.toERC20._mint dst v = .ok u ∧ { t with toERC20 := u } = t' := by
  simp only [State.mint, Except.bind_ok_iff, Except.failIf_eq_ok, inherit_eq_ok, exists_const,
    ne_eq, Decidable.not_not]

theorem burn_eq_ok : t.burn sender src v = .ok t' ↔
    sender = t.vaultManager ∧
      ∃ u, t.toERC20._burn src v = .ok u ∧ { t with toERC20 := u } = t' := by
  simp only [State.burn, Except.bind_ok_iff, Except.failIf_eq_ok, inherit_eq_ok, exists_const,
    ne_eq, Decidable.not_not]

theorem mint_ret_iff : VaultManager.mint d dst v s = .ret () s' ↔
    s.tokenManager = d.this ∧ dst ≠ 0 ∧
    ∃ n : Uint256, n.toNat = s.totalSupply.toNat + v.toNat ∧
      { s with
        totalSupply := n
        balances    := s.balances.put d.wsxmrToken dst (s.balances d.wsxmrToken dst + v.toNat) } =
      s' := by
  simp [VaultManager.mint, bind_eq_ret, get_eq_ret, revertIf_eq_ret, lift_eq_ret, modify_eq_ret,
    Uint256.add_eq_ok, and_assoc]

theorem burn_ret_iff : VaultManager.burn d src v s = .ret () s' ↔
    s.tokenManager = d.this ∧ v.toNat ≤ s.balances d.wsxmrToken src ∧
      { s with
        totalSupply := s.totalSupply - v
        balances    := s.balances.put d.wsxmrToken src (s.balances d.wsxmrToken src - v.toNat) } =
      s' := by
  simp [VaultManager.burn, bind_eq_ret, get_eq_ret, revertIf_eq_ret, modify_eq_ret, and_assoc]

-- The calls that stand for what others do.
def IsEnvironment : Reentrant.Act VaultManager.Call → Prop
  | ⟨.outside .., []⟩ | ⟨.manage .., []⟩ => True
  | _                                    => False

def Reaches (d : VaultManager.Deployment) (block : VaultManager.Block)
    (s s' : VaultManager.State) : Prop :=
  ∃ as : List (Reentrant.Act VaultManager.Call), (∀ a ∈ as, IsEnvironment a) ∧
    Reentrant.execSeq (VaultManager.step d block) as s = s'

theorem exec_outside (block : VaultManager.Block) {asset holder : Address} {balance : ℕ}
    (h : holder = d.this → s.balances asset holder ≤ balance) :
    Reentrant.exec (VaultManager.step d block) ⟨.outside asset holder balance, []⟩ s =
      .ok { s with balances := s.balances.put asset holder balance } := by
  have hn : ¬(holder = d.this ∧ (asset = native ∨ d.standard asset) ∧
      balance < s.balances asset holder) := by
    rintro ⟨hh, _, hl⟩
    have := h hh
    omega
  simp [Reentrant.exec, VaultManager.step, VaultManager.nonpayable, VaultManager.Call.msg,
    VaultManager.dispatch, Bind.bind, Reentrant.Tree.bind, Reentrant.Code.get,
    Reentrant.Code.revertIf, Reentrant.Code.modify, hn, Reentrant.Tree.run,
    Reentrant.execReplies]

theorem exec_manage {manager : Address} :
    Reentrant.exec (VaultManager.step d block) ⟨.manage manager s.totalSupply, []⟩ s =
      .ok { s with tokenManager := manager } := by
  simp [Reentrant.exec, VaultManager.step, VaultManager.nonpayable, VaultManager.Call.msg,
    VaultManager.dispatch, Bind.bind, Reentrant.Tree.bind, Reentrant.Code.get,
    Reentrant.Code.revertIf, Reentrant.Code.modify, Reentrant.Tree.run, Reentrant.execReplies]

-- A transfer is two changes of balances.
theorem reaches_move (h : src = d.this → v = 0) :
    Reaches d block s { s with balances := s.balances.move tok src dst v.toNat } := by
  have h₁ : src = d.this → s.balances tok src ≤ s.balances tok src - v.toNat := by
    intro hs
    simp [h hs]
  let s₁ : VaultManager.State :=
    { s with balances := s.balances.put tok src (s.balances tok src - v.toNat) }
  have h₂ : dst = d.this → s₁.balances tok dst ≤ s₁.balances tok dst + v.toNat :=
    fun _ => Nat.le_add_right ..
  refine ⟨[⟨.outside tok src (s.balances tok src - v.toNat), []⟩,
    ⟨.outside tok dst (s₁.balances tok dst + v.toNat), []⟩], ?_, ?_⟩
  · simp [IsEnvironment]
  · simp only [Reentrant.execSeq, exec_outside block h₁]
    rw [exec_outside block h₂]
    rfl

theorem Manages.frame (h : Manages d t s) (hb : t'.balances = t.balances)
    (hs : t'.totalSupply = t.totalSupply) (hm : t'.vaultManager = t.vaultManager) :
    Manages d t' s :=
  ⟨hm ▸ h.manager, hs ▸ h.supply, fun a => hb ▸ h.balances a⟩

theorem Manages.transfer {u : ERC20} (h : Manages d t s) (hs : t.Supplied)
    (ht : t.toERC20._transfer src dst v = .ok u) (hv : src = d.this → v = 0) :
    ∃ s', Reaches d block s s' ∧ Manages d { t with toERC20 := u } s' := by
  refine ⟨_, reaches_move hv, h.manager, ?_, h.balances.transfer hs ht⟩
  obtain ⟨_, _, _, rfl⟩ := ERC20._transfer_eq_ok.mp ht
  exact h.supply

theorem Manages.mint (h : Manages d t s) (hs : t.Supplied) (ht : t.mint d.this dst v = .ok t')
    (hr : VaultManager.mint d dst v s = .ret () s') : Manages d t' s' := by
  obtain ⟨_, u, hu, rfl⟩ := mint_eq_ok.mp ht
  obtain ⟨_, _, n, hn, rfl⟩ := mint_ret_iff.mp hr
  refine ⟨h.manager, ?_, h.balances.mint hs hu⟩
  obtain ⟨_, n', hn', rfl⟩ := ERC20._mint_eq_ok.mp hu
  apply BitVec.eq_of_toNat_eq
  rw [hn, h.supply]
  exact hn'.symm

theorem Manages.burn (h : Manages d t s) (ht : t.burn d.this src v = .ok t')
    (hr : VaultManager.burn d src v s = .ret () s') : Manages d t' s' := by
  obtain ⟨_, u, hu, rfl⟩ := burn_eq_ok.mp ht
  obtain ⟨_, _, rfl⟩ := burn_ret_iff.mp hr
  refine ⟨h.manager, ?_, h.balances.burn hu⟩
  obtain ⟨_, _, rfl⟩ := ERC20._burn_eq_ok.mp hu
  exact congrArg (· - v) h.supply

theorem Manages.mint_isOk_iff (h : Manages d t s) :
    (∃ t', t.mint d.this dst v = .ok t') ↔ ∃ s', VaultManager.mint d dst v s = .ret () s' := by
  simp only [mint_eq_ok, mint_ret_iff, ERC20._mint_eq_ok, h.manager, h.supply]
  constructor
  case mp =>
    rintro ⟨_, hm, _, ⟨hd, n, hn, _⟩, _⟩
    exact ⟨_, hm.symm, hd, n, hn, rfl⟩
  case mpr =>
    rintro ⟨_, hm, hd, n, hn, _⟩
    exact ⟨_, hm.symm, _, ⟨hd, n, hn, rfl⟩, rfl⟩

theorem Manages.burn_isOk_iff (h : Manages d t s) (hs : src ≠ 0) :
    (∃ t', t.burn d.this src v = .ok t') ↔ ∃ s', VaultManager.burn d src v s = .ret () s' := by
  have hb := h.balances.not_lt_iff src v
  simp only [burn_eq_ok, burn_ret_iff, ERC20._burn_eq_ok, h.manager, ← hb, Nat.not_lt]
  constructor
  case mp =>
    rintro ⟨_, hm, _, ⟨_, hv, _⟩, _⟩
    exact ⟨_, hm.symm, hv, rfl⟩
  case mpr =>
    rintro ⟨_, hm, hv, _⟩
    exact ⟨_, hm.symm, _, ⟨hs, hv, rfl⟩, rfl⟩

theorem eq_zero_of_spend {u : ERC20} {owner : Address}
    (h : t._spendAllowance owner spender v = .ok u) (ha : t.allowances owner spender = 0) :
    v = 0 := by
  obtain ⟨hm, _⟩ | ⟨_, hv, _⟩ := ERC20._spendAllowance_eq_ok.mp h
  · rw [ha] at hm
    exact absurd hm (by decide)
  · rw [ha] at hv
    bv_omega

-- What others do to a token that is managed by the vaults is within what the model of the vaults
-- lets them do.
theorem Effect.reaches (he : Effect t sender m t') (h : Manages d t s) (hs : t.Supplied)
    (hm : t.vaultManager = d.this) (hn : sender ≠ d.this)
    (ha : ∀ b, t.allowances d.this b = 0) (block : VaultManager.Block) :
    ∃ s', Reaches d block s s' ∧ Manages d t' s' := by
  have stays : Reaches d block s s := ⟨[], by simp, rfl⟩
  cases he
  case transfer ht => exact h.transfer hs ht fun he => absurd he hn
  case transferFrom src _ _ _ _ hu ht =>
    have hb := ERC20.core_spendAllowance hu
    have hf : Manages d { t with toERC20 := _ } s := h.frame hb.left hb.right rfl
    exact hf.transfer (hs.spendAllowance hu) ht fun he => eq_zero_of_spend hu (he ▸ ha _)
  case approve hu | increaseAllowance hu | decreaseAllowance hu =>
    all_goals
      obtain ⟨_, _, rfl⟩ := ERC20._approve_eq_ok.mp hu
      exact ⟨s, stays, h.frame rfl rfl rfl⟩
  case mint hv _ => exact absurd (hv.trans hm) hn
  case burn hv _ => exact absurd (hv.trans hm) hn
  case setVaultManager vaultManager _ _ =>
    refine ⟨_, ⟨[⟨.manage vaultManager s.totalSupply, []⟩], by simp [IsEnvironment], rfl⟩, ?_⟩
    simp only [Reentrant.execSeq, exec_manage]
    exact ⟨rfl, h.supply, h.balances⟩
  case transferOwnership => exact ⟨s, stays, h.frame rfl rfl rfl⟩
  case renounceOwnership => exact ⟨s, stays, h.frame rfl rfl rfl⟩

-- Nobody can take anything from an account that has never granted an allowance.
theorem run_ungranted {s₀ : State} {initialOwner a : Address} {cs : List Call}
    (h : State.new initialOwner = .ok s₀) (hc : ∀ c ∈ cs, ∀ b, c.grants a b = 0) (b : Address) :
    (run step cs s₀).allowances a b = 0 := by
  have h₀ : s₀.allowances a b = 0 := by
    simp only [State.new, Except.bind_ok_iff, Except.pure_ok_iff] at h
    obtain ⟨_, _, _, _, rfl⟩ := h
    rfl
  refine run_invariant (I := fun s : State => s.allowances a b = 0)
    (P := fun _ c => Call.grants a b c = 0)
    (fun s c hs hg => ?_) h₀ (.of_forall fun c hm => hc c hm b)
  have hl := step_spends (c := c) (by rw [hs]; decide : s.allowances a b ≠ .allOnes 256)
  have ht : tally (·.grants a b) [c] s = 0 := by simp [tally, hg]
  rw [hs, ht] at hl
  exact BitVec.eq_of_toNat_eq <| Nat.le_zero.mp <| (Nat.le_add_right ..).trans hl

-- The model of the vaults contains all of the token that matters to them: the two methods that they
-- call succeed and do the same in both, and every other call of the token leads to a state that
-- others can also reach in the model. The vaults never grant an allowance.
theorem vaults_simulate_token {s₀ : State} {initialOwner : Address}
    (h : State.new initialOwner = .ok s₀) (cs : List Call) (ht : t = run step cs s₀)
    (hm : Manages d t s) :
    (∀ dst v,
      ((∃ t', t.mint d.this dst v = .ok t') ↔ ∃ s', VaultManager.mint d dst v s = .ret () s') ∧
      ∀ t' s', t.mint d.this dst v = .ok t' → VaultManager.mint d dst v s = .ret () s' →
        Manages d t' s') ∧
    (∀ src v, src ≠ 0 →
      ((∃ t', t.burn d.this src v = .ok t') ↔ ∃ s', VaultManager.burn d src v s = .ret () s') ∧
      ∀ t' s', t.burn d.this src v = .ok t' → VaultManager.burn d src v s = .ret () s' →
        Manages d t' s') ∧
    (t.vaultManager = d.this → (∀ b, t.allowances d.this b = 0) →
      ∀ c block, c.msg.sender ≠ d.this → ∃ s', Reaches d block s s' ∧ Manages d (step t c) s') ∧
    ((∀ c ∈ cs, ∀ b, c.grants d.this b = 0) → ∀ b, t.allowances d.this b = 0) := by
  have hs : t.Supplied := ht ▸ run_supplied h cs
  refine ⟨fun dst v => ⟨hm.mint_isOk_iff, fun _ _ => hm.mint hs⟩,
    fun src v hsrc => ⟨hm.burn_isOk_iff hsrc, fun _ _ => hm.burn⟩, fun hv ha c block hc => ?_,
    fun hc b => ht ▸ run_ungranted h hc b⟩
  obtain he | he := step_effect t c
  · exact ⟨s, ⟨[], by simp, rfl⟩, he.symm ▸ hm⟩
  · exact he.reaches hm hs hv hc ha block

end Manager

namespace Sample

def vaults : VaultManager.Deployment where
  host       := ⟨fun _ => 0, fun _ _ _ _ => 0⟩
  this       := 2
  wsxmrToken := 9
  pyth       := 0
  standard a := a = 9

def creator : SwapCreator.Deployment where
  host       := ⟨fun _ => 0, fun _ _ _ _ => 0⟩
  this       := 6
  standard a := a = 9

def ledger : Ledger Address Address :=
  fun a holder => if a = 9 ∧ holder = 3 then 10 else 0

-- The holder allows the other contract to take 7 tokens.
def approved : List Call :=
  minted ++ [⟨{ sender := 3 }, .approve 6 7⟩]

def vaultState : VaultManager.State :=
  .constructed vaults 1 2 10 ledger

theorem views_minted : Views 9 (run step minted deployed).toERC20 ledger := by
  intro a
  by_cases ha : a = 3
  case pos => subst ha; decide
  case neg =>
    have hb : (run step minted deployed).balances = update (fun _ => 0) 3 10 := rfl
    have hn : ¬((9 : Address) = 9 ∧ a = 3) := fun h => ha h.right
    rw [ledger, if_neg hn, hb, update_of_ne ha]
    rfl

end Sample

theorem vaults_simulate_token_minted :
    ∃ s', VaultManager.burn Sample.vaults 3 4 Sample.vaultState = .ret () s' := by
  obtain ⟨_, hb, _⟩ := vaults_simulate_token (rfl : State.new 1 = .ok Sample.deployed)
    Sample.minted rfl (⟨rfl, rfl, Sample.views_minted⟩ : Manages Sample.vaults _ Sample.vaultState)
  exact (hb 3 4 (by decide)).left.mp ⟨_, rfl⟩

theorem token_simulates_transfers_approved :
    ∃ s', SwapCreator.safeTransferFrom Sample.creator 9 3 5 (.deployed Sample.ledger) =
      .ret () s' := by
  obtain ⟨hf, _⟩ := token_simulates_transfers (rfl : State.new 1 = .ok Sample.deployed)
    Sample.approved Sample.creator (.deployed Sample.ledger) Sample.vaults Sample.vaultState
    (by decide) (by decide) Sample.views_minted Sample.views_minted fun _ => []
  have hs := (hf 3 5 (by decide)).left.succeeds
  exact (hs.mp ⟨_, rfl⟩).right

end Ethereum.Token
