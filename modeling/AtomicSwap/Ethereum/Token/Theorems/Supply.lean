import AtomicSwap.Ethereum.Token.Basic
import AtomicSwap.Library.Ledger

open Function Machine

namespace Ethereum.Token

namespace ERC20

variable {s s' : ERC20} {src dst account owner spender sender : Address} {v : Uint256}

theorem _transfer_eq_ok :
    s._transfer src dst v = .ok s' ↔
    src ≠ 0 ∧ dst ≠ 0 ∧ v ≤ s.balances src ∧
    emit
      { s with
        balances := update (update s.balances src (s.balances src - v)) dst
          (update s.balances src (s.balances src - v) dst + v) }
      (.transfer src dst v) = s' := by
  simp only [_transfer, Except.bind_ok_iff, Except.failIf_eq_ok, Except.pure_ok_iff]
  simp

theorem _mint_eq_ok :
    s._mint account v = .ok s' ↔
    account ≠ 0 ∧ ∃ total : Uint256, total.toNat = s.totalSupply.toNat + v.toNat ∧
    emit
      { s with
        totalSupply := total
        balances    := update s.balances account (s.balances account + v) }
      (.transfer 0 account v) = s' := by
  simp only [_mint, Except.bind_ok_iff, Except.failIf_eq_ok, Except.pure_ok_iff,
    Uint256.add_eq_ok]
  simp

theorem _burn_eq_ok :
    s._burn account v = .ok s' ↔
    account ≠ 0 ∧ v ≤ s.balances account ∧
    emit
      { s with
        balances    := update s.balances account (s.balances account - v)
        totalSupply := s.totalSupply - v }
      (.transfer account 0 v) = s' := by
  simp only [_burn, Except.bind_ok_iff, Except.failIf_eq_ok, Except.pure_ok_iff]
  simp

theorem _approve_eq_ok :
    s._approve owner spender v = .ok s' ↔
    owner ≠ 0 ∧ spender ≠ 0 ∧
    emit
      { s with
        allowances := update s.allowances owner (update (s.allowances owner) spender v) }
      (.approval owner spender v) = s' := by
  simp only [_approve, Except.bind_ok_iff, Except.failIf_eq_ok, Except.pure_ok_iff]
  simp

theorem _spendAllowance_eq_ok :
    s._spendAllowance owner spender v = .ok s' ↔
    s.allowances owner spender = .allOnes 256 ∧ s = s' ∨
    s.allowances owner spender ≠ .allOnes 256 ∧ v ≤ s.allowances owner spender ∧
    s._approve owner spender (s.allowances owner spender - v) = .ok s' := by
  by_cases h : s.allowances owner spender = .allOnes 256
  case pos => simp [_spendAllowance, h]
  case neg =>
    simp only [_spendAllowance, h, if_false, Except.bind_ok_iff, Except.failIf_eq_ok, exists_const,
      BitVec.not_lt, ne_eq, not_false_eq_true, true_and, false_and, false_or]

theorem core_spendAllowance (h : s._spendAllowance owner spender v = .ok s') :
    s'.balances = s.balances ∧ s'.totalSupply = s.totalSupply := by
  obtain ⟨_, rfl⟩ | ⟨_, _, h⟩ := _spendAllowance_eq_ok.mp h
  · exact ⟨rfl, rfl⟩
  · obtain ⟨_, _, rfl⟩ := _approve_eq_ok.mp h
    exact ⟨rfl, rfl⟩

section Sums

variable {f : Address → Uint256} {a : Address}

def total (f : Address → Uint256) : ℕ :=
  ∑ a, (f a).toNat

theorem total_update (f : Address → Uint256) (a : Address) (v : Uint256) :
    total (update f a v) + (f a).toNat = total f + v.toNat := by
  have h := sum_exchange (f := fun i => (f i).toNat) (g := fun i => (update f a v i).toNat) a
    fun i hi => by simp [hi]
  simpa [total] using h

theorem total_sub (hv : v ≤ f a) : total (update f a (f a - v)) + v.toNat = total f := by
  have h := total_update f a (f a - v)
  bv_omega

theorem le_total (f : Address → Uint256) (a : Address) : (f a).toNat ≤ total f :=
  le_sum (fun i => (f i).toNat) a

-- A balance cannot overflow as long as the total does not.
theorem toNat_add (hv : total f + v.toNat < 2 ^ 256) :
    (f a + v).toNat = (f a).toNat + v.toNat := by
  have h := le_total f a
  rw [BitVec.toNat_add, Nat.mod_eq_of_lt]
  omega

theorem total_add (hv : total f + v.toNat < 2 ^ 256) :
    total (update f a (f a + v)) = total f + v.toNat := by
  have h := total_update f a (f a + v)
  rw [toNat_add hv] at h
  omega

end Sums

-- The supply is what all accounts hold together, and the zero address holds nothing.
structure Supplied (s : ERC20) : Prop where
  sum  : total s.balances = s.totalSupply.toNat
  zero : s.balances 0 = 0

namespace Supplied

theorem congr (h : s.Supplied) (hb : s'.balances = s.balances)
    (ht : s'.totalSupply = s.totalSupply) : s'.Supplied :=
  ⟨hb ▸ ht ▸ h.sum, hb ▸ h.zero⟩

-- What is taken from one account can be added to any other.
theorem fits (h : s.Supplied) (hv : v ≤ s.balances src) :
    total (update s.balances src (s.balances src - v)) + v.toNat < 2 ^ 256 := by
  rw [total_sub hv, h.sum]
  exact s.totalSupply.isLt

theorem transfer (h : s.Supplied) (ht : s._transfer src dst v = .ok s') : s'.Supplied := by
  obtain ⟨hs, hd, hv, rfl⟩ := _transfer_eq_ok.mp ht
  refine ⟨?_, ?_⟩
  · rw [emit_balances, emit_totalSupply, ← h.sum, ← total_sub hv]
    exact total_add (h.fits hv)
  · exact (update_of_ne hd.symm ..).trans <| (update_of_ne hs.symm ..).trans h.zero

theorem mint (h : s.Supplied) (hm : s._mint account v = .ok s') : s'.Supplied := by
  obtain ⟨ha, n, hn, rfl⟩ := _mint_eq_ok.mp hm
  refine ⟨?_, ?_⟩
  · have hv : total s.balances + v.toNat < 2 ^ 256 := by rw [h.sum, ← hn]; exact n.isLt
    exact (total_add hv).trans <| by rw [h.sum, ← hn]; rfl
  · exact (update_of_ne ha.symm ..).trans h.zero

theorem burn (h : s.Supplied) (hb : s._burn account v = .ok s') : s'.Supplied := by
  obtain ⟨ha, hv, rfl⟩ := _burn_eq_ok.mp hb
  refine ⟨?_, ?_⟩
  · have ht := total_sub hv
    have hs := h.sum
    rw [emit_balances, emit_totalSupply]
    bv_omega
  · exact (update_of_ne ha.symm ..).trans h.zero

theorem approve (h : s.Supplied) (ha : s._approve owner spender v = .ok s') : s'.Supplied := by
  obtain ⟨_, _, rfl⟩ := _approve_eq_ok.mp ha
  exact h.congr rfl rfl

theorem spendAllowance (h : s.Supplied) (ha : s._spendAllowance owner spender v = .ok s') :
    s'.Supplied := by
  obtain ⟨_, rfl⟩ | ⟨_, _, ha⟩ := _spendAllowance_eq_ok.mp ha
  · exact h
  · exact h.approve ha

end Supplied
end ERC20

variable {s s' : State} {c : Call} {m : Method} {sender : Address}

-- What a method has done when it has not reverted.
inductive Effect (s : State) (sender : Address) : Method → State → Prop
  | transfer {dst : Address} {v : Uint256} {t : ERC20} :
    s.toERC20._transfer sender dst v = .ok t →
    Effect s sender (.transfer dst v) { s with toERC20 := t }
  | approve {spender : Address} {v : Uint256} {t : ERC20} :
    s.toERC20._approve sender spender v = .ok t →
    Effect s sender (.approve spender v) { s with toERC20 := t }
  | transferFrom {src dst : Address} {v : Uint256} {t t' : ERC20} :
    s.toERC20._spendAllowance src sender v = .ok t → t._transfer src dst v = .ok t' →
    Effect s sender (.transferFrom src dst v) { s with toERC20 := t' }
  | increaseAllowance {spender : Address} {v amount : Uint256} {t : ERC20} :
    amount.toNat = (s.allowances sender spender).toNat + v.toNat →
    s.toERC20._approve sender spender amount = .ok t →
    Effect s sender (.increaseAllowance spender v) { s with toERC20 := t }
  | decreaseAllowance {spender : Address} {v : Uint256} {t : ERC20} :
    v ≤ s.allowances sender spender →
    s.toERC20._approve sender spender (s.allowances sender spender - v) = .ok t →
    Effect s sender (.decreaseAllowance spender v) { s with toERC20 := t }
  | mint {dst : Address} {v : Uint256} {t : ERC20} :
    sender = s.vaultManager → s.toERC20._mint dst v = .ok t →
    Effect s sender (.mint dst v) { s with toERC20 := t }
  | burn {src : Address} {v : Uint256} {t : ERC20} :
    sender = s.vaultManager → s.toERC20._burn src v = .ok t →
    Effect s sender (.burn src v) { s with toERC20 := t }
  | setVaultManager {vaultManager : Address} {e : Event} :
    sender = s.owner →
    Effect s sender (.setVaultManager vaultManager) { s with toERC20 := s.emit e, vaultManager }
  | transferOwnership {newOwner : Address} :
    sender = s.owner → newOwner ≠ 0 →
    Effect s sender (.transferOwnership newOwner) (s._transferOwnership newOwner)
  | renounceOwnership :
    sender = s.owner → Effect s sender .renounceOwnership (s._transferOwnership 0)

theorem inherit_eq_ok {f : ERC20 → Result ERC20} :
    s.inherit f = .ok s' ↔ ∃ t, f s.toERC20 = .ok t ∧ { s with toERC20 := t } = s' := by
  simp only [State.inherit, Except.bind_ok_iff, Except.pure_ok_iff]

theorem onlyOwner_eq_ok {u : Unit} : s.onlyOwner sender = .ok u ↔ sender = s.owner := by
  rw [State.onlyOwner, Except.failIf_eq_ok, Decidable.not_not, eq_comm]

theorem Method.effect (h : m.run s sender = .ok s') : Effect s sender m s' := by
  cases m
  all_goals
    simp only [run, State.mint, State.burn, State.setVaultManager, State.transferOwnership,
      State.renounceOwnership] at h
  case transfer =>
    obtain ⟨t, ht, rfl⟩ := inherit_eq_ok.mp h
    exact .transfer ht
  case approve =>
    obtain ⟨t, ht, rfl⟩ := inherit_eq_ok.mp h
    exact .approve ht
  case transferFrom =>
    obtain ⟨t, ht, rfl⟩ := inherit_eq_ok.mp h
    obtain ⟨_, ha, ht⟩ := Except.bind_ok_iff.mp ht
    exact .transferFrom ha ht
  case increaseAllowance =>
    obtain ⟨t, ht, rfl⟩ := inherit_eq_ok.mp h
    obtain ⟨_, hv, ht⟩ := Except.bind_ok_iff.mp ht
    exact .increaseAllowance (Uint256.add_eq_ok.mp hv) ht
  case decreaseAllowance =>
    obtain ⟨t, ht, rfl⟩ := inherit_eq_ok.mp h
    obtain ⟨_, hv, ht⟩ := Except.bind_ok_iff.mp ht
    exact .decreaseAllowance (by simpa using hv) ht
  case mint =>
    obtain ⟨_, hm, h⟩ := Except.bind_ok_iff.mp h
    obtain ⟨t, ht, rfl⟩ := inherit_eq_ok.mp h
    exact .mint (by simpa using hm) ht
  case burn =>
    obtain ⟨_, hm, h⟩ := Except.bind_ok_iff.mp h
    obtain ⟨t, ht, rfl⟩ := inherit_eq_ok.mp h
    exact .burn (by simpa using hm) ht
  case setVaultManager =>
    obtain ⟨_, ho, h⟩ := Except.bind_ok_iff.mp h
    obtain ⟨_, _, h⟩ := Except.bind_ok_iff.mp h
    obtain rfl := Except.pure_ok_iff.mp h
    exact .setVaultManager (onlyOwner_eq_ok.mp ho)
  case transferOwnership =>
    obtain ⟨_, ho, h⟩ := Except.bind_ok_iff.mp h
    obtain ⟨_, hn, h⟩ := Except.bind_ok_iff.mp h
    obtain rfl := Except.pure_ok_iff.mp h
    exact .transferOwnership (onlyOwner_eq_ok.mp ho) (by simpa using hn)
  case renounceOwnership =>
    obtain ⟨_, ho, h⟩ := Except.bind_ok_iff.mp h
    obtain rfl := Except.pure_ok_iff.mp h
    exact .renounceOwnership (onlyOwner_eq_ok.mp ho)

theorem Effect.supplied (he : Effect s sender m s') (h : s.Supplied) : s'.Supplied := by
  cases he
  case transfer ht                 => exact h.transfer ht
  case approve ha                  => exact h.approve ha
  case transferFrom ha ht          => exact (h.spendAllowance ha).transfer ht
  case increaseAllowance ha        => exact h.approve ha
  case decreaseAllowance ha        => exact h.approve ha
  case mint hm                     => exact h.mint hm
  case burn hb                     => exact h.burn hb
  case setVaultManager             => exact h.congr rfl rfl
  case transferOwnership           => exact h.congr rfl rfl
  case renounceOwnership           => exact h.congr rfl rfl

def Method.IsIssue : Method → Prop
  | mint .. | burn .. => True
  | _                 => False

-- Only the manager changes the supply.
theorem Effect.issued (he : Effect s sender m s') (hn : s'.totalSupply ≠ s.totalSupply) :
    m.IsIssue ∧ sender = s.vaultManager := by
  cases he
  case transfer ht =>
    obtain ⟨_, _, _, rfl⟩ := ERC20._transfer_eq_ok.mp ht
    contradiction
  case transferFrom ha ht =>
    obtain ⟨_, _, _, rfl⟩ := ERC20._transfer_eq_ok.mp ht
    exact absurd (ERC20.core_spendAllowance ha).right hn
  case approve ha | increaseAllowance ha | decreaseAllowance ha =>
    all_goals
      obtain ⟨_, _, rfl⟩ := ERC20._approve_eq_ok.mp ha
      contradiction
  case mint hs _ => exact ⟨trivial, hs⟩
  case burn hs _ => exact ⟨trivial, hs⟩
  all_goals contradiction

theorem step_effect (s : State) (c : Call) :
    step s c = s ∨ Effect s c.msg.sender c.method (step s c) := by
  unfold step
  split
  case h_1 s' h =>
    obtain ⟨_, _, h⟩ := Except.bind_ok_iff.mp h
    exact .inr <| Method.effect h
  case h_2 => exact .inl rfl

theorem step_supplied (h : s.Supplied) : (step s c).Supplied := by
  obtain he | he := step_effect s c
  · exact he.symm ▸ h
  · exact he.supplied h

theorem new_supplied {initialOwner : Address} (h : State.new initialOwner = .ok s) :
    s.Supplied := by
  simp only [State.new, Except.bind_ok_iff, Except.pure_ok_iff] at h
  obtain ⟨_, _, _, _, rfl⟩ := h
  exact ⟨by simp [ERC20.total, ERC20.new], rfl⟩

-- Whatever calls are made, the supply is what all accounts hold together. It only changes by calls
-- of the manager.
theorem supply_conserved {s₀ : State} {initialOwner : Address}
    (h : State.new initialOwner = .ok s₀) (cs : List Call) :
    let s := run step cs s₀
    ∑ a, (s.balances a).toNat = s.totalSupply.toNat ∧ s.balances 0 = 0 ∧
    ∀ c, (step s c).totalSupply ≠ s.totalSupply →
      c.method.IsIssue ∧ c.msg.sender = s.vaultManager := by
  intro s
  have hs : s.Supplied :=
    run_keeps (I := fun s : State => s.Supplied) (fun _ _ => step_supplied) (new_supplied h)
  refine ⟨hs.sum, hs.zero, fun c hn => ?_⟩
  obtain he | he := step_effect s c
  · exact absurd (congrArg (·.totalSupply) he) hn
  · exact he.issued hn

namespace Sample

-- The owner 1 makes 2 the manager, who mints for 3.
def deployed : State :=
  { ERC20.new.emit (.ownershipTransferred 0 1) with owner := 1, vaultManager := 0 }

def minted : List Call :=
  [⟨{ sender := 1 }, .setVaultManager 2⟩, ⟨{ sender := 2 }, .mint 3 10⟩]

def traded : List Call :=
  minted ++ [⟨{ sender := 3 }, .approve 4 7⟩, ⟨{ sender := 4 }, .transferFrom 3 5 6⟩]

end Sample

theorem supply_conserved_traded :
    let s := run step Sample.traded Sample.deployed
    ∑ a, (s.balances a).toNat = 10 ∧ s.balances 5 = 6 := by
  obtain ⟨hs, _⟩ := supply_conserved (rfl : State.new 1 = .ok Sample.deployed) Sample.traded
  exact ⟨hs.trans (by decide), by decide⟩

end Ethereum.Token
