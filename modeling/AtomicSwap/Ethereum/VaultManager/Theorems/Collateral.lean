import AtomicSwap.Library.Except
import AtomicSwap.Ethereum.VaultManager.Theorems.Custody

open Reentrant Function Code

namespace Ethereum.VaultManager

variable {d : Deployment} {block : Block} {feeds : Address → Bytes32} {asset : Address}

section Ratio

variable {c c' debt debt' w e r : Uint256}

-- The prices and decimals that a ratio is computed from.
structure Quote (block : Block) (feeds : Address → Bytes32) (asset : Address) where
  collateralPrice : Uint256
  xmrPrice        : Uint256
  decimals        : ℕ
  collateral_eq   : getCollateralPrice block feeds asset = .ok collateralPrice
  xmr_eq          : getXmrPrice block = .ok xmrPrice
  decimals_eq     : getDecimals block asset = .ok decimals

namespace Quote

variable (q : Quote block feeds asset)

def collateralValue (c : Uint256) : ℕ := c.toNat * q.collateralPrice.toNat / 10 ^ q.decimals
def debtValue (debt : Uint256) : ℕ := debt.toNat * q.xmrPrice.toNat / 10 ^ 8

-- The computation of the ratio neither overflows nor divides by zero.
structure Fits (c debt : Uint256) : Prop where
  decimals   : 10 ^ q.decimals < 2 ^ 256
  collateral : c.toNat * q.collateralPrice.toNat < 2 ^ 256
  owed       : debt.toNat * q.xmrPrice.toNat < 2 ^ 256
  ratio      : q.collateralValue c * 100 < 2 ^ 256
  debtValue  : q.debtValue debt ≠ 0

end Quote

theorem toNat_ten : (10 : Uint256).toNat = 10 := rfl
theorem toNat_unit : ((10 ^ 8 : Uint256)).toNat = 10 ^ 8 := rfl
theorem toNat_ratioPrecision : ratioPrecision.toNat = 100 := rfl

theorem calculateCollateralRatio_eq_ok (hd : debt ≠ 0) :
    calculateCollateralRatio block feeds asset c debt = .ok r ↔
    ∃ q : Quote block feeds asset, q.Fits c debt ∧
      r.toNat = q.collateralValue c * 100 / q.debtValue debt := by
  simp only [calculateCollateralRatio, if_neg hd, Except.bind_ok_iff, Uint256.mul_eq_ok,
    Uint256.div_eq_ok, Uint256.pow_eq_ok, toNat_ten, toNat_unit, toNat_ratioPrecision]
  constructor
  case mp =>
    rintro ⟨p, hp, x, hx, n, hn, m₁, h₁, t, ht, v, ⟨_, hv⟩, m₂, h₂, u, ⟨_, hu⟩, m₃, h₃, hu₀, hr⟩
    rw [h₁, ht] at hv
    rw [h₂] at hu
    rw [hv] at h₃
    rw [hu] at hu₀
    refine ⟨⟨p, x, n, hp, hx, hn⟩, ⟨ht ▸ t.isLt, h₁ ▸ m₁.isLt, h₂ ▸ m₂.isLt, h₃ ▸ m₃.isLt, hu₀⟩, ?_⟩
    rw [hr, h₃, hu]
    rfl
  case mpr =>
    rintro ⟨q, hq, hr⟩
    obtain ⟨m₁, h₁⟩ := Uint256.exists_toNat hq.collateral
    obtain ⟨m₂, h₂⟩ := Uint256.exists_toNat hq.owed
    obtain ⟨m₃, h₃⟩ := Uint256.exists_toNat hq.ratio
    obtain ⟨t, ht⟩ := Uint256.exists_toNat hq.decimals
    obtain ⟨v, hv⟩ : ∃ v : Uint256, v.toNat = q.collateralValue c :=
      Uint256.exists_toNat <| (Nat.div_le_self ..).trans_lt hq.collateral
    obtain ⟨u, hu⟩ : ∃ u : Uint256, u.toNat = q.debtValue debt :=
      Uint256.exists_toNat <| (Nat.div_le_self ..).trans_lt hq.owed
    refine ⟨_, q.collateral_eq, _, q.xmr_eq, _, q.decimals_eq, m₁, h₁, t, ht, v, ⟨?_, ?_⟩, m₂, h₂,
      u, ⟨by decide, ?_⟩, m₃, ?_, ?_, ?_⟩
    · rw [ht]; exact pow_ne_zero _ <| by decide
    · rw [hv, h₁, ht]; rfl
    · rw [hu, h₂]; rfl
    · rw [h₃, hv]
    · rw [hu]; exact hq.debtValue
    · rw [hr, h₃, hu]

-- A position that has at least the collateral it needs.
def Healthy (block : Block) (feeds : Address → Bytes32) (asset : Address) (c debt : Uint256) :
    Prop :=
  ∃ r, calculateCollateralRatio block feeds asset c debt = .ok r ∧ collateralRatio ≤ r

instance : Decidable (Healthy block feeds asset c debt) :=
  Except.decidableExistsOk

theorem healthy_iff (hd : debt ≠ 0) :
    Healthy block feeds asset c debt ↔
    ∃ q : Quote block feeds asset, q.Fits c debt ∧
      150 * q.debtValue debt ≤ q.collateralValue c * 100 := by
  have le_iff {r : Uint256} {q : Quote block feeds asset} (hq : q.Fits c debt)
      (hr : r.toNat = q.collateralValue c * 100 / q.debtValue debt) :
      collateralRatio ≤ r ↔ 150 * q.debtValue debt ≤ q.collateralValue c * 100 := by
    rw [← Nat.le_div_iff_mul_le <| Nat.pos_of_ne_zero hq.debtValue, ← hr]
    exact .rfl
  constructor
  case mp =>
    intro ⟨r, hr, hl⟩
    have ⟨q, hq, hr⟩ := calculateCollateralRatio_eq_ok hd |>.mp hr
    exact ⟨q, hq, le_iff hq hr |>.mp hl⟩
  case mpr =>
    intro ⟨q, hq, hl⟩
    have ⟨r, hr⟩ := Uint256.exists_toNat <|
      (Nat.div_le_self (q.collateralValue c * 100) (q.debtValue debt)).trans_lt hq.ratio
    exact ⟨r, calculateCollateralRatio_eq_ok hd |>.mpr ⟨q, hq, hr⟩, le_iff hq hr |>.mpr hl⟩

instance : Subsingleton (Quote block feeds asset) where
  allEq q₁ q₂ := by
    have hc := q₁.collateral_eq.symm.trans q₂.collateral_eq
    have hx := q₁.xmr_eq.symm.trans q₂.xmr_eq
    have hn := q₁.decimals_eq.symm.trans q₂.decimals_eq
    cases q₁
    cases q₂
    simp_all

-- More collateral does no harm, as long as the ratio can be computed.
theorem Healthy.more (h : Healthy block feeds asset c debt) (hc : c.toNat ≤ c'.toNat)
    (hr : calculateCollateralRatio block feeds asset c' debt = .ok r) :
    Healthy block feeds asset c' debt := by
  by_cases hd : debt = 0
  case pos => simpa [Healthy, hd, calculateCollateralRatio] using h
  case neg =>
    obtain ⟨q, hq, hl⟩ := healthy_iff hd |>.mp h
    obtain ⟨q', hq', _⟩ := calculateCollateralRatio_eq_ok hd |>.mp hr
    have he := Subsingleton.elim q' q
    subst he
    refine healthy_iff hd |>.mpr ⟨q', hq', hl.trans ?_⟩
    exact Nat.mul_le_mul_right _ <| Nat.div_le_div_right <| Nat.mul_le_mul_right _ hc

theorem collateralFor_eq {ratio : Uint256} (h : collateralFor block feeds asset w ratio = .ok e) :
    ∃ q : Quote block feeds asset, q.collateralPrice.toNat ≠ 0 ∧
      e.toNat = q.debtValue w * ratio.toNat / 100 * 10 ^ q.decimals / q.collateralPrice.toNat := by
  simp only [collateralFor, getCollateralValueForDebt, usdToCollateral, Except.bind_ok_iff,
    Uint256.mul_eq_ok, Uint256.div_eq_ok, Uint256.pow_eq_ok, toNat_ten, toNat_unit,
    toNat_ratioPrecision] at h
  obtain ⟨v, ⟨x, hx, m₁, h₁, _, hv⟩, m₂, h₂, u, ⟨_, hu⟩, p, hp, n, hn, t, ht, m₃, h₃, hp₀, he⟩ := h
  refine ⟨⟨p, x, n, hp, hx, hn⟩, hp₀, ?_⟩
  rw [he, h₃, hu, ht, h₂, hv, h₁]
  rfl

theorem collateralFor_eq_ok {ratio : Uint256} (h : collateralFor block feeds asset w ratio = .ok e)
    (q : Quote block feeds asset) :
    ∃ usd, 100 * usd ≤ ratio.toNat * q.debtValue w ∧
      e.toNat * q.collateralPrice.toNat ≤ usd * 10 ^ q.decimals := by
  obtain ⟨q', _, he⟩ := collateralFor_eq h
  obtain rfl : q' = q := Subsingleton.elim q' q
  refine ⟨q'.debtValue w * ratio.toNat / 100, ?_, ?_⟩
  · rw [Nat.mul_comm ratio.toNat]
    exact Nat.mul_div_le ..
  · rw [he]
    exact Nat.div_mul_le_self ..

-- The values that are compared after debt is cleared for collateral. A vault keeps a ratio `m` if
-- the part `k` of the debt's value that is taken from its collateral is no larger.
theorem Quote.reduce_values {q : Quote block feeds asset} {usd k m : ℕ} (hk : k ≤ m)
    (hu : 100 * usd ≤ k * q.debtValue w)
    (he : e.toNat * q.collateralPrice.toNat ≤ usd * 10 ^ q.decimals)
    (hc : e.toNat + c'.toNat = c.toNat) (hw : w.toNat + debt'.toNat = debt.toNat)
    (hl : m * q.debtValue debt ≤ q.collateralValue c * 100) :
    m * q.debtValue debt' ≤ q.collateralValue c' * 100 := by
  have hd : q.debtValue w + q.debtValue debt' ≤ q.debtValue debt := by
    simp only [debtValue, ← hw, Nat.add_mul]
    exact Nat.div_add_div_le_add_div
  have hv : q.collateralValue c ≤ usd + q.collateralValue c' := by
    calc q.collateralValue c
      _ = (e.toNat * q.collateralPrice.toNat + c'.toNat * q.collateralPrice.toNat) /
          10 ^ q.decimals := by
        rw [collateralValue, ← hc, Nat.add_mul]
      _ ≤ (usd * 10 ^ q.decimals + c'.toNat * q.collateralPrice.toNat) / 10 ^ q.decimals :=
        Nat.div_le_div_right <| Nat.add_le_add_right he _
      _ = usd + q.collateralValue c' := by
        rw [Nat.add_comm, Nat.add_mul_div_right _ _ (by positivity), Nat.add_comm]; rfl
  have hm : m * q.debtValue w + m * q.debtValue debt' ≤ m * q.debtValue debt := by
    rw [← Nat.mul_add]
    exact Nat.mul_le_mul_left _ hd
  have hk : k * q.debtValue w ≤ m * q.debtValue w := Nat.mul_le_mul_right _ hk
  omega

theorem Quote.Fits.reduce {q : Quote block feeds asset} (h : q.Fits c debt)
    (hc : c'.toNat ≤ c.toNat) (hd : debt'.toNat ≤ debt.toNat) (hv : q.debtValue debt' ≠ 0) :
    q.Fits c' debt' where
  decimals   := h.decimals
  collateral := (Nat.mul_le_mul_right _ hc).trans_lt h.collateral
  owed       := (Nat.mul_le_mul_right _ hd).trans_lt h.owed
  debtValue  := hv
  ratio      := by
    have hcv : q.collateralValue c' ≤ q.collateralValue c :=
      Nat.div_le_div_right <| Nat.mul_le_mul_right _ hc
    exact (Nat.mul_le_mul_right _ hcv).trans_lt h.ratio

theorem Quote.debtValue_ne_zero (q : Quote block feeds asset)
    (hv : getCollateralValueForDebt block debt = .ok r) (hr : r ≠ 0) : q.debtValue debt ≠ 0 := by
  simp only [getCollateralValueForDebt, q.xmr_eq, Except.bind_ok_iff, Except.ok.injEq,
    exists_eq_left', Uint256.mul_eq_ok, Uint256.div_eq_ok, toNat_unit] at hv
  obtain ⟨m, hm, _, hv⟩ := hv
  intro h₀
  exact hr <| BitVec.eq_of_toNat_eq <| by rw [hv, hm]; exact h₀

-- A debt is cleared for the part `k` of its value. This does not lower a ratio that is not below
-- `k`.
theorem ratio_le_of_cleared {k e' : Uint256}
    (hr : calculateCollateralRatio block feeds asset c debt = .ok r) (hd : debt ≠ 0)
    (hb : r = 0 ∨ k ≤ r) (hf : collateralFor block feeds asset w k = .ok e')
    (he : e.toNat ≤ e'.toNat) (hc : e.toNat + c'.toNat = c.toNat)
    (hw : w.toNat + debt'.toNat = debt.toNat)
    (hu : ∃ u, getCollateralValueForDebt block debt' = .ok u ∧ u ≠ 0) :
    ∃ r', calculateCollateralRatio block feeds asset c' debt' = .ok r' ∧ r ≤ r' := by
  obtain ⟨u, hu, hn⟩ := hu
  obtain ⟨q, hq, hr⟩ := calculateCollateralRatio_eq_ok hd |>.mp hr
  obtain ⟨usd, hp, hs⟩ := collateralFor_eq_ok hf q
  have hv : q.debtValue debt' ≠ 0 := q.debtValue_ne_zero hu hn
  have hd' : debt' ≠ 0 := by
    intro hd
    simp [Quote.debtValue, hd] at hv
  have hl : r.toNat * q.debtValue debt ≤ q.collateralValue c * 100 := by
    rw [hr]
    exact Nat.div_mul_le_self ..
  have hl' : r.toNat * q.debtValue debt' ≤ q.collateralValue c' * 100 := by
    cases hb
    case inl hz => simp [hz]
    case inr hb => exact q.reduce_values hb hp ((Nat.mul_le_mul_right _ he).trans hs) hc hw hl
  have hf' : q.Fits c' debt' := hq.reduce (by omega) (by omega) hv
  obtain ⟨r', hr'⟩ := Uint256.exists_toNat <|
    (Nat.div_le_self (q.collateralValue c' * 100) (q.debtValue debt')).trans_lt hf'.ratio
  refine ⟨r', calculateCollateralRatio_eq_ok hd' |>.mpr ⟨q, hf', hr'⟩, ?_⟩
  rw [BitVec.le_def, hr', Nat.le_div_iff_mul_le <| Nat.pos_of_ne_zero hv]
  exact hl'

-- The collateral that a burn puts in escrow is worth less than the debt it clears needs.
theorem Healthy.burn (h : Healthy block feeds asset c debt)
    (he : collateralFor block feeds asset w liquidationRatio = .ok e)
    (hc : e.toNat + c'.toNat = c.toNat) (hw : w.toNat + debt'.toNat = debt.toNat)
    (hv : getCollateralValueForDebt block debt' = .ok r) (hr : r ≠ 0) (hd' : debt' ≠ 0) :
    Healthy block feeds asset c' debt' := by
  have hd : debt ≠ 0 := by
    intro hd
    subst hd
    exact hd' <| BitVec.eq_of_toNat_eq <| by simp at hw ⊢; omega
  obtain ⟨q, hq, hl⟩ := healthy_iff hd |>.mp h
  obtain ⟨usd, hu, hp⟩ := collateralFor_eq_ok he q
  have hf : q.Fits c' debt' := hq.reduce (by omega) (by omega) (q.debtValue_ne_zero hv hr)
  exact healthy_iff hd' |>.mpr ⟨q, hf, q.reduce_values (by decide) hu hp hc hw hl⟩

-- The ratio depends on the prices and decimals only.
theorem healthy_congr {block' : Block} (hp : block.price = block'.price)
    (hd : block.decimals = block'.decimals) :
    Healthy block feeds asset c debt ↔ Healthy block' feeds asset c debt := by
  simp only [Healthy, calculateCollateralRatio, getXmrPrice, getCollateralPrice, getPrice,
    getDecimals, hp, hd]

end Ratio

section Step

variable {s s' : State} {msg : Msg} {lp : Address} {v : Vault} {id secret : Bytes32}
  {amount : Uint256}

def Vault.Healthy (block : Block) (feeds : Address → Bytes32) (v : Vault) : Prop :=
  v.active → v.debtAmount ≠ 0 →
    VaultManager.Healthy block feeds v.collateralAsset v.collateralAmount v.debtAmount

def State.Healthy (block : Block) (s : State) : Prop :=
  ∀ lp, (s.vaults lp).Healthy block s.collateralPriceFeeds

-- What a call must meet for the vault that it changes. Only `finalizeMint` lacks a check that the
-- code could make: the collateral has to suffice for the debt it adds. The other conditions exclude
-- that the ratio cannot be computed any more.
def Call.Prudent (block : Block) (s : State) : Call → Prop
  | depositCollateral msg amount =>
    let vault := s.vaults msg.sender
    vault.debtAmount = 0 ∨ ∃ r, calculateCollateralRatio block s.collateralPriceFeeds
      vault.collateralAsset (vault.collateralAmount + amount) vault.debtAmount = .ok r
  | finalizeMint _ requestId _ =>
    let request := s.mintRequests requestId
    let vault := s.vaults request.lpVault
    VaultManager.Healthy block s.collateralPriceFeeds vault.collateralAsset vault.collateralAmount
      (vault.debtAmount + request.wsxmrAmount)
  | initiateBurn _ wsxmrAmount lpVault _ =>
    let vault := s.vaults lpVault
    vault.debtAmount = wsxmrAmount ∨
    ∃ r, getCollateralValueForDebt block (vault.debtAmount - wsxmrAmount) = .ok r ∧ r ≠ 0
  | finalizeBurn _ requestId _ =>
    let request := s.burnRequests requestId
    let vault := s.vaults request.lpVault
    vault.debtAmount = 0 ∨ ∃ r, calculateCollateralRatio block s.collateralPriceFeeds
      vault.collateralAsset (vault.collateralAmount + request.escrowedCollateral) vault.debtAmount =
      .ok r
  | _ => True

instance : DecidablePred (Call.Prudent block s)
  -- The instances for finite types would try every `r`.
  | .depositCollateral .. | .finalizeBurn .. => @instDecidableOr _ _ _ Except.decidableIsOk
  | .initiateBurn .. => @instDecidableOr _ _ _ Except.decidableExistsOk
  | .finalizeMint .. => inferInstanceAs <| Decidable (VaultManager.Healthy ..)
  | .createVault .. | .withdrawCollateral .. | .initiateMint .. | .setMintReady .. | .cancelMint ..
  | .claimSlashedCollateral .. | .liquidate .. | .addCollateralSupport ..
  | .removeCollateralSupport .. | .transferOwnership .. | .renounceOwnership .. | .outside ..
  | .manage .. => .isTrue trivial

def Call.isAdmin : Call → Bool
  | addCollateralSupport .. | removeCollateralSupport .. | transferOwnership ..
  | renounceOwnership .. => true
  | _ => false

theorem State.Healthy.frame (h : s.Healthy block) (hv : s'.vaults = s.vaults)
    (hf : s'.collateralPriceFeeds = s.collateralPriceFeeds) : s'.Healthy block := by
  rw [Healthy, hv, hf]
  exact h

theorem State.Healthy.update (h : s.Healthy block) (hv : s'.vaults = update s.vaults lp v)
    (hf : s'.collateralPriceFeeds = s.collateralPriceFeeds)
    (hh : v.Healthy block s.collateralPriceFeeds) : s'.Healthy block := by
  intro lp'
  rw [hv, hf]
  by_cases hl : lp' = lp
  case pos => subst hl; simpa using hh
  case neg => simpa [hl] using h lp'

theorem sendCollateral_unchanged {dst : Address} {Q : Unit → State → Prop}
    (h : ∀ balances, Q () { s with balances }) :
    wp (· = ·) (sendCollateral d asset dst amount) Q (fun _ => True) s := by
  have := h s.balances
  simp +contextual [sendCollateral, h]

theorem takeCollateral_unchanged {Q : Unit → State → Prop}
    (h : ∀ balances, Q () { s with balances }) :
    wp (· = ·) (takeCollateral d msg asset amount) Q (fun _ => True) s := by
  have := h s.balances
  simp +contextual [takeCollateral, safeTransferFrom, h]

theorem depositCollateral_healthy (h : s.Healthy block)
    (hc : Call.Prudent block s <| .depositCollateral msg amount) :
    wp (· = ·) (depositCollateral d msg amount) (fun _ => State.Healthy block) (fun _ => True)
      s := by
  simp only [depositCollateral, nonReentrant, setEntered, addCollateral, setVault, emit, wp_bind,
    wp_get, wp_revertIf, wp_modify, implies_true, true_and]
  intro _ ha _
  apply takeCollateral_unchanged
  intro balances
  simp only [wp_bind, wp_get, wp_lift, wp_modify, implies_true, and_true, Uint256.add_eq_ok]
  intro n hn
  refine h.update rfl rfl fun ha' hd => ?_
  have ⟨r, hr⟩ := hc.resolve_left hd
  have he : (s.vaults msg.sender).collateralAmount + amount = n := by bv_omega
  rw [he] at hr
  exact (h _ ha' hd).more (by dsimp only; omega) hr

theorem withdrawCollateral_healthy (h : s.Healthy block) :
    wp (· = ·) (withdrawCollateral d block msg amount) (fun _ => State.Healthy block)
      (fun _ => True) s := by
  simp only [withdrawCollateral, nonReentrant, setEntered, checkWithdrawal, requireRatio, setVault,
    emit, wp_bind, wp_get, wp_revertIf, wp_modify, wp_lift, wp_ite, wp_pure, implies_true, true_and,
    and_true]
  intro _ _ _ _ n _
  refine ⟨fun _ r hr hl => ?_, fun hd => ?_⟩
  all_goals
    apply sendCollateral_unchanged
    intro balances
    rw [wp_modify]
    refine h.update rfl rfl fun _ hd' => ?_
  · exact ⟨r, hr, by bv_omega⟩
  · exact absurd (by dsimp only; bv_omega) hd'

theorem finalizeMint_healthy (h : s.Healthy block)
    (hc : Call.Prudent block s <| .finalizeMint msg id secret) :
    wp (· = ·) (finalizeMint d id secret) (fun _ => State.Healthy block) (fun _ => True) s := by
  simp only [finalizeMint, nonReentrant, setEntered, verifySecret, setVault, mint, setMintRequest,
    emit, wp_bind, wp_get, wp_revertIf, wp_modify, wp_lift, implies_true, true_and, and_true,
    Uint256.add_eq_ok]
  intro _ _ _ n hn _ _ _
  refine h.update rfl rfl fun _ _ => ?_
  have he :
      (s.vaults (s.mintRequests id).lpVault).debtAmount + (s.mintRequests id).wsxmrAmount = n := by
    bv_omega
  rw [← he]
  exact hc

theorem initiateBurn_healthy {commitment : Bytes32} (h : s.Healthy block)
    (hc : Call.Prudent block s <| .initiateBurn msg amount lp commitment) :
    wp (· = ·) (initiateBurn d block msg amount lp commitment) (fun _ => State.Healthy block)
      (fun _ => True) s := by
  simp only [initiateBurn, reduceVault, setVault, burn, setBurnRequest, emit, wp_bind, wp_get,
    wp_revertIf, wp_modify, wp_lift, wp_pure, implies_true, true_and, and_true, Uint256.sub_eq_ok]
  intro hz _ _ ha _ _ _ e he _ _ n hn m hm _ _ _
  refine h.update rfl rfl fun ha' hd => ?_
  have hd₀ : (s.vaults lp).debtAmount ≠ 0 := by bv_omega
  obtain ⟨r, hr, hr₀⟩ := hc.resolve_left <| by dsimp only at hd; bv_omega
  have hm' : (s.vaults lp).debtAmount - amount = m := by bv_omega
  exact (h lp ha' hd₀).burn he hn hm (hm' ▸ hr) hr₀ hd

theorem finalizeBurn_healthy (h : s.Healthy block)
    (hc : Call.Prudent block s <| .finalizeBurn msg id secret) :
    wp (· = ·) (finalizeBurn d block id secret) (fun _ => State.Healthy block) (fun _ => True)
      s := by
  simp only [finalizeBurn, nonReentrant, setEntered, verifySecret, addCollateral, setVault,
    setBurnRequest, emit, wp_bind, wp_get, wp_revertIf, wp_modify, wp_lift, implies_true, true_and,
    and_true, Uint256.add_eq_ok]
  intro _ _ _ _ n hn
  refine h.update rfl rfl fun ha hd => ?_
  obtain ⟨r, hr⟩ := hc.resolve_left hd
  have he : (s.vaults (s.burnRequests id).lpVault).collateralAmount +
      (s.burnRequests id).escrowedCollateral = n := by bv_omega
  rw [he] at hr
  exact (h _ ha hd).more (by dsimp only; omega) hr

-- A healthy vault cannot be liquidated.
theorem liquidate_healthy (h : s.Healthy block) :
    wp (· = ·) (liquidate d block msg lp amount) (fun _ => State.Healthy block) (fun _ => True)
      s := by
  simp only [liquidate, nonReentrant, setEntered, wp_bind, wp_get, wp_revertIf, wp_modify, wp_lift,
    implies_true, true_and, and_true, Decidable.not_not]
  intro _ ha _ hd r hr hl
  obtain ⟨r', hr', hl'⟩ := h lp ha hd
  have he : r' = r := by simpa using hr'.symm.trans hr
  have hc : liquidationRatio ≤ r := he ▸ BitVec.le_trans (by decide) hl'
  exact absurd hc hl

theorem dispatch_healthy {c : Call} (h : s.Healthy block) (hc : c.Prudent block s)
    (ha : c.isAdmin = false) :
    wp (· = ·) (dispatch d block c) (fun _ => State.Healthy block) (fun _ => True) s := by
  cases c
  case depositCollateral  => exact depositCollateral_healthy h hc
  case withdrawCollateral => exact withdrawCollateral_healthy h
  case finalizeMint       => exact finalizeMint_healthy h hc
  case initiateBurn       => rw [dispatch, wp_bind]; exact initiateBurn_healthy h hc
  case finalizeBurn       => exact finalizeBurn_healthy h hc
  case liquidate          => exact liquidate_healthy h
  case createVault =>
    simp only [dispatch, createVault, setVault, emit, wp_bind, wp_get, wp_revertIf, wp_modify,
      implies_true, true_and]
    exact fun _ _ => h.update rfl rfl fun _ hd => absurd rfl hd
  case claimSlashedCollateral =>
    simp only [dispatch, claimSlashedCollateral, nonReentrant, setEntered, wp_bind, wp_get,
      wp_revertIf, wp_modify, implies_true, true_and]
    intro _ _ _ _
    apply sendCollateral_unchanged
    intro balances
    exact h.frame rfl rfl
  case initiateMint =>
    simp only [dispatch, initiateMint, requireRatio, setMintRequest, emit, wp_bind, wp_get,
      wp_revertIf, wp_modify, wp_lift, wp_pure, implies_true, true_and, and_true]
    exact fun _ _ _ _ _ _ _ _ _ _ _ _ _ _ => h.frame rfl rfl
  case setMintReady =>
    simp only [dispatch, setMintReady, setMintRequest, emit, wp_bind, wp_get, wp_revertIf,
      wp_modify, implies_true, true_and]
    exact fun _ _ => h.frame rfl rfl
  case cancelMint =>
    simp only [dispatch, cancelMint, setMintRequest, emit, wp_bind, wp_get, wp_revertIf, wp_modify,
      wp_lift, implies_true, true_and, and_true]
    exact fun _ _ _ _ _ => h.frame rfl rfl
  case outside =>
    simp only [dispatch, wp_bind, wp_get, wp_revertIf, wp_modify, implies_true, true_and]
    exact fun _ => h.frame rfl rfl
  case manage =>
    simp only [dispatch, wp_bind, wp_get, wp_revertIf, wp_modify, implies_true, true_and]
    exact fun _ => h.frame rfl rfl
  all_goals simp [Call.isAdmin] at ha

theorem step_healthy {c : Call} (h : s.Healthy block) (hc : c.Prudent block s)
    (ha : c.isAdmin = false) :
    wp (· = ·) (step d block c) (fun _ => State.Healthy block) (fun _ => True) s := by
  simp only [step]
  split
  case h_1 =>
    simp only [payable, wp_bind, wp_get, wp_revertIf, wp_modify, implies_true, true_and]
    intro _
    have h' : ∀ l, State.Healthy block { s with balances := l } := fun _ => h.frame rfl rfl
    exact dispatch_healthy (h' _) hc ha
  case h_2 =>
    simp only [nonpayable, wp_bind, wp_revertIf, implies_true, true_and]
    exact fun _ => dispatch_healthy h hc ha

end Step

section Run

-- States that are reached by successful calls, each of which meets `P`.
inductive Run (d : Deployment) (P : Block → State → Call → Prop) (s₀ : State) : State → Prop
  | start : Run d P s₀ s₀
  | call {s s' : State} {block : Block} {c : Call} :
    Run d P s₀ s → P block s c → exec (step d block) ⟨c, []⟩ s = .ok s' → Run d P s₀ s'

-- A call of one of the vault, mint, burn and liquidation functions at given prices.
structure Call.At (b block : Block) (c : Call) : Prop where
  price    : block.price = b.price
  decimals : block.decimals = b.decimals
  notAdmin : c.isAdmin = false

variable {b : Block} {s : State} {owner tokenManager : Address} {totalSupply : Uint256}
  {balances : Ledger Address Address}

theorem run_healthy
    (h : Run d (fun block s c => c.At b block ∧ c.Prudent block s)
      (.constructed d owner tokenManager totalSupply balances) s) : s.Healthy b := by
  induction h
  case start => exact fun lp ha => by simp [State.constructed] at ha
  case call s s' block c _ hp hs hi =>
    obtain ⟨⟨hb, hd, ha⟩, hc⟩ := hp
    have congr (s : State) : s.Healthy block ↔ s.Healthy b := by
      simp only [State.Healthy, Vault.Healthy, healthy_congr hb hd]
    exact congr s' |>.mp <| exec_nil_wp (step_healthy (congr s |>.mpr hi) hc ha) hs

-- At constant prices every vault with a debt keeps the ratio that the code asks for.
theorem collateralization {lp : Address}
    (h : Run d (fun block s c => c.At b block ∧ c.Prudent block s)
      (.constructed d owner tokenManager totalSupply balances) s)
    (ha : (s.vaults lp).active) (hd : (s.vaults lp).debtAmount ≠ 0) :
    ∃ r, calculateCollateralRatio b s.collateralPriceFeeds (s.vaults lp).collateralAsset
        (s.vaults lp).collateralAmount (s.vaults lp).debtAmount = .ok r ∧ collateralRatio ≤ r :=
  run_healthy h lp ha hd

-- The last state of a run that is given by its calls, if they succeed and pass the test `p`.
def runCalls (d : Deployment) (p : Block → State → Call → Bool) :
    List (Block × Call) → State → Option State
  | [],              s => some s
  | ⟨block, c⟩ :: cs, s =>
    if p block s c then
      match exec (step d block) ⟨c, []⟩ s with
      | .ok s'   => runCalls d p cs s'
      | .error _ => none
    else none

theorem Run.of_runCalls {P : Block → State → Call → Prop} {p : Block → State → Call → Bool}
    {s₀ s' : State} {cs : List (Block × Call)} (hr : Run d P s₀ s)
    (hp : ∀ tx ∈ cs, ∀ s, p tx.fst s tx.snd → P tx.fst s tx.snd)
    (h : runCalls d p cs s = some s') : Run d P s₀ s' := by
  induction cs generalizing s
  case nil =>
    simp only [runCalls, Option.some.injEq] at h
    exact h ▸ hr
  case cons tx cs hi =>
    simp only [runCalls, Option.ite_none_right_eq_some] at h
    have ⟨hc, h⟩ := h
    split at h
    case h_1 s₁ hs =>
      exact hi (.call hr (hp tx (by simp) s hc) hs) (fun tx' ht => hp tx' (by simp [ht])) h
    case h_2 => simp at h

namespace Sample

def deposited : List (Block × Call) :=
  [(blockAt 1000 1, .createVault ⟨provider, 0⟩ native),
   (blockAt 1000 1, .depositCollateral ⟨provider, 300 * 10 ^ 18⟩ (300 * 10 ^ 18)),
   (blockAt 1000 1, .initiateMint ⟨user, 0⟩ provider (10 ^ 12) commitment 3600)]

def oneMint : List (Block × Call) :=
  deposited ++
  [(blockAt 1012 2, .setMintReady ⟨provider, 0⟩ firstID),
   (blockAt 1012 2, .finalizeMint ⟨user, 0⟩ firstID 1)]

-- Two mints for which the vault has collateral, but not for both together.
def twoMints : List (Block × Call) :=
  deposited ++
  [(blockAt 1012 2, .initiateMint ⟨user, 0⟩ provider (10 ^ 12) commitment 3600),
   (blockAt 1012 2, .setMintReady ⟨provider, 0⟩ firstID),
   (blockAt 1012 2, .setMintReady ⟨provider, 0⟩ secondID),
   (blockAt 1012 2, .finalizeMint ⟨user, 0⟩ firstID 1),
   (blockAt 1012 2, .finalizeMint ⟨user, 0⟩ secondID 1)]

def ratio (s : State) : Except (Revert Error) Uint256 :=
  calculateCollateralRatio (blockAt 1000 1) s.collateralPriceFeeds
    (s.vaults provider).collateralAsset (s.vaults provider).collateralAmount
    (s.vaults provider).debtAmount

-- The provider's debt and ratio after a run.
def Minted (p : Block → State → Call → Bool) (cs : List (Block × Call)) (debt r : Uint256) : Prop :=
  (runCalls deployment p cs initial).map (fun s =>
    ((s.vaults provider).active, (s.vaults provider).debtAmount, (ratio s).toOption)) =
  some (true, debt, some r)

theorem Minted.exists {p : Block → State → Call → Bool} {cs : List (Block × Call)}
    {debt r : Uint256} (h : Minted p cs debt r) :
    ∃ s, runCalls deployment p cs initial = some s ∧ (s.vaults provider).active ∧
      (s.vaults provider).debtAmount = debt ∧ ratio s = .ok r := by
  simp only [Minted, Option.map_eq_some_iff, Prod.mk.injEq] at h
  have ⟨s, hs, ha, hd, hr⟩ := h
  refine ⟨s, hs, ha, hd, ?_⟩
  cases hq : ratio s <;> simp_all [Except.toOption]

end Sample

theorem collateralization_oneMint :
    ∃ s, (s.vaults Sample.provider).debtAmount = 10 ^ 8 ∧
      ∃ r, Sample.ratio s = .ok r ∧ collateralRatio ≤ r := by
  have h : Sample.Minted (fun block s c => c.Prudent block s) Sample.oneMint (10 ^ 8) 200 := by
    unfold Sample.Minted
    decide
  obtain ⟨s, hs, ha, hd, _⟩ := h.exists
  refine ⟨s, hd, collateralization (.of_runCalls .start ?_ hs) ha (hd ▸ by decide)⟩
  simp only [Sample.oneMint, Sample.deposited, List.cons_append, List.nil_append, List.mem_cons,
    List.not_mem_nil, or_false, forall_eq_or_imp, forall_eq, decide_eq_true_eq]
  refine ⟨?_, ?_, ?_, ?_, ?_⟩ <;> exact fun _ h => ⟨⟨rfl, rfl, rfl⟩, h⟩

theorem undercollateralized :
    ∃ s, Run Sample.deployment (fun block _ c => c.At (Sample.blockAt 1000 1) block)
        Sample.initial s ∧
      (s.vaults Sample.provider).active ∧ (s.vaults Sample.provider).debtAmount = 2 * 10 ^ 8 ∧
      Sample.ratio s = .ok 100 := by
  have h : Sample.Minted (fun _ _ _ => true) Sample.twoMints (2 * 10 ^ 8) 100 := by
    unfold Sample.Minted
    decide
  obtain ⟨s, hs, ha, hd, hr⟩ := h.exists
  refine ⟨s, .of_runCalls .start ?_ hs, ha, hd, hr⟩
  simp only [Sample.twoMints, Sample.deposited, List.cons_append, List.nil_append, List.mem_cons,
    List.not_mem_nil, or_false, forall_eq_or_imp, forall_eq]
  refine ⟨?_, ?_, ?_, ?_, ?_, ?_, ?_, ?_⟩ <;> exact fun _ _ => ⟨rfl, rfl, rfl⟩

end Run

end Ethereum.VaultManager
