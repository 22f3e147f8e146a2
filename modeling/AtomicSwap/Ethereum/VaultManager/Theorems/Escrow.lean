import AtomicSwap.Ethereum.VaultManager.Theorems.Liquidations

open Reentrant Function Code

namespace Ethereum.VaultManager

variable {d : Deployment} {block : Block} {feeds : Address → Bytes32} {asset : Address} {msg : Msg}
  {lp : Address} {w r : Uint256} {refundCommitment : Bytes32}
  {s s' : State}

-- A burn that succeeds. The code hands over no control, so there is nothing to reply to.
def Burns (d : Deployment) (block : Block) (msg : Msg) (w : Uint256) (lp : Address)
    (refundCommitment : Bytes32) (s s' : State) : Prop :=
  ∃ fs, (step d block (.initiateBurn msg w lp refundCommitment) s).run fs = .ok s'

-- The request that a burn leaves behind.
def burnRequest (d : Deployment) (block : Block) (msg : Msg) (w : Uint256) (lp : Address)
    (refundCommitment : Bytes32) (s : State) : BurnRequest :=
  s.burnRequests <| requestID d block msg.sender lp w refundCommitment

-- What a burn makes of the vault and of the request.
structure Burned (block : Block) (feeds : Address → Bytes32) (w : Uint256) (v v' : Vault)
    (request : BurnRequest) : Prop where
  asset      : v'.collateralAsset = v.collateralAsset
  debt       : v.debtAmount ≠ 0
  escrow     : collateralFor block feeds v.collateralAsset w liquidationRatio =
    .ok request.escrowedCollateral
  collateral : request.escrowedCollateral.toNat + v'.collateralAmount.toNat =
    v.collateralAmount.toNat
  owed       : w.toNat + v'.debtAmount.toNat = v.debtAmount.toNat

theorem initiateBurn_burned {R : State → State → Prop} :
    wp R (step d block <| .initiateBurn msg w lp refundCommitment)
      (fun _ s' => s'.collateralPriceFeeds = s.collateralPriceFeeds ∧
        Burned block s.collateralPriceFeeds w (s.vaults lp) (s'.vaults lp)
          (burnRequest d block msg w lp refundCommitment s'))
      (fun _ => True) s := by
  simp only [step, nonpayable, dispatch, initiateBurn, reduceVault, setVault, burn, setBurnRequest,
    emit, wp_bind, wp_get, wp_revertIf, wp_modify, wp_lift, wp_pure, implies_true, true_and,
    and_true, Uint256.sub_eq_ok]
  intro _ hz _ _ _ hl _ _ e he _ _ c hc debt hw _ _ _
  have hd : (s.vaults lp).debtAmount ≠ 0 := by bv_omega
  refine ⟨by simp, hd, ?_, ?_, ?_⟩
  · simpa [burnRequest] using he
  · simpa [burnRequest] using hc
  · simpa using hw

theorem Burns.burned (h : Burns d block msg w lp refundCommitment s s') :
    s'.collateralPriceFeeds = s.collateralPriceFeeds ∧
    Burned block s.collateralPriceFeeds w (s.vaults lp) (s'.vaults lp)
      (burnRequest d block msg w lp refundCommitment s') := by
  obtain ⟨fs, hr⟩ := h
  have hw : wp (fun _ _ => True) (step d block <| .initiateBurn msg w lp refundCommitment) _ _ s :=
    initiateBurn_burned
  rcases Tree.Sat.run hw (fun _ => trivial) (fun _ _ _ => trivial) with ⟨_, t, ht, hl⟩ | ⟨_, he, _⟩
  · obtain rfl : t = s' := Except.ok.inj (ht.symm.trans hr)
    exact hl
  · cases he.symm.trans hr

-- What is put in escrow is worth no more than the ratio of a vault that cannot be liquidated asks
-- for the burned tokens.
theorem burns_ratio_le (h : Burns d block msg w lp refundCommitment s s')
    (hr : (s.vaults lp).ratio block s.collateralPriceFeeds = .ok r) (hl : liquidationRatio ≤ r)
    (hu : ∃ u, getCollateralValueForDebt block (s'.vaults lp).debtAmount = .ok u ∧ u ≠ 0) :
    ∃ r', (s'.vaults lp).ratio block s'.collateralPriceFeeds = .ok r' ∧ r ≤ r' ∧
      (collateralRatio ≤ r → collateralRatio ≤ r') := by
  obtain ⟨hf, hb⟩ := h.burned
  obtain ⟨r', hr', hle⟩ :=
    ratio_le_of_cleared hr hb.debt (.inr hl) hb.escrow le_rfl hb.collateral hb.owed hu
  refine ⟨r', ?_, hle, fun hc => BitVec.le_trans hc hle⟩
  rw [Vault.ratio, hf, hb.asset]
  exact hr'

namespace Sample

theorem burns_minted :
    (minted.map fun s =>
      ((step deployment (blockAt 1024 3) (.initiateBurn ⟨user, 0⟩ (10 ^ 7) provider commitment)
        s).run []).toOption.map fun s' =>
        (((s.vaults provider).ratio (blockAt 1024 3) s.collateralPriceFeeds).toOption,
          (getCollateralValueForDebt (blockAt 1024 3)
            (s'.vaults provider).debtAmount).toOption,
          ((s'.vaults provider).ratio (blockAt 1024 3) s.collateralPriceFeeds).toOption)) =
    some (some (some 200, some (135 * 10 ^ 18), some 208)) := by
  decide

end Sample

-- The user burns a tenth of the debt, and the ratio rises from 200 to 208.
theorem burns_ratio_le_minted :
    ∃ s s', Sample.minted = some s ∧
      Burns Sample.deployment (Sample.blockAt 1024 3) ⟨Sample.user, 0⟩ (10 ^ 7) Sample.provider
        Sample.commitment s s' ∧
      ∃ r', (s'.vaults Sample.provider).ratio (Sample.blockAt 1024 3) s'.collateralPriceFeeds =
        .ok r' ∧ (200 : Uint256) ≤ r' := by
  have h := Sample.burns_minted
  simp only [Option.map_eq_some_iff, Prod.mk.injEq, Except.toOption_eq_some_iff] at h
  obtain ⟨s, hs, s', hb, hr, hu, _⟩ := h
  obtain ⟨r', hr', hle, _⟩ := burns_ratio_le ⟨_, hb⟩ hr (by decide) ⟨_, hu, by decide⟩
  exact ⟨s, s', hs, ⟨_, hb⟩, r', hr', hle⟩

section Cover

variable (q : Quote block feeds asset)

-- What an amount of the collateral and an amount of the token are worth in dollars.
def Quote.collateralUSD (n : ℕ) : ℚ := n * q.collateralPrice.toNat / 10 ^ q.decimals
def Quote.tokenUSD (w : Uint256) : ℚ := w.toNat * q.xmrPrice.toNat / 10 ^ 8

-- What the burned tokens are worth, in units that none of the divisions of the code rounds.
def Quote.faceValue (w : Uint256) : ℕ := w.toNat * q.xmrPrice.toNat * 10 ^ q.decimals

-- What `getCollateralValueForDebt` drops of it, and what is missing to a whole number of the units
-- in which the collateral is paid.
def Quote.dropped (w : Uint256) : ℕ := w.toNat * q.xmrPrice.toNat % 10 ^ 8 * 10 ^ q.decimals
def Quote.missing (w : Uint256) : ℤ := -q.faceValue w % (10 ^ 8 * q.collateralPrice.toNat)

-- The roundings cost no more than the fifth that is asked for on top.
def Quote.Absorbs (w : Uint256) : Prop :=
  0 < q.faceValue w ∧
  q.dropped w + q.missing w ≤ w.toNat * q.xmrPrice.toNat / (5 * 10 ^ 8) * 10 ^ 8 * 10 ^ q.decimals

instance : Decidable (q.Absorbs w) :=
  inferInstanceAs (Decidable (_ ∧ _))

variable {q}

-- A sum that is rounded down to units of `c` covers `a` if `a`, rounded up, does not exceed it.
theorem le_div_mul_iff {a k c t : ℤ} (hk : 0 < k) (hc : 0 < c) :
    a ≤ t / c * (k * c) ↔ a + -a % (k * c) ≤ k * t := by
  have hu : 0 < k * c := Int.mul_pos hk hc
  have ha : a + -a % (k * c) = k * (-(-a / (k * c)) * c) := by
    have hm := Int.emod_add_mul_ediv (-a) (k * c)
    linarith
  calc a ≤ t / c * (k * c)
    _ ↔ -(t / c) * (k * c) ≤ -a           := by rw [neg_mul]; exact neg_le_neg_iff.symm
    _ ↔ -(t / c) ≤ -a / (k * c)           := (Int.le_ediv_iff_mul_le hu).symm
    _ ↔ -(-a / (k * c)) ≤ t / c           := neg_le
    _ ↔ -(-a / (k * c)) * c ≤ t           := Int.le_ediv_iff_mul_le hc
    _ ↔ k * (-(-a / (k * c)) * c) ≤ k * t := (mul_le_mul_iff_right₀ hk).symm
    _ ↔ a + -a % (k * c) ≤ k * t          := by rw [ha]

theorem Quote.tokenUSD_le_iff {n : ℕ} :
    q.tokenUSD w ≤ q.collateralUSD n ↔ q.faceValue w ≤ n * (10 ^ 8 * q.collateralPrice.toNat) := by
  rw [tokenUSD, collateralUSD, div_le_div_iff₀ (by positivity) (by positivity), faceValue,
    mul_comm (10 ^ 8), ← mul_assoc n]
  exact_mod_cast Iff.rfl

-- The 120 percent that the code computes, against the value that it does not round.
theorem Quote.add_missing_le_iff :
    q.faceValue w + q.missing w ≤
      10 ^ 8 * ((q.debtValue w * liquidationRatio.toNat / 100 * 10 ^ q.decimals : ℕ) : ℤ) ↔
    q.dropped w + q.missing w ≤
      w.toNat * q.xmrPrice.toNat / (5 * 10 ^ 8) * 10 ^ 8 * 10 ^ q.decimals := by
  have hr : q.debtValue w * liquidationRatio.toNat / 100 =
      w.toNat * q.xmrPrice.toNat / 10 ^ 8 + w.toNat * q.xmrPrice.toNat / (5 * 10 ^ 8) := by
    rw [debtValue, show liquidationRatio.toNat = 120 from rfl]
    omega
  have hf : (q.faceValue w : ℤ) =
      10 ^ 8 * ((w.toNat * q.xmrPrice.toNat / 10 ^ 8 * 10 ^ q.decimals : ℕ) : ℤ) + q.dropped w := by
    have hm := Nat.div_add_mod (w.toNat * q.xmrPrice.toNat) (10 ^ 8)
    rw [faceValue, dropped]
    nth_rewrite 1 [← hm]
    push_cast
    ring
  rw [hr, hf]
  push_cast
  constructor <;> intro h <;> linarith

theorem covered_iff (h : Burns d block msg w lp refundCommitment s s')
    (q : Quote block s.collateralPriceFeeds (s.vaults lp).collateralAsset) :
    let request := burnRequest d block msg w lp refundCommitment s'
    (request.escrowedCollateral ≠ 0 ∧
      q.tokenUSD w ≤ q.collateralUSD request.escrowedCollateral.toNat) ↔ q.Absorbs w := by
  obtain ⟨_, hb⟩ := h.burned
  obtain ⟨q', hp, he⟩ := collateralFor_eq hb.escrow
  obtain rfl : q' = q := Subsingleton.elim q' q
  have hc : (0 : ℤ) < q'.collateralPrice.toNat := Int.natCast_pos.mpr <| Nat.pos_of_ne_zero hp
  have hi : q'.tokenUSD w ≤ q'.collateralUSD
        (burnRequest d block msg w lp refundCommitment s').escrowedCollateral.toNat ↔
      q'.faceValue w + q'.missing w ≤
        10 ^ 8 * ((q'.debtValue w * liquidationRatio.toNat / 100 * 10 ^ q'.decimals : ℕ) : ℤ) := by
    rw [Quote.tokenUSD_le_iff, he, Quote.missing, ← le_div_mul_iff (by norm_num) hc]
    exact_mod_cast Iff.rfl
  rw [Quote.Absorbs, ← Quote.add_missing_le_iff, ← hi]
  refine and_congr_left fun hu => ?_
  constructor
  case mp =>
    refine fun hn => Nat.pos_of_ne_zero fun hf => hn <| BitVec.eq_of_toNat_eq ?_
    have hw : w.toNat * q'.xmrPrice.toNat = 0 :=
      (mul_eq_zero.mp hf).resolve_right <| pow_ne_zero _ (by decide)
    simp [he, Quote.debtValue, hw]
  case mpr =>
    intro hf hn
    simp [Quote.tokenUSD_le_iff, hn] at hu
    omega

namespace Sample

def token : Address := 0x60
def tokenFeed : Bytes32 := 0x61

def tokenDeployment : Deployment :=
  { deployment with standard a := a = token }

-- The token has two decimals and a price of one dollar.
def tokenBlock (timestamp number : Uint256) : Block :=
  { blockAt timestamp number with
    price feed :=
      if feed = tokenFeed then some ⟨10 ^ 8, -8⟩ else (blockAt timestamp number).price feed
    decimals a := if a = token then some 2 else none }

def tokenMint : List (Block × Call) :=
  [(tokenBlock 1000 1, .addCollateralSupport ⟨0x72, 0⟩ token tokenFeed),
   (tokenBlock 1000 1, .createVault ⟨provider, 0⟩ token),
   (tokenBlock 1000 1, .depositCollateral ⟨provider, 0⟩ (300 * 10 ^ 2)),
   (tokenBlock 1000 1, .initiateMint ⟨user, 0⟩ provider (10 ^ 12) commitment 3600),
   (tokenBlock 1012 2, .setMintReady ⟨provider, 0⟩ firstID),
   (tokenBlock 1012 2, .finalizeMint ⟨user, 0⟩ firstID 1)]

def tokenMinted : Option State :=
  runCalls tokenDeployment (fun _ _ _ => true) tokenMint initial

def burn (amount : Uint256) (s : State) : Except (Revert Error) State :=
  (step tokenDeployment (tokenBlock 1024 3) (.initiateBurn ⟨user, 0⟩ amount provider commitment)
    s).run []

def escrowOf (amount : Uint256) : Option Uint256 := do
  let s ← tokenMinted
  let s' ← (burn amount s).toOption
  return (burnRequest tokenDeployment (tokenBlock 1024 3) ⟨user, 0⟩ amount provider commitment
    s').escrowedCollateral

theorem escrowOf_eq_some {amount e : Uint256} (h : escrowOf amount = some e) :
    ∃ s s', tokenMinted = some s ∧
      Burns tokenDeployment (tokenBlock 1024 3) ⟨user, 0⟩ amount provider commitment s s' ∧
      (burnRequest tokenDeployment (tokenBlock 1024 3) ⟨user, 0⟩ amount provider commitment
        s').escrowedCollateral = e := by
  simp only [escrowOf, Option.bind_eq_bind, Option.bind_eq_some_iff, Except.toOption_eq_some_iff,
    Option.pure_def, Option.some.injEq] at h
  obtain ⟨s, hs, s', hb, he⟩ := h
  exact ⟨s, s', hs, ⟨_, hb⟩, he⟩

end Sample

-- For a tenth of an XMR, worth 15 dollars, the escrow is large enough.
theorem covered_iff_tenth :
    ∃ s s', Sample.tokenMinted = some s ∧
      Burns Sample.tokenDeployment (Sample.tokenBlock 1024 3) ⟨Sample.user, 0⟩ (10 ^ 7)
        Sample.provider Sample.commitment s s' ∧
      ∃ q : Quote (Sample.tokenBlock 1024 3) s.collateralPriceFeeds
          (s.vaults Sample.provider).collateralAsset, q.tokenUSD (10 ^ 7) ≤ q.collateralUSD
        (burnRequest Sample.tokenDeployment (Sample.tokenBlock 1024 3) ⟨Sample.user, 0⟩ (10 ^ 7)
          Sample.provider Sample.commitment s').escrowedCollateral.toNat := by
  have h : Sample.escrowOf (10 ^ 7) = some 1800 := by decide
  obtain ⟨s, s', hs, hb, _⟩ := Sample.escrowOf_eq_some h
  have hp : Sample.tokenMinted.bind (fun s => (getCollateralPrice (Sample.tokenBlock 1024 3)
      s.collateralPriceFeeds (s.vaults Sample.provider).collateralAsset).toOption) =
      some (10 ^ 18) := by decide
  have hd : Sample.tokenMinted.bind (fun s => (getDecimals (Sample.tokenBlock 1024 3)
      (s.vaults Sample.provider).collateralAsset).toOption) = some 2 := by decide
  simp only [hs, Option.bind_some, Except.toOption_eq_some_iff] at hp hd
  let q : Quote _ _ _ := ⟨10 ^ 18, 150 * 10 ^ 18, 2, hp, by decide, hd⟩
  have hq : q.Absorbs (10 ^ 7) := by
    simp only [Quote.Absorbs, Quote.faceValue, Quote.dropped, Quote.missing, q]
    decide
  exact ⟨s, s', hs, hb, q, (covered_iff hb q).mpr hq |>.right⟩

-- A hundred-millionth of an XMR is worth 1.5 millionths of a dollar. The user burns it and gets
-- nothing for it if the provider fails.
theorem burned_for_nothing :
    getXmrPrice (Sample.tokenBlock 1024 3) = .ok (150 * 10 ^ 18) ∧
    ∃ s s', Sample.tokenMinted = some s ∧
      Burns Sample.tokenDeployment (Sample.tokenBlock 1024 3) ⟨Sample.user, 0⟩ 1
        Sample.provider Sample.commitment s s' ∧
      (burnRequest Sample.tokenDeployment (Sample.tokenBlock 1024 3) ⟨Sample.user, 0⟩ 1
        Sample.provider Sample.commitment s').escrowedCollateral = 0 := by
  have h : Sample.escrowOf 1 = some 0 := by decide
  exact ⟨by decide, Sample.escrowOf_eq_some h⟩

end Cover

end Ethereum.VaultManager
