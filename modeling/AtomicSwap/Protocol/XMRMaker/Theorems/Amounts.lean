import AtomicSwap.Protocol.XMRMaker.Theorems.Initiate

open Ethereum SwapCreator

namespace XMRMaker

variable {b b₀ : Backend} {ec ec₀ : EthClient} {calls : Calls} {ic : InitiateCalls}
  {msg : NotifyETHLocked} {keys : SendKeysMessage} {s s₀ : SwapState}

-- A swap over an amount of the asset of an offer, in the smallest unit of that asset.
structure Pays (ec : EthClient) (offer : Offer) (amount : Decimal) (sw : SwapCreatorSwap) :
    Prop where
  asset : sw.asset = offer.ethAsset
  value : ∃ token, tokenOf ec offer.ethAsset = .ok token ∧
    (sw.value : ℚ) = amount.toRat * 10 ^ Coins.decimalsOf token

theorem getEthAssetAmount_ok {amt : Decimal} {asset : Address} {a : Coins.EthAssetAmount}
    (h : getEthAssetAmount ec amt asset = .ok a) :
    ∃ token, tokenOf ec asset = .ok token ∧
      Coins.exceedsDecimals amt (Coins.decimalsOf token) = false ∧
      Coins.newEthAssetAmount amt.reduce token = .ok a := by
  by_cases ha : asset = ethAssetETH
  case pos =>
    cases hx : Coins.exceedsDecimals amt Coins.numEtherDecimals
    case true  => simp [getEthAssetAmount, ha, hx] at h
    case false =>
      exact ⟨none, by simp [tokenOf, ha], hx, by simpa [getEthAssetAmount, ha, hx] using h⟩
  case neg =>
    cases he : ec.erc20Info asset
    case none => simp [getEthAssetAmount, ha, he] at h
    case some token =>
      cases hx : Coins.exceedsDecimals amt token.numDecimals
      case true  => simp [getEthAssetAmount, ha, he, hx] at h
      case false =>
        exact ⟨some token, by simp [tokenOf, ha, he], hx,
          by simpa [getEthAssetAmount, ha, he, hx] using h⟩

theorem getEthAssetAmount_eq {amt : Decimal} {asset : Address} {a : Coins.EthAssetAmount}
    {token : Option Coins.ERC20TokenInfo} (ht : tokenOf ec asset = .ok token)
    (hx : Coins.exceedsDecimals amt (Coins.decimalsOf token) = false)
    (ha : Coins.newEthAssetAmount amt.reduce token = .ok a) :
    getEthAssetAmount ec amt asset = .ok a := by
  simp only [tokenOf] at ht
  split at ht
  case isTrue hasset =>
    cases ht
    have hx : Coins.exceedsDecimals amt Coins.numEtherDecimals = false := hx
    simp [getEthAssetAmount, hasset, hx, ha]
  case isFalse hasset =>
    split at ht
    case h_1 => contradiction
    case h_2 token he =>
      cases ht
      have hx : Coins.exceedsDecimals amt token.numDecimals = false := hx
      simp [getEthAssetAmount, hasset, he, hx, ha]

-- The value is checked against the amount that is expected, in units of the asset of the swap.
theorem Accepted.value_exact (h : Accepted b ec s msg) (hf : s.info.expectedAmount.form = .finite)
    (hn : s.info.expectedAmount.negative = false) :
    ∃ token, tokenOf ec msg.contractSwap.asset = .ok token ∧
      (msg.contractSwap.value : ℚ) =
        s.info.expectedAmount.toRat * 10 ^ Coins.decimalsOf token := by
  have ⟨a, n, ha, hb, hv⟩ := h.value
  have ⟨token, ht, hx, hw⟩ := getEthAssetAmount_ok ha
  have he := (Coins.newEthAssetAmount_exact (.of_reduce hf hn hx) hw).left n hb
  refine ⟨token, ht, ?_⟩
  rw [hv, Int.cast_natCast, he, Decimal.toRat_reduce]

-- The maker is paid what the offer says exactly if the taker has not chosen another asset.
theorem pays_iff (h₀ : handleInitiateMessage b₀ ec₀ ic keys = .ok s₀) (hs : s.info = s₀.info)
    (h : Locks b ec calls msg s) :
    ∃ offer v, ic.getOffer keys.offerID = some offer ∧ keys.providedAmount = some v ∧
      (Pays ec offer v msg.contractSwap ↔ msg.contractSwap.asset = offer.ethAsset) := by
  have ⟨ho, _, v, hp, hv, hf, hn⟩ := handleInitiateMessage_ok h₀
  refine ⟨_, v, ho, hp, Pays.asset, fun ha => ⟨ha, ?_⟩⟩
  rw [← hs] at hv hf hn
  have ⟨token, ht, hw⟩ := h.accepted.value_exact hf hn
  exact ⟨token, ha ▸ ht, hv ▸ hw⟩

end XMRMaker

namespace XMRMaker

open XMRMaker.Sample

theorem pays_iff_swap : Pays (client [newLog swap swapID]) offer { coeff := 5 } swap := by
  have ⟨o, v, ho, hv, h⟩ := pays_iff initiated rfl swap_locks
  cases ho
  cases hv
  exact h.mpr rfl

-- The maker accepts 5 units of a token that the taker has made up.
theorem paid_in_token :
    let ec := client [newLog tokenSwap tokenSwapID]
    handleInitiateMessage backend ec initiateCalls sendKeys = .ok state ∧
    Locks backend ec calls (notify tokenSwap tokenSwapID) state ∧
    tokenSwap.asset ≠ offer.ethAsset ∧ ∀ v, ¬Pays ec offer v tokenSwap := by
  have ha : tokenSwap.asset ≠ offer.ethAsset := by decide
  exact ⟨by decide +kernel, by decide +kernel, ha, fun v h => ha h.asset⟩

end XMRMaker
