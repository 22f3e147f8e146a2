import AtomicSwap.Coins

open Ethereum

-- Types that both sides of a swap share.

inductive Environment
  | mainnet
  | stagenet
  | development
  deriving DecidableEq, Repr

namespace Environment

-- In nanoseconds.
def swapTimeout : Environment → ℤ
  | mainnet | stagenet => 3600 * 10 ^ 9
  | development        => 120 * 10 ^ 9

end Environment

inductive Status
  | unknown
  | expectingKeys
  | keysExchanged
  | ethLocked
  | xmrLocked
  | contractReady
  | sweepingXMR
  | completedSuccess
  | completedRefund
  | completedAbort
  deriving DecidableEq, Repr

-- The source panics for `unknown`, which is the status of no swap.
def Status.isOngoing : Status → Bool
  | expectingKeys | keysExchanged | ethLocked | xmrLocked | contractReady | sweepingXMR => true
  | unknown | completedSuccess | completedRefund | completedAbort                       => false

-- An asset is ether or a token contract.
def ethAssetETH : Address := native

structure Offer where
  id           : Bytes32
  minAmount    : Decimal
  maxAmount    : Decimal
  exchangeRate : Decimal
  ethAsset     : Address
  deriving DecidableEq

namespace Offer

inductive Error
  | offerIDNotSet
  | coins (e : Coins.Error)
  | minGreaterThanMax
  | minAmountTooLow
  | exceedsMaxOfferValue
  | hashMismatch
  deriving DecidableEq

-- In XMR.
def maxOfferValue : Decimal := { coeff := 1, exponent := 3 }

-- The hash also covers the version, the provided coin and the nonce. The offer that passes is the
-- one whose amounts the source reduced in place.
def validate (hash : Offer → Bytes32) (o : Offer) : Except Error Offer := do
  .failIf (o.id = 0) .offerIDNotSet
  let minAmount ← (Coins.validatePositive "minAmount" Coins.numMoneroDecimals
    (some o.minAmount)).mapError .coins
  let maxAmount ← (Coins.validatePositive "maxAmount" Coins.numMoneroDecimals
    (some o.maxAmount)).mapError .coins
  let o := { o with minAmount, maxAmount }
  .failIf (minAmount.cmp maxAmount = .gt) .minGreaterThanMax
  let minAmtAsETH ← (Coins.ExchangeRate.toETH o.exchangeRate minAmount).mapError .coins
  .failIf (minAmtAsETH.cmp Coins.relayerFeeETH ≠ .gt) .minAmountTooLow
  .failIf (maxAmount.cmp maxOfferValue = .gt) .exceedsMaxOfferValue
  .failIf (o.id ≠ hash o) .hashMismatch
  return o

variable {o offer : Offer} {hash : Offer → Bytes32}

-- The amounts that an accepted offer allows.
structure Bounds (o offer : Offer) : Prop where
  exchangeRate : offer.exchangeRate = o.exchangeRate
  ethAsset     : offer.ethAsset = o.ethAsset
  id           : offer.id = o.id
  minAmount    : offer.minAmount.toRat = o.minAmount.toRat
  maxAmount    : offer.maxAmount.toRat = o.maxAmount.toRat
  min_pos      : 0 < offer.minAmount.toRat
  max_le       : offer.maxAmount.toRat ≤ 10 ^ 3

theorem validate_eq_ok (h : o.validate hash = .ok offer) : o.Bounds offer := by
  simp only [validate, Except.bind_ok_iff, Except.mapError_eq_ok, Except.failIf_eq_ok,
    Except.pure_ok_iff] at h
  obtain ⟨_, _, minAmount, hmin, maxAmount, hmax, _, _, _, _, _, _, _, hle, _, _, rfl⟩ := h
  have hp : 0 < minAmount.toRat := (Coins.validatePositive_pos hmin).right
  obtain ⟨_, _, hv, hvmin⟩ := Coins.validatePositive_eq_ok hmin
  obtain ⟨_, _, hv', hvmax⟩ := Coins.validatePositive_eq_ok hmax
  cases hv
  cases hv'
  refine ⟨rfl, rfl, rfl, hvmin, hvmax, hp, ?_⟩
  have hm : maxOfferValue.toRat = 10 ^ 3 := by
    simp [maxOfferValue, Decimal.toRat]
  rw [← hm]
  exact not_lt.mp fun hl => hle <| compare_gt_iff_gt.mpr hl

-- An accepted offer is accepted again, unchanged.
theorem validate_self (h : o.validate hash = .ok offer) : offer.validate hash = .ok offer := by
  simp only [validate, Except.bind_ok_iff, Except.mapError_eq_ok, Except.failIf_eq_ok,
    Except.pure_ok_iff] at h ⊢
  obtain ⟨u, hid, minAmount, hmin, maxAmount, hmax, u₁, hle, eth, heth, rest⟩ := h
  obtain ⟨u₂, hfee, u₃, hval, u₄, hhash, rfl⟩ := rest
  exact ⟨u, hid, minAmount, Coins.validatePositive_self hmin, maxAmount,
    Coins.validatePositive_self hmax, u₁, hle, eth, heth, u₂, hfee, u₃, hval, u₄, hhash, rfl⟩

theorem validate_inv (h : o.validate hash = .ok offer) :
    Coins.validatePositive "minAmount" Coins.numMoneroDecimals (some o.minAmount) =
      .ok offer.minAmount ∧
    Coins.validatePositive "maxAmount" Coins.numMoneroDecimals (some o.maxAmount) =
      .ok offer.maxAmount ∧
    offer.id = hash offer := by
  simp only [validate, Except.bind_ok_iff, Except.mapError_eq_ok, Except.failIf_eq_ok,
    Except.pure_ok_iff] at h
  obtain ⟨_, _, minAmount, hmin, maxAmount, hmax, _, _, _, _, _, _, _, _, _, hh, rfl⟩ := h
  exact ⟨hmin, hmax, not_not.mp hh⟩

end Offer

-- The uncompressed public key.
structure PublicKey where
  x : Bytes32
  y : Bytes32
  deriving DecidableEq

def PublicKey.keccak256 (host : Host) (k : PublicKey) : Bytes32 :=
  host.keccak256 (Bytes.be 32 k.x.toNat ++ Bytes.be 32 k.y.toNat)
