import AtomicSwap.Coins.Theorems.Exchange
import AtomicSwap.Protocol.XMRMaker.Theorems.Initiate
import AtomicSwap.Relayer.Theorems.Validated

open Ethereum Ethereum.SwapCreator Reentrant Code

namespace Coins

variable {d eth q r x std : Decimal} {a : EthAssetAmount}

theorem toETH_inv (h : ExchangeRate.toETH r d = .ok eth) :
    ∃ q, d.mul maxCoinPrecision r = some q ∧ exceedsDecimals q numEtherDecimals = false ∧
      eth = q.reduce := by
  simp only [ExchangeRate.toETH, Except.bind_ok_iff, orElse_eq_ok] at h
  obtain ⟨q, hq, h⟩ := h
  split at h
  case isTrue     => contradiction
  case isFalse hx => exact ⟨q, hq, by simpa using hx, by cases h; rfl⟩

-- The rate is not negative, and the amount of ether is above the fee by at least one wei.
structure AboveFee (r d eth : Decimal) : Prop where
  rate  : r.negative = false
  wei   : 10 ^ 16 + 1 ≤ eth.toRat * 10 ^ 18
  close : |eth.toRat - d.toRat * r.toRat| ≤ d.toRat * r.toRat / 10 ^ (maxCoinPrecision - 1)

theorem toETH_aboveFee (hd : d.negative = false) (h : ExchangeRate.toETH r d = .ok eth)
    (hc : eth.cmp relayerFeeETH = .gt) : AboveFee r d eth := by
  obtain ⟨q, hq, hx, rfl⟩ := toETH_inv h
  have hfee : 1 / 100 < q.toRat := by
    have hv : relayerFeeETH.toRat = 1 / 100 := by norm_num [relayerFeeETH, Decimal.toRat]
    rw [← hv, ← Decimal.toRat_reduce (d := q)]
    exact compare_gt_iff_gt.mp hc
  have hn : q.negative = r.negative := by
    obtain ⟨-, hq, -⟩ := Decimal.mul_eq_some.mp hq
    simp [hq, Decimal.rounded, hd]
  have hr : r.negative = false := by
    rw [← hn, ← Bool.not_eq_true]
    intro ht
    have hl : (0 : ℚ) ≤ q.coeff * 10 ^ q.exponent := by positivity
    simp only [Decimal.toRat, ht, if_true, neg_mul, one_mul] at hfee
    linarith
  refine ⟨hr, ?_, ?_⟩
  case refine_1 =>
    have hw : Representable numEtherDecimals q.reduce :=
      .of_reduce (Decimal.mul_form hq) (hn.trans hr) hx
    obtain ⟨m, hm⟩ := hw.whole
    rw [Decimal.toRat_reduce, numEtherDecimals] at hm
    rw [Decimal.toRat_reduce, hm]
    have hl : (10 ^ 16 : ℚ) < m := by
      rw [← hm]
      linarith
    have hl : 10 ^ 16 < m := by exact_mod_cast hl
    exact_mod_cast hl
  case refine_2 =>
    rw [Decimal.toRat_reduce]
    exact Decimal.mul_close hd hr (by decide) hq

theorem toXMR_close (hs : a.asStd = .ok std) (hn : std.negative = false) (hr : r.negative = false)
    (h : ExchangeRate.toXMR r a = .ok x) :
    |x.toRat * r.toRat - std.toRat| ≤ std.toRat / 10 ^ (maxCoinPrecision - 1) := by
  obtain ⟨_, q, hs', hq, -, rfl⟩ := toXMR_inv h
  cases hs.symm.trans hs'
  rw [Decimal.toRat_reduce]
  exact Decimal.quo_close hn hr (by decide) hq

-- Neither rounding can take away the one wei by which the smallest amount is above the fee.
theorem AboveFee.amount (hf : AboveFee r d eth) (hle : d.toRat ≤ x.toRat)
    (hx : |x.toRat * r.toRat - std.toRat| ≤ std.toRat / 10 ^ (maxCoinPrecision - 1)) :
    10 ^ 16 < std.toRat * 10 ^ 18 := by
  have hr : 0 ≤ r.toRat := Decimal.toRat_nonneg hf.rate
  have hm : d.toRat * r.toRat ≤ x.toRat * r.toRat := mul_le_mul_of_nonneg_right hle hr
  have heth := (abs_le.mp hf.close).right
  have hstd := (abs_le.mp hx).right
  have hwei := hf.wei
  generalize d.toRat * r.toRat = least at hm heth
  generalize x.toRat * r.toRat = given at hm hstd
  norm_num [maxCoinPrecision] at heth hstd
  linarith

end Coins

namespace Ethereum.SwapCreator

variable {d : Deployment} {block : Block} {s : State} {secret : Bytes32} {msg : Msg}
  {relaySwap : RelaySwap} {relayer : Address} {salt : BitVec 32} {v : UInt8} {r t : Bytes32}

-- A fee that is not above the value can be taken from it, with whatever other calls in between.
theorem claimRelayer_ne_overflow (h : relaySwap.fee.toNat ≤ relaySwap.swap.value.toNat)
    (rs : List (Reply (Act Call))) :
    exec (step d block) ⟨.claimRelayer msg relaySwap secret relayer salt v r t, rs⟩ s ≠
      .error .overflow := by
  intro he
  have hs : Uint256.sub (κ := Error) relaySwap.swap.value relaySwap.fee =
      .ok (relaySwap.swap.value - relaySwap.fee) := if_pos h
  have hw : wp (fun _ _ => True)
      (step d block <| .claimRelayer msg relaySwap secret relayer salt v r t) (fun _ _ => True)
      (· ≠ .overflow) s := by
    simp [step, nonpayable, claimRelayer, _claim, checkClaim, verifySecret, emit, setStage, pay, hs]
  exact (exec_error_wp hw he).elim (· rfl) (by simp)

end Ethereum.SwapCreator

namespace Relayer

variable {b : XMRMaker.Backend} {ec : XMRMaker.EthClient} {ic : XMRMaker.InitiateCalls}
  {keys : XMRMaker.SendKeysMessage} {s : XMRMaker.SwapState} {o offer : Offer}
  {hash : Offer → Bytes32}

-- The checks of the amount that was provided for an offer.
theorem handleInitiateMessage_amount (ha : offer.ethAsset = ethAssetETH)
    (hg : ic.getOffer keys.offerID = some offer)
    (hs : XMRMaker.handleInitiateMessage b ec ic keys = .ok s) :
    ∃ v std a x, keys.providedAmount = some v ∧ std.toRat = v.toRat ∧ std.negative = false ∧
      a.asStd = .ok std ∧ Coins.ExchangeRate.toXMR offer.exchangeRate a = .ok x ∧
      offer.minAmount.toRat ≤ x.toRat := by
  have ht : XMRMaker.tokenOf ec offer.ethAsset = .ok none := by
    rw [XMRMaker.tokenOf, if_pos ha]
  simp only [XMRMaker.handleInitiateMessage, hg, ht, Except.bind_ok_iff, Except.mapError_eq_ok,
    Except.failIf_eq_ok, Except.ok.injEq] at hs
  obtain ⟨_, _, _, rfl, std, hv, a, hn, x, hx, _, hl, _⟩ := hs
  obtain ⟨hr, v, hp, hv'⟩ := Coins.validatePositive_eq_ok hv
  have hstd := Coins.asStd_ok hr (Coins.validatePositive_pos hv).left hn
  have hle : offer.minAmount.toRat ≤ x.toRat :=
    not_lt.mp fun h => hl <| compare_lt_iff_lt.mpr h
  exact ⟨v, std, a, x, hp, hv', hr.positive, hstd, hx, hle⟩

theorem validate_aboveFee (h : o.validate hash = .ok offer) :
    ∃ eth, Coins.AboveFee offer.exchangeRate offer.minAmount eth := by
  simp only [Offer.validate, Except.bind_ok_iff, Except.mapError_eq_ok, Except.failIf_eq_ok,
    Except.pure_ok_iff, not_not] at h
  obtain ⟨_, _, min, hmin, max, _, _, _, eth, heth, _, hc, _, _, _, _, rfl⟩ := h
  have hn := (Coins.validatePositive_eq_ok hmin).left.positive
  exact ⟨eth, Coins.toETH_aboveFee hn heth hc⟩

theorem validateClaimValues_ne_valueTooLow {rec : Recovery} {check : Address → Bool}
    {request : RelayClaimRequest} {ourAddress ourSwapCreatorAddr : Address} {salt : BitVec 32}
    (h : relayerFeeWei < request.relaySwap.swap.value) (value : ℤ) :
    validateClaimValues rec check request ourAddress salt ourSwapCreatorAddr ≠
      .error (.valueTooLow value) := by
  have hv : ¬relayerFeeWei ≥ request.relaySwap.swap.value := not_le.mpr h
  suffices (validateClaimValues rec check request ourAddress salt ourSwapCreatorAddr).OnError
      (· ≠ .valueTooLow value) from fun he => this _ he rfl
  refine .bind ?_ fun _ _ => .bind (Except.onError_failIf fun _ => by simp) fun _ _ => ?_
  case refine_1 =>
    simp only [validateSwapCreator]
    split
    case isTrue  => exact Except.onError_ok
    case isFalse =>
      refine .bind (Except.onError_failIf fun _ => by simp) fun _ _ => ?_
      exact Except.onError_failIf fun _ => by simp
  case refine_2 =>
    refine .bind (Except.onError_failIf fun hl => absurd hl hv) fun _ _ => ?_
    refine .bind (Except.onError_failIf fun _ => by simp) fun _ _ => ?_
    exact Except.onError_failIf fun _ => by simp

-- The amount of a swap for ether that the maker has accepted is above the fee of a relayer. A swap
-- of that value is not refused by a relayer for its value, and the fee can be taken from it.
theorem relayer_fee_covered (ho : o.validate hash = .ok offer) (ha : offer.ethAsset = ethAssetETH)
    (hg : ic.getOffer keys.offerID = some offer)
    (hs : XMRMaker.handleInitiateMessage b ec ic keys = .ok s) :
    ∃ amount, keys.providedAmount = some amount ∧
      (relayerFeeWei : ℚ) < amount.toRat * 10 ^ 18 ∧
      (∀ rec check request ourAddress salt ourSwapCreatorAddr value,
        (request.relaySwap.swap.value : ℚ) = amount.toRat * 10 ^ 18 →
        validateClaimValues rec check request ourAddress salt ourSwapCreatorAddr ≠
          .error (.valueTooLow value)) ∧
      ∀ d block msg relaySwap secret relayer salt v r t rs st,
        (relaySwap.swap.value.toNat : ℚ) = amount.toRat * 10 ^ 18 →
        relaySwap.fee = .ofInt 256 relayerFeeWei →
        exec (step d block) ⟨.claimRelayer msg relaySwap secret relayer salt v r t, rs⟩ st ≠
          .error .overflow := by
  obtain ⟨amount, std, a, x, hp, hv, hn, hstd, hx, hle⟩ := handleInitiateMessage_amount ha hg hs
  obtain ⟨eth, hf⟩ := validate_aboveFee ho
  have hw : (10 ^ 16 : ℚ) < amount.toRat * 10 ^ 18 :=
    hv ▸ hf.amount hle (Coins.toXMR_close hstd hn hf.rate hx)
  have hfee : (relayerFeeWei : ℚ) = 10 ^ 16 := by norm_num [relayerFeeWei]
  refine ⟨amount, hp, hfee ▸ hw, ?_, ?_⟩
  case refine_1 =>
    intro rec check request ourAddress salt ourSwapCreatorAddr value he
    refine validateClaimValues_ne_valueTooLow ?_ value
    have hl : (relayerFeeWei : ℚ) < request.relaySwap.swap.value := by rwa [he, hfee]
    exact_mod_cast hl
  case refine_2 =>
    intro d block msg relaySwap secret relayer salt v r t rs st he hfee'
    refine claimRelayer_ne_overflow ?_ rs
    have hl : (10 ^ 16 : ℚ) < relaySwap.swap.value.toNat := by rwa [he]
    have hl : 10 ^ 16 < relaySwap.swap.value.toNat := by exact_mod_cast hl
    have hn : (BitVec.ofInt 256 relayerFeeWei).toNat = 10 ^ 16 := by decide
    rw [hfee', hn]
    exact hl.le

theorem relayer_fee_covered_sample :
    ∃ amount, XMRMaker.Sample.sendKeys.providedAmount = some amount ∧
      (relayerFeeWei : ℚ) < amount.toRat * 10 ^ 18 := by
  have ho : XMRMaker.Sample.offer.validate (fun _ => 1) = .ok XMRMaker.Sample.offer := by
    decide +kernel
  obtain ⟨amount, hp, hw, -⟩ := relayer_fee_covered ho rfl rfl XMRMaker.Sample.initiated
  exact ⟨amount, hp, hw⟩

end Relayer
