import AtomicSwap.Protocol.XMRMaker.Theorems.Amounts
import AtomicSwap.Protocol.XMRMaker.Theorems.Initiate
import AtomicSwap.Protocol.XMRTaker.Theorems.Locked

open Ethereum SwapCreator Handler

variable {o offer : Offer} {hash : Offer → Bytes32} {a a' x : Decimal}
variable {token : Option Coins.ERC20TokenInfo} {amount : Coins.EthAssetAmount}

-- The amount `a` of the asset is worth the amount `x` of XMR, which the offer allows.
structure Offer.Allows (o : Offer) (token : Option Coins.ERC20TokenInfo) (a : Decimal)
    (amount : Coins.EthAssetAmount) (x : Decimal) : Prop where
  valid   : ∃ name v, Coins.validatePositive name (Coins.decimalsOf token) (some v) = .ok a
  units   : Coins.newEthAssetAmount a token = .ok amount
  asStd   : amount.asStd = .ok a
  toXMR   : Coins.ExchangeRate.toXMR o.exchangeRate amount = .ok x
  not_low : x.cmp o.minAmount ≠ .lt
  not_big : x.cmp o.maxAmount ≠ .gt

-- What an offer that was accepted allows can be given in piconeros.
theorem Offer.Allows.piconero (h : offer.Allows token a amount x) (hb : o.Bounds offer) :
    ∃ p, Coins.moneroToPiconero x = .ok p ∧ Coins.asMonero p = .ok x := by
  obtain ⟨_, hr, hf, hl⟩ := Coins.toXMR_eq_ok h.toXMR
  have hlow : offer.minAmount.toRat ≤ x.toRat :=
    not_lt.mp fun hx => h.not_low <| compare_lt_iff_lt.mpr hx
  have hbig : x.toRat ≤ offer.maxAmount.toRat :=
    not_lt.mp fun hx => h.not_big <| compare_gt_iff_gt.mpr hx
  have he : x.exponent ≤ (3 : ℕ) :=
    Decimal.exponent_le (hb.min_pos.trans_le hlow) (hbig.trans hb.max_le)
  exact Coins.asMonero_moneroToPiconero hr hf hl he

-- The offer is the same before its amounts are reduced.
theorem Offer.Allows.of_bounds (h : offer.Allows token a amount x) (hb : o.Bounds offer) :
    o.Allows token a amount x where
  valid   := h.valid
  units   := h.units
  asStd   := h.asStd
  toXMR   := hb.exchangeRate ▸ h.toXMR
  not_low := by simpa only [Decimal.cmp, hb.minAmount] using h.not_low
  not_big := by simpa only [Decimal.cmp, hb.maxAmount] using h.not_big

namespace XMRTaker

variable {calls : InitiateCalls} {s : SwapState}

-- The errors that are about the amounts of a swap.
def Error.isAmount : Error → Bool
  | .missingProvidedAmount | .unexpectedProvidedAmount .. | .coins _ => true
  | _                                                                => false

theorem newSwapStateFromStart_amounts {calls : StartCalls} {offerID : Bytes32}
    {noTransferBack : Bool} {rate : Decimal} {asset : Address}
    (h : newSwapStateFromStart calls offerID noTransferBack amount rate asset = .ok s) :
    Coins.ExchangeRate.toXMR rate amount = .ok s.info.expectedAmount ∧
    amount.asStd = .ok s.info.providedAmount ∧ s.info.ethAsset = asset ∧
    ∃ token, tokenOf calls asset = .ok token ∧
      Coins.newEthAssetAmount s.info.providedAmount token = .ok s.providedAmount := by
  simp only [newSwapStateFromStart, newSwapState, Except.bind_ok_iff, Except.failIf_eq_ok,
    Except.mapError_eq_ok, Except.pure_ok_iff] at h
  obtain ⟨_, _, _, _, x, hx, provided, hp, _, _, s₁, ⟨_, _, token, ht, p, ha, hs⟩, h⟩ := h
  split at h
  case h_1 =>
    rw [← Except.pure_ok_iff.mp h, ← hs]
    exact ⟨hx, hp, rfl, token, ht, ha⟩
  case h_2 => contradiction

theorem initiateProtocol_ok (h : initiateProtocol calls (some a) offer = .ok s) :
    s.info.ethAsset = offer.ethAsset ∧ ∃ token, tokenOf calls.start offer.ethAsset = .ok token ∧
      (∃ name, Coins.validatePositive name (Coins.decimalsOf token) (some a) =
        .ok s.info.providedAmount) ∧
      offer.Allows token s.info.providedAmount s.providedAmount s.info.expectedAmount := by
  simp only [initiateProtocol, initiate, Except.bind_ok_iff, Except.failIf_eq_ok,
    Except.mapError_eq_ok] at h
  obtain ⟨token, ht, d, hd, p, hp, x, hx, _, hlow, _, hbig, _, _, _, _, hs⟩ := h
  obtain ⟨hx', hstd, hasset, token', ht', hp'⟩ := newSwapStateFromStart_amounts hs
  obtain ⟨hr, _⟩ := Coins.validatePositive_pos hd
  have hrep := (Coins.validatePositive_eq_ok hd).left
  have hd' : s.info.providedAmount = d := Coins.asStd_eq hrep hr hp hstd
  have hx' : x = s.info.expectedAmount := Except.ok.inj (hx.symm.trans hx')
  have ht' : token = token' := Except.ok.inj (ht.symm.trans ht')
  have hp' : p = s.providedAmount := by
    rw [hd', ← ht'] at hp'
    exact Except.ok.inj (hp.symm.trans hp')
  subst hx' hp'
  rw [hd'] at hstd ⊢
  exact ⟨hasset, token, ht, ⟨_, hd⟩, ⟨_, a, hd⟩, hp, hstd, hx, hlow, hbig⟩

-- The amount of the reply is the one that is expected.
theorem checkKeys_amount {kc : KeysCalls} {msg : SendKeysMessage}
    (h : msg.providedAmount = some s.info.expectedAmount) :
    (checkKeys kc msg).Post s fun r _ => r.OnError (·.isAmount = false) := by
  refine post_get_bind.mpr <| post_ofOption_bind.mpr ⟨fun hn => ?_, fun x hx => ?_⟩
  · simp [h] at hn
  · obtain rfl : s.info.expectedAmount = x := Option.some.inj (h.symm.trans hx)
    refine post_throwIf_bind.mpr ⟨fun hl => ?_, fun _ => ?_⟩
    · exact absurd (compare_lt_iff_lt.mp hl) (lt_irrefl _)
    refine post_throwIf_bind.mpr ⟨fun _ => Except.onError_error rfl, fun _ => ?_⟩
    refine post_throwIf_bind.mpr ⟨fun _ => Except.onError_error rfl, fun _ => ?_⟩
    refine post_throwIf_bind.mpr ⟨fun _ => Except.onError_error rfl, fun _ => ?_⟩
    refine post_modify_bind.mpr <|
      post_throwIf_bind.mpr ⟨fun _ => Except.onError_error rfl, fun _ => ?_⟩
    refine post_modify_bind.mpr ?_
    cases kc.putCounterpartyKeys
    case false => exact Except.onError_error rfl
    case true  => exact Except.onError_ok

-- The swap that is locked has the value of the amount that was provided.
theorem readSwap_value {b : Backend} {nonce : ℤ} {receipt : Receipt} :
    (readSwap b nonce receipt).Post s fun r _ => ∀ sw, r = .ok sw →
      ∃ n : ℕ, s.providedAmount.bigInt = .ok n ∧ sw.value = n ∧ sw.asset = s.info.ethAsset := by
  refine post_throwIf_bind.mpr ⟨fun _ _ h => (by cases h), fun _ => ?_⟩
  refine post_bind_bind.mpr <| post_modify_bind.mpr <| post_bind_bind.mpr ?_
  refine post_ofExcept_bind.mpr ⟨fun _ _ _ h => (by cases h), fun _ _ => ?_⟩
  refine post_pure_bind.mpr ?_
  refine post_ofExcept_bind.mpr ⟨fun _ _ _ h => (by cases h), fun ⟨t1, t2⟩ _ => ?_⟩
  refine post_modify_bind.mpr <| post_modify_bind.mpr <| post_get_bind.mpr ?_
  refine post_ofOption_bind.mpr ⟨fun _ _ h => (by cases h), fun ours _ => ?_⟩
  refine post_ofOption_bind.mpr ⟨fun _ _ h => (by cases h), fun theirs _ => ?_⟩
  refine post_ofExcept_bind.mpr ⟨fun _ _ _ h => (by cases h), fun n hn => ?_⟩
  refine post_modify_bind.mpr fun sw h => ?_
  cases h
  exact ⟨n, Except.mapError_eq_ok.mp hn, rfl, rfl⟩

end XMRTaker

namespace XMRMaker

variable {b : Backend} {ec : EthClient} {ic : InitiateCalls} {keys : SendKeysMessage}
variable {s : SwapState} {p : Decimal}

-- The errors that are about the amounts of a swap.
def Error.isAmount : Error → Bool
  | .amountProvidedTooLow | .amountProvidedTooHigh | .exceedsDecimals _ | .valueMismatch ..
  | .unexpectedValue .. | .coins _ => true
  | _                              => false

section Amounts

variable (hp : Coins.asMonero p = .ok x) (ha : amount.asStd = .ok a)

include hp ha

theorem newSwapStateFromStart_onError :
    (newSwapStateFromStart b ic o p amount).OnError (·.isAmount = false) := by
  refine Except.onError_failIf_bind rfl fun _ => ?_
  split
  case h_1 =>
    simp only [hp, ha, Except.mapError_ok, Except.bind_ok]
    refine Except.OnError.bind ?_ fun _ _ => ?_
    · exact Except.onError_failIf_bind rfl fun _ => Except.onError_ok
    · split
      case h_1 => exact Except.onError_ok
      case h_2 => exact Except.onError_error rfl
  case h_2 => exact Except.onError_error rfl

theorem initiate_onError : (initiate b ic o p amount).OnError (·.isAmount = false) := by
  refine Except.onError_failIf_bind rfl fun _ => ?_
  split
  case h_1 =>
    refine Except.onError_failIf_bind rfl fun _ => ?_
    refine Except.onError_failIf_bind rfl fun _ => ?_
    refine (newSwapStateFromStart_onError hp ha).bind fun _ _ => ?_
    exact Except.onError_failIf_bind rfl fun _ => Except.onError_ok
  case h_2 => exact Except.onError_error rfl

theorem initiate_amounts (h : initiate b ic o p amount = .ok s) :
    s.info.providedAmount = x ∧ s.info.expectedAmount = a := by
  obtain ⟨_, hp', ha', _⟩ := initiate_ok h
  exact ⟨Except.ok.inj (hp'.symm.trans hp), Except.ok.inj (ha'.symm.trans ha)⟩

end Amounts

section Initiate

variable (h : o.Allows token a amount x)
  (ht : tokenOf ec o.ethAsset = .ok token) (hg : ic.getOffer keys.offerID = some o)
  (hk : Coins.validatePositive "providedAmount" (Coins.decimalsOf token) keys.providedAmount =
    .ok a)
  (hm : Coins.moneroToPiconero x = .ok p) (hp : Coins.asMonero p = .ok x)

include h ht hg hk hm

-- What is left of the handler when the amounts agree.
theorem handleInitiateMessage_eq :
    handleInitiateMessage b ec ic keys = do
      .failIf (keys.offerID = 0) .offerIDNotSet
      let s ← initiate b ic o p amount
      let s ← handleSendKeysMessage ic keys s
      .failIf (!ic.sendSwapMessage) .sendKeys
      return s := by
  simp only [handleInitiateMessage, hg, ht, hk, h.units, h.toXMR, hm, Except.mapError_ok,
    Except.bind_ok, Except.failIf, if_neg h.not_low, if_neg h.not_big]

include hp

theorem handleInitiateMessage_onError :
    (handleInitiateMessage b ec ic keys).OnError (·.isAmount = false) := by
  rw [handleInitiateMessage_eq h ht hg hk hm]
  refine Except.onError_failIf_bind rfl fun _ => ?_
  refine (initiate_onError hp h.asStd).bind fun s _ => ?_
  refine Except.OnError.bind ?_ fun _ _ => ?_
  · refine Except.onError_failIf_bind rfl fun _ => ?_
    refine Except.onError_failIf_bind rfl fun _ => ?_
    exact Except.onError_failIf_bind rfl fun _ => Except.onError_ok
  · exact Except.onError_failIf_bind rfl fun _ => Except.onError_ok

theorem handleInitiateMessage_amounts (hs : handleInitiateMessage b ec ic keys = .ok s) :
    s.info.providedAmount = x ∧ s.info.expectedAmount = a := by
  rw [handleInitiateMessage_eq h ht hg hk hm] at hs
  simp only [Except.bind_ok_iff, Except.pure_ok_iff] at hs
  obtain ⟨_, _, s₁, hi, s₂, hk, _, _, rfl⟩ := hs
  rw [(handleSendKeysMessage_ok hk).right.left]
  exact initiate_amounts hp h.asStd hi

end Initiate

-- The maker computes the value of the swap as the taker did.
theorem checkValue_amount {sw : SwapCreatorSwap} {n : ℕ} (h : o.Allows token a amount x)
    (ht : tokenOf ec sw.asset = .ok token) (ha : s.info.expectedAmount = a)
    (hn : amount.bigInt = .ok n) (hv : sw.value = n) (s' : SwapState) :
    checkValue ec s sw s' = (.ok (), s') := by
  obtain ⟨name, v, hd⟩ := h.valid
  have hrep := (Coins.validatePositive_eq_ok hd).left
  have hr : a.reduce = a := (Coins.validatePositive_pos hd).left
  have hg : getEthAssetAmount ec a sw.asset = .ok amount :=
    getEthAssetAmount_eq ht hrep.not_exceedsDecimals (hr.symm ▸ h.units)
  simp [checkValue, ha, hg, hn, hv]

-- The event of the transaction that locked the swap has the value of the swap.
def Locked (ec : EthClient) (txHash : Bytes32) (sw : SwapCreatorSwap) : Prop :=
  ∀ receipt event, ec.waitForReceipt txHash = some receipt →
    receipt.logs.findSome? parseNew = some event → event.value = sw.value

theorem checkContract_onError {sw : SwapCreatorSwap} {txHash : Bytes32} (hl : Locked ec txHash sw)
    (hc : s.contractSwap = some sw) (hv : ∀ s', checkValue ec s sw s' = (.ok (), s')) :
    (checkContract b ec txHash).Post s fun r _ => r.OnError (·.isAmount = false) := by
  refine post_get_bind.mpr <| post_ofOption_bind.mpr
    ⟨fun _ => Except.onError_error rfl, fun tx _ => ?_⟩
  refine post_throwIf_bind.mpr ⟨fun _ => Except.onError_error rfl, fun _ => ?_⟩
  refine post_ofOption_bind.mpr ⟨fun _ => Except.onError_error rfl, fun receipt hr => ?_⟩
  refine post_throwIf_bind.mpr ⟨fun _ => Except.onError_error rfl, fun _ => ?_⟩
  refine post_ofOption_bind.mpr ⟨fun _ => Except.onError_error rfl, fun event he => ?_⟩
  refine post_ofOption_bind.mpr ⟨fun _ => Except.onError_error rfl, fun sw' hs => ?_⟩
  obtain rfl : sw = sw' := Option.some.inj (hc.symm.trans hs)
  have hk : (checkEvent b s sw event).Post s fun r _ => r.OnError (·.isAmount = false) := by
    refine post_throwIf_bind.mpr ⟨fun _ => Except.onError_error rfl, fun _ => ?_⟩
    refine post_ofOption_bind.mpr ⟨fun _ => Except.onError_error rfl, fun _ _ => ?_⟩
    refine post_throwIf_bind.mpr ⟨fun _ => Except.onError_error rfl, fun _ => ?_⟩
    refine post_ofOption_bind.mpr ⟨fun _ => Except.onError_error rfl, fun _ _ => ?_⟩
    refine post_throwIf_bind.mpr ⟨fun _ => Except.onError_error rfl, fun _ => ?_⟩
    refine post_throwIf_bind.mpr ⟨fun _ => Except.onError_error rfl, fun _ => ?_⟩
    have hw : (event.value : ℤ) = sw.value := hl receipt event hr he
    simp [throwIf, Handler.ofExcept, Post, hw, Except.onError_ok]
  refine hk.bind (fun _ _ he => he) fun _ s' _ => ?_
  rw [Post, hv]
  exact Except.onError_ok

end XMRMaker

section Agreement

variable {tc : XMRTaker.InitiateCalls} {st : XMRTaker.SwapState} {b : XMRMaker.Backend}
variable {ec : XMRMaker.EthClient} {ic : XMRMaker.InitiateCalls} {keys : XMRMaker.SendKeysMessage}

theorem tokenOf_agree {calls : XMRTaker.StartCalls} {asset : Address}
    (he : ec.erc20Info asset = calls.erc20Info asset)
    (h : XMRTaker.tokenOf calls asset = .ok token) : XMRMaker.tokenOf ec asset = .ok token := by
  simp only [XMRTaker.tokenOf, XMRMaker.tokenOf, he] at h ⊢
  split at h
  case isTrue hasset => simpa [hasset] using h
  case isFalse hasset =>
    split at h
    case h_1 => contradiction
    case h_2 t ht => simpa [hasset, ht] using h

-- The maker replies with what the taker expects, and the taker locks what the maker expects.
theorem amounts_agree (ho : o.validate hash = .ok offer)
    (hi : XMRTaker.initiateProtocol tc (some a) offer = .ok st)
    (he : ec.erc20Info offer.ethAsset = tc.start.erc20Info offer.ethAsset)
    (hg : ic.getOffer keys.offerID = some o) (hv : a.SameValue a')
    (hk : keys.providedAmount = some a') :
    (XMRMaker.handleInitiateMessage b ec ic keys).OnError (·.isAmount = false) ∧
    ∀ sm, XMRMaker.handleInitiateMessage b ec ic keys = .ok sm →
      sm.info.providedAmount = st.info.expectedAmount ∧
      (∀ st₁ kc msg, st₁.info.expectedAmount = st.info.expectedAmount →
        msg.providedAmount = some sm.info.providedAmount →
        (XMRTaker.checkKeys kc msg st₁).fst.OnError (·.isAmount = false)) ∧
      ∀ bt nonce receipt st₁ st₂ sw, st₁.providedAmount = st.providedAmount →
        st₁.info.ethAsset = st.info.ethAsset →
        XMRTaker.readSwap bt nonce receipt st₁ = (.ok sw, st₂) →
        ∀ b₁ ec₁ sm₁ txHash, ec₁.erc20Info offer.ethAsset = tc.start.erc20Info offer.ethAsset →
          XMRMaker.Locked ec₁ txHash sw → sm₁.contractSwap = some sw →
          sm₁.info.expectedAmount = sm.info.expectedAmount →
          (XMRMaker.checkContract b₁ ec₁ txHash sm₁).fst.OnError (·.isAmount = false) := by
  have hb : o.Bounds offer := Offer.validate_eq_ok ho
  obtain ⟨hasset, token, ht, ⟨name, hd⟩, hal⟩ := XMRTaker.initiateProtocol_ok hi
  obtain ⟨p, hm, hp⟩ := hal.piconero hb
  have hal' := hal.of_bounds hb
  have ht' : XMRMaker.tokenOf ec o.ethAsset = .ok token := hb.ethAsset ▸ tokenOf_agree he ht
  have hd' : Coins.validatePositive "providedAmount" (Coins.decimalsOf token) keys.providedAmount =
      .ok st.info.providedAmount := hk ▸ Coins.validatePositive_sameValue hv hd
  refine ⟨XMRMaker.handleInitiateMessage_onError hal' ht' hg hd' hm hp, fun sm hs => ?_⟩
  obtain ⟨hx, ha⟩ := XMRMaker.handleInitiateMessage_amounts hal' ht' hg hd' hm hp hs
  refine ⟨hx, fun st₁ kc msg h₁ hmsg => ?_, ?_⟩
  · exact XMRTaker.checkKeys_amount (by rw [hmsg, hx, h₁])
  · intro bt nonce receipt st₁ st₂ sw hprov hasset₁ hr b₁ ec₁ sm₁ txHash he₁ hl hc hexp
    obtain ⟨n, hn, hw, hsa⟩ := XMRTaker.readSwap_value.result hr sw rfl
    have hsa : sw.asset = offer.ethAsset := (hsa.trans hasset₁).trans hasset
    have ht₁ : XMRMaker.tokenOf ec₁ sw.asset = .ok token := hsa ▸ tokenOf_agree he₁ ht
    exact XMRMaker.checkContract_onError hl hc <|
      XMRMaker.checkValue_amount hal ht₁ (hexp.trans ha) (hprov ▸ hn) hw

end Agreement

namespace XMRTaker.Sample

def initiateCalls : InitiateCalls where
  start              := startCalls
  validateMinBalance := true
  inProgress         := false
  noTransferBack     := false

end XMRTaker.Sample

section Sample

open XMRMaker.Sample (backend client initiateCalls sendKeys initiated)

theorem amounts_agree_offer :
    let offer := XMRMaker.Sample.offer
    let sm := XMRMaker.Sample.state
    let st := XMRTaker.Sample.state
    offer.validate (fun _ => 1) = .ok offer ∧
    XMRTaker.initiateProtocol XMRTaker.Sample.initiateCalls (some { coeff := 5 }) offer = .ok st ∧
    XMRMaker.handleInitiateMessage backend (client []) initiateCalls sendKeys = .ok sm ∧
    sm.info.providedAmount = st.info.expectedAmount := by
  have ho : XMRMaker.Sample.offer.validate (fun _ => 1) = .ok XMRMaker.Sample.offer := by
    decide +kernel
  have hi : XMRTaker.initiateProtocol XMRTaker.Sample.initiateCalls (some { coeff := 5 })
      XMRMaker.Sample.offer = .ok XMRTaker.Sample.state := by decide +kernel
  refine ⟨ho, hi, initiated, ?_⟩
  refine ((amounts_agree ho hi ?_ ?_ ⟨rfl, rfl, rfl⟩ ?_).right _ initiated).left
  all_goals rfl

end Sample
