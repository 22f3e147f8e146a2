import AtomicSwap.Protocol.XMRMaker.Theorems.Lock

open Ethereum SwapCreator

namespace XMRMaker

variable {b : Backend} {ec : EthClient} {ic : InitiateCalls} {keys : SendKeysMessage}
  {s s₁ : SwapState} {offer : Offer} {newTxSender : Bool}

-- The filters as they are created with a state.
structure SwapState.Filters (s : SwapState) (contract : Address) (start : ℕ) : Prop where
  ready    : s.readyWatcher = newEventFilter contract start readyTopic
  refunded : s.refundedWatcher = newEventFilter contract start refundedTopic
  claimed  : s.claimedWatcher = newEventFilter contract start claimedTopic

theorem newSwapState_ok {start : ℕ} {info : Info}
    (h : newSwapState b newTxSender offer start info = .ok s) :
    s.offer = offer ∧ s.info = info ∧ s.Filters b.swapCreatorAddr start := by
  simp only [newSwapState, Except.bind_ok_iff, Except.pure_ok_iff] at h
  obtain ⟨_, _, h⟩ := h
  subst h
  exact ⟨rfl, rfl, rfl, rfl, rfl⟩

theorem newSwapStateFromStart_ok {providesAmount : Decimal} {desiredAmount : Coins.EthAssetAmount}
    (h : newSwapStateFromStart b ic offer providesAmount desiredAmount = .ok s) :
    s.offer = offer ∧ Coins.asMonero providesAmount = .ok s.info.providedAmount ∧
    desiredAmount.asStd = .ok s.info.expectedAmount ∧ s.info.status = .keysExchanged ∧
    ∃ n, s.Filters b.swapCreatorAddr n := by
  cases hh : ic.ethHeader
  case none => simp [newSwapStateFromStart, hh] at h
  case some n =>
    cases hg : ic.generateKeys
    case none => simp [newSwapStateFromStart, hh, hg] at h
    case some key =>
      simp only [newSwapStateFromStart, hh, hg, Except.bind_ok_iff, Except.mapError_eq_ok,
        Except.pure_ok_iff] at h
      obtain ⟨_, _, xmr, hx, amount, ha, s₁, hs, he⟩ := h
      obtain ⟨ho, hi, hf⟩ := newSwapState_ok hs
      subst he
      refine ⟨ho, ?_, ?_, ?_, n, hf.ready, hf.refunded, hf.claimed⟩
      all_goals simp [hi, hx, ha]

theorem newSwapStateFromStart_status {providesAmount : Decimal}
    {desiredAmount : Coins.EthAssetAmount}
    (h : newSwapStateFromStart b ic offer providesAmount desiredAmount = .ok s) :
    s.info.status = .keysExchanged :=
  have ⟨_, _, _, hs, _⟩ := newSwapStateFromStart_ok h
  hs

theorem initiate_ok {providesAmount : Decimal} {desiredAmount : Coins.EthAssetAmount}
    (h : initiate b ic offer providesAmount desiredAmount = .ok s) :
    s.offer = offer ∧ Coins.asMonero providesAmount = .ok s.info.providedAmount ∧
    desiredAmount.asStd = .ok s.info.expectedAmount ∧ s.info.status = .keysExchanged ∧
    ∃ n, s.Filters b.swapCreatorAddr n := by
  cases hu : ic.unlockedBalance
  case none => simp [initiate, hu] at h
  case some unlocked =>
    simp only [initiate, hu, Except.bind_ok_iff, Except.pure_ok_iff] at h
    obtain ⟨_, _, _, _, _, _, s₁, hs, _, _, he⟩ := h
    exact he ▸ newSwapStateFromStart_ok hs

theorem handleSendKeysMessage_ok (h : handleSendKeysMessage ic keys s = .ok s₁) :
    s₁.offer = s.offer ∧ s₁.info = s.info ∧
    ∀ {contract n}, s.Filters contract n → s₁.Filters contract n := by
  simp only [handleSendKeysMessage, Except.bind_ok_iff, Except.pure_ok_iff] at h
  obtain ⟨_, _, _, _, _, _, h⟩ := h
  subst h
  exact ⟨rfl, rfl, fun hf => ⟨hf.ready, hf.refunded, hf.claimed⟩⟩

-- The maker expects exactly the amount that the taker has offered.
theorem handleInitiateMessage_ok (h : handleInitiateMessage b ec ic keys = .ok s) :
    ic.getOffer keys.offerID = some s.offer ∧ (∃ n, s.Filters b.swapCreatorAddr n) ∧
    ∃ v, keys.providedAmount = some v ∧ s.info.expectedAmount.toRat = v.toRat ∧
      s.info.expectedAmount.form = .finite ∧ s.info.expectedAmount.negative = false := by
  cases hg : ic.getOffer keys.offerID
  case none => simp [handleInitiateMessage, hg] at h
  case some offer =>
    simp only [handleInitiateMessage, hg, Except.bind_ok_iff, Except.mapError_eq_ok,
      Except.pure_ok_iff] at h
    obtain ⟨_, _, token, _, amount, hv, expected, ha, xmr, _, _, _, _, _, _, _, s₁, hi, s₂, hk, _,
      _, he⟩ := h
    subst he
    obtain ⟨hr, v, hp, hv⟩ := Coins.validatePositive_eq_ok hv
    obtain ⟨ho, -, hi, -, n, hf⟩ := initiate_ok hi
    obtain ⟨ho', hi', hf'⟩ := handleSendKeysMessage_ok hk
    have hs := (Coins.newEthAssetAmount_exact hr ha).right _ hi
    rw [hi', ho', ho]
    exact ⟨rfl, ⟨n, hf' hf⟩, v, hp, hs.value.trans hv, hs.form.trans hr.finite,
      hs.negative.trans hr.positive⟩

-- A restart goes on with what the recovery database says, but with filters of the contract that is
-- configured now.
theorem newSwapStateFromOngoing_ok {newSwapCreator : Bool} {ethSwapInfo : EthereumSwapInfo}
    {info : Info}
    (h : newSwapStateFromOngoing b newTxSender newSwapCreator offer ethSwapInfo info = .ok s) :
    s.contractSwapID = ethSwapInfo.swapID ∧ s.swapCreatorAddr = ethSwapInfo.swapCreatorAddr ∧
    s.Filters b.swapCreatorAddr ethSwapInfo.startNumber := by
  simp only [newSwapStateFromOngoing, Except.bind_ok_iff, Except.pure_ok_iff] at h
  obtain ⟨_, _, s₁, hs, _, _, h⟩ := h
  obtain ⟨_, _, hf⟩ := newSwapState_ok hs
  subst h
  exact ⟨rfl, rfl, hf.ready, hf.refunded, hf.claimed⟩

end XMRMaker

namespace XMRMaker.Sample

def initiateCalls : InitiateCalls where
  getOffer id         := if id = 1 then some offer else none
  inProgress          := false
  unlockedBalance     := some { coeff := 2 * 10 ^ 12 }
  takeOffer           := true
  ethHeader           := some 90
  startSwap           := true
  newTxSender         := true
  generateKeys        := some makerKey
  assetSymbol         := true
  verifyKeysAndProof  := true
  putCounterpartyKeys := true
  sendSwapMessage     := true

def sendKeys : SendKeysMessage where
  offerID            := 1
  providedAmount     := some { coeff := 5 }
  hasMoneroKeys      := true
  secp256k1PublicKey := takerKey

theorem initiated :
    handleInitiateMessage backend (client []) initiateCalls sendKeys = .ok state := by
  decide +kernel

end XMRMaker.Sample
