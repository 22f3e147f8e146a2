import AtomicSwap.Protocol.Swap.Theorems.Manager
import AtomicSwap.Protocol.XMRMaker.Instance
import AtomicSwap.Protocol.XMRMaker.Theorems.Initiate
import AtomicSwap.Protocol.XMRMaker.Theorems.Offers

open Ethereum Handler Function

namespace XMRMaker

namespace Offers.Manager

variable {m : Manager} {oe : OfferWithExtra} {id : Bytes32}

-- The offers in memory have the IDs under which they are found.
def Keyed (m : Manager) : Prop :=
  ∀ id oe, m.offers id = some oe → oe.offer.id = id

theorem post_getOffer {Q : Except Error OfferWithExtra → Manager → Prop} :
    (getOffer id).Post m Q ↔
      (m.offers id = none → Q (.error .offerDoesNotExist) m) ∧
      ∀ oe, m.offers id = some oe → Q (.ok oe) m := by
  simp only [getOffer, post_get_bind, post_ofOption]

theorem post_takeOffer {Q : Except Error OfferWithExtra → Manager → Prop} :
    (takeOffer id).Post m Q ↔
      (m.offers id = none → Q (.error .offerDoesNotExist) m) ∧
      ∀ oe, m.offers id = some oe → Q (.ok oe) { m with offers := update m.offers id none } := by
  simp only [takeOffer, getOffer, post_bind_bind, post_get_bind, post_ofOption_bind,
    post_modify_bind, post_pure]

-- An offer that is not there is put back with what belongs to it.
theorem post_addOffer {Q : Except Error Bool → Manager → Prop} (h : m.offers oe.offer.id = none) :
    (addOffer true oe.offer oe.useRelayer).Post m Q ↔
      Q (.ok oe.useRelayer)
        { m with
          offers := update m.offers oe.offer.id (some oe)
          db     := m.db.putOffer oe.offer } := by
  simp only [addOffer, post_get_bind, h, post_throwIf_bind, post_modify_bind, post_pure]
  simp

section Keyed

theorem newManager_keyed {db : OfferTable} : (newManager db).Keyed := by
  intro id oe h
  obtain ⟨offer, ho, rfl⟩ := Option.map_eq_some_iff.mp h
  exact db.keyed id offer ho

theorem forget_keyed {db : OfferTable} (h : m.Keyed) :
    Keyed { m with offers := update m.offers id none, db } := by
  intro id' oe ho
  by_cases hi : id' = id
  · simp [hi] at ho
  · exact h id' oe (by simpa [update_of_ne hi] using ho)

theorem put_keyed {offer : Offer} {useRelayer : Bool} {db : OfferTable} (h : m.Keyed) :
    Keyed { m with offers := update m.offers offer.id (some { offer, useRelayer }), db } := by
  intro id oe' ho
  by_cases hi : id = offer.id
  · subst hi
    simp only [update_self, Option.some.injEq] at ho
    rw [← ho]
  · exact h id oe' (by simpa [update_of_ne hi] using ho)

theorem preserves_deleteOffer_keyed {del : Bool} : (deleteOffer del id).Preserves Keyed :=
  preserves_bind (preserves_modify fun _ h => forget_keyed h) fun _ =>
    preserves_bind preserves_throwIf fun _ => preserves_modify fun _ h => h

theorem preserves_clearAllOffers_keyed {result : ClearResult} :
    (clearAllOffers result).Preserves Keyed := by
  cases result
  case cleared        => exact fun _ _ _ _ h => by cases h
  case failed deleted =>
    exact preserves_bind (preserves_modify fun _ h => h) fun _ => preserves_throwIf

end Keyed

end Offers.Manager

namespace Offers.Daemon

variable {d : Daemon} {i : Input} {is : List Input}

theorem step_keyed (h : d.manager.Keyed) : (d.step i).manager.Keyed := by
  cases i
  case getOffer            => exact h
  case addOffer            => exact Manager.preserves_addOffer (fun _ => Manager.put_keyed) _ h
  case takeOffer           => exact Manager.preserves_takeOffer (fun _ => Manager.forget_keyed) _ h
  case deleteOffer         => exact Manager.preserves_deleteOffer_keyed _ h
  case clearOfferIDs       =>
    exact Manager.preserves_clearOfferIDs (fun _ _ => Manager.preserves_deleteOffer_keyed) _ h
  case clearAllOffers      => exact Manager.preserves_clearAllOffers_keyed _ h
  case restart             => exact Manager.newManager_keyed
  case initiateFailed      => exact h
  case initiate id         =>
    simp only [step]
    split
    case h_1 ht =>
      obtain ⟨-, rfl⟩ := Manager.takeOffer_ok.mp ht
      exact Manager.forget_keyed h
    case h_2    => exact h
  all_goals simp only [step]; split <;> exact h

theorem run_keyed : (run is .new).manager.Keyed :=
  Machine.run_keeps (I := fun d : Daemon => d.manager.Keyed) (fun _ _ => step_keyed)
    Manager.newManager_keyed

end Offers.Daemon

namespace Instance

variable {b : Backend} {ec : EthClient} {calls : InstanceCalls} {msg : SendKeysMessage}
  {inst inst' : Instance} {oe : Offers.OfferWithExtra} {s : Started} {e : Error}

-- What `initiate` checks before it takes an offer.
def Checks (inst : Instance) (calls : InstanceCalls) (oe : Offers.OfferWithExtra) (p : Decimal) :
    Prop :=
  inst.swapStates oe.offer.id = none ∧ ∃ unlocked, calls.unlockedBalance = some unlocked ∧
    unlocked.cmp p = .gt

-- The message passes all checks, so that the offer is taken.
def Takes (inst : Instance) (ec : EthClient) (calls : InstanceCalls) (msg : SendKeysMessage)
    (oe : Offers.OfferWithExtra) : Prop :=
  msg.offerID ≠ 0 ∧ inst.offerManager.offers msg.offerID = some oe ∧
    ∃ p a, amountsOf ec oe.offer msg = .ok (p, a) ∧ inst.Checks calls oe p

-- All calls of `newSwapStateFromStart` succeed.
structure Starts (calls : InstanceCalls) (oe : Offers.OfferWithExtra) : Prop where
  putSwapRelayerInfo : oe.useRelayer → calls.putSwapRelayerInfo
  getHeight          : calls.getHeight
  ethHeader          : calls.ethHeader.isSome
  addSwap            : calls.addSwap
  newSwapState       : calls.newSwapState
  generateKeys       : calls.generateKeys.isSome

-- The entry of a started swap in the swap manager.
structure Added (inst : Instance) (s : Started) : Prop where
  info    : ∃ r, inst.swapManager.infos[s.info]? = some r ∧ r.offerID = s.oe.offer.id
  ongoing : s.oe.offer.id ∈ inst.swapManager.ongoing
  taken   : inst.offerManager.offers s.oe.offer.id = none

-- The swap is removed even if this cannot be written, but then the offer is not put back.
theorem retire_post (h : inst.Added s) :
    (retire calls s .readded).Post inst fun _ inst' =>
      s.oe.offer.id ∉ inst'.swapManager.ongoing ∧
      inst'.offerManager.offers s.oe.offer.id =
        if calls.completeOngoingSwap then some s.oe else none := by
  obtain ⟨r, hr, hi⟩ := h.info
  refine post_zoom_bind.mpr <| Swap.Manager.post_completeOngoingSwap.mpr ⟨by simp [hr], ?_⟩
  intro r' hr'
  obtain rfl : r = r' := Option.some.inj (hr.symm.trans hr')
  refine ⟨fun hn => absurd (hi ▸ h.ongoing) hn, fun _ => Swap.Manager.post_putSwap.mpr ⟨?_, ?_⟩⟩
  · intro hc
    simpa [Swap.Manager.moved, hi, hc] using h.taken
  · intro hc
    refine post_zoom_bind.mpr <| (Offers.Manager.post_addOffer h.taken).mpr ?_
    simp [Swap.Manager.moved, hi, hc]

theorem exit_post (h : inst.Added s) (he : s.state.nextExpectedEvent = .ethLocked)
    (ho : s.state.offer = s.oe.offer) (hi : s.oe.offer.id ≠ 0) :
    (exit calls s).Post inst fun r inst' =>
      r = .ok () ∧ s.oe.offer.id ∉ inst'.swapManager.ongoing ∧
      inst'.offerManager.offers s.oe.offer.id =
        if calls.completeOngoingSwap then some s.oe else none := by
  have hf : ((Loop.start s.state).exit 0).retireOffer = .readded := by
    simpa [Loop.exit, Loop.retireOffer, Loop.clearNextExpectedEvent, Loop.start, he, ho] using hi
  simp only [exit, hf]
  refine post_zoom_bind.mpr <| post_modify.mpr ?_
  have ha : Added
      { inst with
        swapManager.infos := inst.swapManager.infos.modify s.info
          ({ · with status := ((Loop.start s.state).exit 0).swap.info.status }) } s := by
    obtain ⟨r, hr, hi⟩ := h.info
    refine ⟨⟨{ r with status := ((Loop.start s.state).exit 0).swap.info.status }, ?_, hi⟩,
      h.ongoing, h.taken⟩
    simp [hr]
  exact (retire_post ha).attempt_bind fun _ _ h => ⟨rfl, h⟩

theorem coins_isPanic {α : Type} {x : Except Coins.Error α} (h : x.mapError .coins = .error e)
    (hx : ∀ e, x = .error e → e = .panicked) : e.isPanic := by
  cases x
  case ok    => cases h
  case error =>
    cases h
    rw [hx _ rfl]
    rfl

theorem newSwapState_event {newTxSender : Bool} {start : ℕ} {info : Info} {s : SwapState}
    {offer : Offer} (h : newSwapState b newTxSender offer start info = .ok s) :
    newTxSender ∧ s.nextExpectedEvent = nextExpectedEventFromStatus info.status := by
  simp only [newSwapState, Except.bind_ok_iff, Except.failIf_eq_ok, Except.pure_ok_iff] at h
  obtain ⟨_, hn, rfl⟩ := h
  exact ⟨by simpa using hn, rfl⟩

-- An error that is no panic comes from a call, and the offer is not put back.
structure StartResult (calls : InstanceCalls) (oe : Offers.OfferWithExtra) (inst inst' : Instance)
    (r : Except Error Started) : Prop where
  offers : inst'.offerManager = inst.offerManager
  error  : ∀ e, r = .error e → e.isPanic = false → ¬Starts calls oe
  ok     : ∀ s, r = .ok s → Starts calls oe ∧ inst'.Added s ∧ s.oe = oe ∧
    s.state.nextExpectedEvent = .ethLocked ∧ s.state.offer = oe.offer

theorem StartResult.failed (hm : inst'.offerManager = inst.offerManager)
    (h : e.isPanic = false → ¬Starts calls oe) : StartResult calls oe inst inst' (.error e) where
  offers := hm
  error  := by rintro _ ⟨⟩; exact h
  ok     := by rintro _ ⟨⟩

theorem newSwapStateFromStart_post {p : Decimal} {a : Coins.EthAssetAmount}
    (ht : inst.offerManager.offers oe.offer.id = none) :
    (newSwapStateFromStart b calls oe p a).Post inst fun r inst' =>
      StartResult calls oe inst inst' r := by
  refine post_throwIf_bind.mpr ⟨fun h => .failed rfl fun _ hs => ?_, fun hr => ?_⟩
  · simp [hs.putSwapRelayerInfo h.left] at h
  refine post_throwIf_bind.mpr ⟨fun h => .failed rfl fun _ hs => ?_, fun hh => ?_⟩
  · simp [hs.getHeight] at h
  refine post_ofOption_bind.mpr ⟨fun h => .failed rfl fun _ hs => ?_, fun n hn => ?_⟩
  · simpa [h] using hs.ethHeader
  refine post_ofExcept_bind.mpr ⟨fun e h => .failed rfl fun hp => ?_, fun provided _ => ?_⟩
  · simp [coins_isPanic h fun _ => Coins.asMonero_eq_error] at hp
  refine post_ofExcept_bind.mpr ⟨fun e h => .failed rfl fun hp => ?_, fun expected _ => ?_⟩
  · simp [coins_isPanic h fun _ => Coins.asStd_eq_error] at hp
  refine post_zoom_bind.mpr <| Swap.Manager.post_newInfo.mpr <| post_zoom_bind.mpr <|
    Swap.Manager.post_addSwap.mpr ⟨by simp, fun r hi => ?_⟩
  simp only [List.getElem?_concat_length, Option.some.injEq] at hi
  subst hi
  refine Swap.Manager.post_putSwap.mpr ⟨fun h => .failed rfl fun _ hs => ?_, fun ha => ?_⟩
  · simp [hs.addSwap] at h
  refine post_ofExcept_bind.mpr ⟨fun e h => .failed rfl fun _ hs => ?_, fun s hs => ?_⟩
  · simp [newSwapState, hs.newSwapState, Except.failIf] at h
  refine post_ofOption_bind.mpr ⟨fun h => .failed rfl fun _ hs => ?_, fun key hk => ?_⟩
  · simpa [h] using hs.generateKeys
  obtain ⟨hc, hev⟩ := newSwapState_event hs
  refine post_pure.mpr ⟨rfl, fun _ h => (by cases h), ?_⟩
  rintro _ ⟨⟩
  refine ⟨⟨by simpa using hr, by simpa using hh, by simp [hn], ha, hc, by simp [hk]⟩,
    ⟨⟨_, List.getElem?_concat_length, rfl⟩, ?_, ht⟩, rfl, hev, (newSwapState_ok hs).left⟩
  simp [Swap.Manager.added, Status.isOngoing]

section Result

variable {p : Decimal} {a : Coins.EthAssetAmount}

theorem newSwapStateFromStart_result (inst₀ : Instance) :
    (newSwapStateFromStart b calls oe p a).Post inst fun r _ =>
      r.map (·.state) =
        XMRMaker.newSwapStateFromStart b (calls.toInitiateCalls inst₀ oe) oe.offer p a := by
  have hst : (calls.toInitiateCalls inst₀ oe).startSwap =
    ((!oe.useRelayer || calls.putSwapRelayerInfo) && calls.getHeight) := rfl
  have hnt : (calls.toInitiateCalls inst₀ oe).newTxSender =
    (calls.addSwap && calls.newSwapState) := rfl
  have hgk : (calls.toInitiateCalls inst₀ oe).generateKeys = calls.generateKeys := rfl
  have heh : (calls.toInitiateCalls inst₀ oe).ethHeader = calls.ethHeader := rfl
  simp only [XMRMaker.newSwapStateFromStart, hst, hnt, hgk, heh, Except.failIf]
  refine post_throwIf_bind.mpr ⟨fun h => ?_, fun hr => ?_⟩
  · obtain ⟨hr, hp⟩ := h
    have hp : calls.putSwapRelayerInfo = false := by simpa using hp
    simp [hr, hp, Except.map, Except.bind_error]
  refine post_throwIf_bind.mpr ⟨fun h => ?_, fun hh => ?_⟩
  · have hh : calls.getHeight = false := by simpa using h
    simp [hh, Except.map, Except.bind_error]
  have hs : ((!oe.useRelayer || calls.putSwapRelayerInfo) && calls.getHeight) = true := by
    cases h : oe.useRelayer <;> simp_all
  simp only [hs, Bool.not_true, Bool.false_eq_true, if_false, Except.bind_ok]
  refine post_ofOption_bind.mpr ⟨fun h => by rw [h]; rfl, fun n hn => ?_⟩
  rw [hn]
  refine post_ofExcept_bind.mpr ⟨fun e h => by rw [h]; rfl, fun provided hp => ?_⟩
  rw [hp]
  refine post_ofExcept_bind.mpr ⟨fun e h => by rw [h]; rfl, fun expected he => ?_⟩
  rw [he]
  refine post_zoom_bind.mpr <| Swap.Manager.post_newInfo.mpr <| post_zoom_bind.mpr <|
    Swap.Manager.post_addSwap.mpr ⟨by simp, fun r hi => ?_⟩
  refine Swap.Manager.post_putSwap.mpr ⟨fun h => by rw [h]; rfl, fun ha => ?_⟩
  simp only [ha, Bool.true_and, Except.bind_ok]
  refine post_ofExcept_bind.mpr ⟨fun e h => by rw [h]; rfl, fun s hs => ?_⟩
  rw [hs]
  refine post_ofOption_bind.mpr ⟨fun h => by rw [h]; rfl, fun key hk => ?_⟩
  rw [hk]
  rfl

theorem exit_result : (exit calls s).Post inst fun r _ => r = .ok () :=
  rfl

theorem initiate_result (ho : (inst.offerManager.offers oe.offer.id).isSome) :
    (initiate b calls oe p a).Post inst fun r _ =>
      r.map (·.state) = XMRMaker.initiate b (calls.toInitiateCalls inst oe) oe.offer p a := by
  have hip : (calls.toInitiateCalls inst oe).inProgress =
    (inst.swapStates oe.offer.id).isSome := rfl
  have hub : (calls.toInitiateCalls inst oe).unlockedBalance = calls.unlockedBalance := rfl
  have hto : (calls.toInitiateCalls inst oe).takeOffer = true := ho
  have has : (calls.toInitiateCalls inst oe).assetSymbol =
    (decide (oe.offer.ethAsset = ethAssetETH) || calls.assetSymbol) := rfl
  simp only [XMRMaker.initiate, hip, hub, hto, has, Except.failIf]
  refine post_get_bind.mpr <| post_throwIf_bind.mpr ⟨fun h => by rw [if_pos h]; rfl, fun hs => ?_⟩
  simp only [if_neg hs, Except.bind_ok]
  refine post_ofOption_bind.mpr ⟨fun h => by rw [h]; rfl, fun unlocked hu => ?_⟩
  rw [hu]
  refine post_throwIf_bind.mpr ⟨fun h => by simp [h, Except.bind_error, Except.map], fun hc => ?_⟩
  simp only [if_neg hc, Bool.not_true, Bool.false_eq_true, if_false, Except.bind_ok]
  refine post_zoom_bind.mpr <| Offers.Manager.post_takeOffer.mpr ⟨fun h => by simp [h] at ho, ?_⟩
  intro _ _
  refine (newSwapStateFromStart_result inst).bind (fun e _ h => ?_) fun s _ h => ?_
  · rw [← h]
    rfl
  rw [← h]
  split
  case isTrue h  =>
    refine exit_result.bind (by simp) fun _ _ _ => post_throwIf_bind.mpr ⟨fun _ => ?_, by simp⟩
    simp only [ne_eq, Bool.not_eq_true'] at h
    simp only [h.left, h.right]
    rfl
  case isFalse h =>
    have hc : (!(decide (oe.offer.ethAsset = ethAssetETH) || calls.assetSymbol)) = false := by
      simpa [Decidable.or_iff_not_imp_left] using h
    rw [hc]
    rfl

theorem handleInitiateMessage_eq {ic : InitiateCalls} {offer : Offer}
    (hi : msg.offerID ≠ 0) (ho : ic.getOffer msg.offerID = some offer) :
    XMRMaker.handleInitiateMessage b ec ic msg = do
      let (p, a) ← amountsOf ec offer msg
      let s ← XMRMaker.initiate b ic offer p a
      let s ← handleSendKeysMessage ic msg s
      .failIf (!ic.sendSwapMessage) .sendKeys
      return s := by
  simp only [XMRMaker.handleInitiateMessage, ho, Except.failIf, if_neg hi, Except.bind_ok,
    amountsOf, bind_assoc, pure_bind]

-- The managers do not change what is returned.
theorem handleInitiateMessage_result (hk : inst.offerManager.Keyed)
    (ho : inst.offerManager.offers msg.offerID = some oe) :
    (handleInitiateMessage b ec calls msg inst).fst =
      XMRMaker.handleInitiateMessage b ec (calls.toInitiateCalls inst oe) msg := by
  change (handleInitiateMessage b ec calls msg).Post inst fun r _ => r = _
  refine post_get_bind.mpr <| post_throwIf_bind.mpr ⟨fun h => ?_, fun hi => ?_⟩
  · simp [XMRMaker.handleInitiateMessage, Except.failIf, h, Except.bind_error]
  have hg : (calls.toInitiateCalls inst oe).getOffer msg.offerID = some oe.offer := by
    simp [InstanceCalls.toInitiateCalls, ho]
  rw [handleInitiateMessage_eq hi hg]
  refine post_zoom_bind.mpr <| Offers.Manager.post_getOffer.mpr ⟨by simp [ho], fun oe' ho' => ?_⟩
  obtain rfl : oe = oe' := Option.some.inj (ho.symm.trans ho')
  refine post_ofExcept_bind.mpr ⟨fun e h => by rw [h]; rfl, fun pa h => ?_⟩
  obtain ⟨p, a⟩ := pa
  have hr : (initiate b calls oe p a).Post inst fun r _ =>
      r.map (·.state) = XMRMaker.initiate b (calls.toInitiateCalls inst oe) oe.offer p a :=
    initiate_result <| by rw [hk _ _ ho, ho]; rfl
  simp only [h, Except.bind_ok]
  refine hr.bind (fun e _ h => by rw [← h]; rfl) fun s _ h => ?_
  rw [← h]
  split
  case h_1 e h =>
    refine exit_result.bind (by simp) fun _ _ _ => post_ofExcept.mpr ?_
    simp [Except.map, Except.bind_ok, h, Except.bind_error]
  case h_2 state h =>
    simp only [Except.map, Except.bind_ok, h]
    have hm : (calls.toInitiateCalls inst oe).sendSwapMessage = calls.sendSwapMessage := rfl
    split
    case isTrue hs  =>
      refine exit_result.bind (by simp) fun _ _ _ => post_ofExcept.mpr ?_
      simp [hm, hs, Except.failIf]
    case isFalse hs => simp [hm, hs, Except.failIf]

end Result

-- The offer is back, and there is no swap for it.
def Restored (inst : Instance) (oe : Offers.OfferWithExtra) : Prop :=
  inst.offerManager.offers oe.offer.id = some oe ∧ oe.offer.id ∉ inst.swapManager.ongoing

structure InitiateResult (calls : InstanceCalls) (oe : Offers.OfferWithExtra) (p : Decimal)
    (inst inst' : Instance) (r : Except Error Started) : Prop where
  error : ∀ e, r = .error e → e.isPanic = false →
    inst' = inst ∧ ¬inst.Checks calls oe p ∨
    inst.Checks calls oe p ∧ (inst'.Restored oe ↔ Starts calls oe ∧ calls.completeOngoingSwap)
  ok    : ∀ s, r = .ok s → inst.Checks calls oe p ∧ Starts calls oe ∧ inst'.Added s ∧ s.oe = oe ∧
    s.state.nextExpectedEvent = .ethLocked ∧ s.state.offer = oe.offer

theorem InitiateResult.unchecked {p : Decimal} (h : ¬inst.Checks calls oe p) :
    InitiateResult calls oe p inst inst (.error e) where
  error := fun _ _ _ => .inl ⟨rfl, h⟩
  ok    := by rintro _ ⟨⟩

theorem exit_restored (h : inst.Added s) (he : s.state.nextExpectedEvent = .ethLocked)
    (ho : s.state.offer = s.oe.offer) (hi : s.oe.offer.id ≠ 0) :
    (exit calls s).Post inst fun r inst' =>
      r = .ok () ∧ (inst'.Restored s.oe ↔ calls.completeOngoingSwap) := by
  refine (exit_post h he ho hi).imp fun r inst' ⟨hr, hn, hf⟩ => ⟨hr, ?_⟩
  simp only [Restored, hf, hn, not_false_eq_true, and_true]
  split <;> simp_all

theorem initiate_post {p : Decimal} {a : Coins.EthAssetAmount} (hi : oe.offer.id ≠ 0)
    (ho : inst.offerManager.offers oe.offer.id = some oe) :
    (initiate b calls oe p a).Post inst fun r inst' => InitiateResult calls oe p inst inst' r := by
  refine post_get_bind.mpr <| post_throwIf_bind.mpr ⟨fun h => .unchecked ?_, fun hs => ?_⟩
  · rintro ⟨hn, -⟩
    simp [hn] at h
  refine post_ofOption_bind.mpr ⟨fun h => .unchecked ?_, fun unlocked hu => ?_⟩
  · rintro ⟨-, unlocked, hu, -⟩
    simp [h] at hu
  refine post_throwIf_bind.mpr ⟨fun h => .unchecked ?_, fun hc => ?_⟩
  · rintro ⟨-, unlocked', hu', hc⟩
    obtain rfl : unlocked = unlocked' := Option.some.inj (hu.symm.trans hu')
    exact h hc
  have hk : inst.Checks calls oe p := ⟨by simpa using hs, unlocked, hu, by simpa using hc⟩
  refine post_zoom_bind.mpr <| Offers.Manager.post_takeOffer.mpr ⟨by simp [ho], fun _ _ => ?_⟩
  refine (newSwapStateFromStart_post <| update_self ..).bind ?_ ?_
  · intro e inst' hr
    refine ⟨?_, by rintro _ ⟨⟩⟩
    rintro _ ⟨⟩ hp
    have hn : ¬Starts calls oe := hr.error e rfl hp
    refine .inr ⟨hk, iff_of_false (fun hd => ?_) fun hd => hn hd.left⟩
    simp [Restored, hr.offers] at hd
  · intro s inst' hr
    obtain ⟨hst, ha, rfl, hev, hof⟩ := hr.ok s rfl
    split
    case isTrue =>
      refine (exit_restored ha hev hof hi).bind (by simp) fun _ inst'' hx => ?_
      refine post_throwIf_bind.mpr ⟨fun _ => ⟨?_, by rintro _ ⟨⟩⟩, by simp⟩
      exact fun _ _ _ => .inr ⟨hk, by simp [hx.right, hst]⟩
    case isFalse =>
      refine post_modify_bind.mpr <| post_pure.mpr ⟨by rintro _ ⟨⟩, ?_⟩
      rintro _ ⟨⟩
      exact ⟨hk, hst, ⟨ha.info, ha.ongoing, ha.taken⟩, rfl, hev, hof⟩

-- The offer is available as before, and no swap for it is ongoing.
def Untouched (inst inst' : Instance) (id : Bytes32) : Prop :=
  inst'.offerManager.offers id = inst.offerManager.offers id ∧ id ∉ inst'.swapManager.ongoing

-- The message is refused before the offer is taken and there is no other swap, or the swap is
-- started and its end can be written.
def Undoes (inst : Instance) (ec : EthClient) (calls : InstanceCalls) (msg : SendKeysMessage) :
    Prop :=
  (∀ oe, inst.Takes ec calls msg oe → Starts calls oe ∧ calls.completeOngoingSwap) ∧
  ((∀ oe, ¬inst.Takes ec calls msg oe) → msg.offerID ∉ inst.swapManager.ongoing)

theorem untouched_iff_of_refused (h : ∀ oe, ¬inst.Takes ec calls msg oe) :
    inst.Untouched inst msg.offerID ↔ inst.Undoes ec calls msg := by
  simp [Untouched, Undoes, h]

theorem untouched_iff_of_taken (hk : inst.offerManager.Keyed) (h : inst.Takes ec calls msg oe)
    (hr : inst'.Restored oe ↔ Starts calls oe ∧ calls.completeOngoingSwap) :
    inst.Untouched inst' msg.offerID ↔ inst.Undoes ec calls msg := by
  have ho : oe.offer.id = msg.offerID := hk _ _ h.right.left
  have hu : inst.Untouched inst' msg.offerID ↔ inst'.Restored oe := by
    rw [Untouched, Restored, h.right.left, ho]
  rw [hu, hr]
  refine ⟨fun hs => ⟨fun oe' h' => ?_, fun hn => absurd h (hn oe)⟩, fun hs => hs.left oe h⟩
  obtain rfl : oe = oe' := Option.some.inj (h.right.left.symm.trans h'.right.left)
  exact hs

theorem exit_untouched_iff (hk : inst.offerManager.Keyed) (h : inst.Takes ec calls msg s.oe)
    (hs : Starts calls s.oe) (ha : inst'.Added s) (he : s.state.nextExpectedEvent = .ethLocked)
    (ho : s.state.offer = s.oe.offer) :
    (exit calls s >>= fun _ => Handler.ofExcept (.error e : Except Error SwapState)).Post inst'
      fun r inst'' => ∀ e, r = .error e → e.isPanic = false →
        (inst.Untouched inst'' msg.offerID ↔ inst.Undoes ec calls msg) := by
  have hi : s.oe.offer.id ≠ 0 := hk _ _ h.right.left ▸ h.left
  refine (exit_restored ha he ho hi).bind (by simp) fun _ inst'' hx => ?_
  refine post_ofExcept.mpr fun _ _ _ => untouched_iff_of_taken hk h ?_
  simp [hx.right, hs]

theorem handleInitiateMessage_post (hk : inst.offerManager.Keyed) :
    (handleInitiateMessage b ec calls msg).Post inst fun r inst' =>
      ∀ e, r = .error e → e.isPanic = false →
        (inst.Untouched inst' msg.offerID ↔ inst.Undoes ec calls msg) := by
  refine post_get_bind.mpr <| post_throwIf_bind.mpr ⟨fun h _ _ _ => ?_, fun hi => ?_⟩
  · exact untouched_iff_of_refused fun _ ht => ht.left h
  refine post_zoom_bind.mpr <| Offers.Manager.post_getOffer.mpr ⟨fun h _ _ _ => ?_, fun oe ho => ?_⟩
  · exact untouched_iff_of_refused fun _ ht => by cases h.symm.trans ht.right.left
  refine post_ofExcept_bind.mpr ⟨fun _ h _ _ _ => ?_, fun (p, a) ha => ?_⟩
  · refine untouched_iff_of_refused fun oe' ht => ?_
    obtain ⟨-, ho', _, _, ha, -⟩ := ht
    obtain rfl : oe = oe' := Option.some.inj (ho.symm.trans ho')
    cases h.symm.trans ha
  have hid : oe.offer.id = msg.offerID := hk _ _ ho
  have hni : oe.offer.id ≠ 0 := hid ▸ hi
  have ht (hc : inst.Checks calls oe p) : inst.Takes ec calls msg oe := ⟨hi, ho, p, a, ha, hc⟩
  refine (initiate_post hni (hid ▸ ho)).bind ?_ ?_
  · rintro e inst' hr _ ⟨⟩ hp
    rcases hr.error e rfl hp with ⟨rfl, hc⟩ | ⟨hc, hr⟩
    case inr => exact untouched_iff_of_taken hk (ht hc) hr
    case inl =>
      refine untouched_iff_of_refused fun oe' h => ?_
      obtain ⟨-, ho', p', a', ha', hc'⟩ := h
      obtain rfl : oe = oe' := Option.some.inj (ho.symm.trans ho')
      cases ha.symm.trans ha'
      exact hc hc'
  · intro s inst' hr
    obtain ⟨hc, hst, had, rfl, hev, hof⟩ := hr.ok s rfl
    split
    case h_1 => exact exit_untouched_iff hk (ht hc) hst had hev hof
    case h_2 =>
      split
      case isTrue  => exact exit_untouched_iff hk (ht hc) hst had hev hof
      case isFalse => exact post_pure.mpr <| by rintro _ ⟨⟩

-- An initiation that fails leaves no trace if it gives up before it takes the offer, or after the
-- swap has been started and as long as its end can be written.
theorem initiation_undone_iff (hk : inst.offerManager.Keyed)
    (h : handleInitiateMessage b ec calls msg inst = (.error e, inst')) (hp : e.isPanic = false) :
    inst.Untouched inst' msg.offerID ↔ inst.Undoes ec calls msg :=
  (handleInitiateMessage_post hk).result h e rfl hp

end Instance

namespace Sample

-- The maker has one offer and no swaps.
def instance₀ : Instance where
  offerManager := .newManager (.putOffer .empty offer)
  swapManager  := .newManager .empty
  swapStates _ := none

def instanceCalls : InstanceCalls where
  unlockedBalance     := some { coeff := 2 * 10 ^ 12 }
  putSwapRelayerInfo  := true
  getHeight           := true
  ethHeader           := some 90
  addSwap             := true
  newSwapState        := true
  generateKeys        := some makerKey
  assetSymbol         := true
  verifyKeysAndProof  := true
  putCounterpartyKeys := true
  sendSwapMessage     := true
  completeOngoingSwap := true
  now                 := 0

def handled (calls : InstanceCalls) : Except Error SwapState × Instance :=
  Instance.handleInitiateMessage backend (client []) calls sendKeys instance₀

end Sample

namespace Instance

open XMRMaker.Sample

theorem initiation_undone_iff_unsent :
    instance₀.Untouched (handled { instanceCalls with sendSwapMessage := false }).snd
      sendKeys.offerID ↔
    instance₀.Undoes (client []) { instanceCalls with sendSwapMessage := false } sendKeys := by
  have h : (handled { instanceCalls with sendSwapMessage := false }).fst = .error .sendKeys := by
    decide +kernel
  generalize hr : handled { instanceCalls with sendSwapMessage := false } = r at h ⊢
  obtain ⟨_, inst'⟩ := r
  cases h
  exact initiation_undone_iff Offers.Manager.newManager_keyed hr rfl

-- The height of the Monero chain cannot be read, or the new key cannot be stored.
theorem initiation_leaves_traces :
    (instance₀.offerManager.offers 1).isSome ∧
    ((handled { instanceCalls with getHeight := false }).fst = .error .newSwapState ∧
      (handled { instanceCalls with getHeight := false }).snd.offerManager.offers 1 = none) ∧
    ((handled { instanceCalls with generateKeys := none }).fst = .error .newSwapState ∧
      (handled { instanceCalls with generateKeys := none }).snd.offerManager.offers 1 = none ∧
      1 ∈ (handled { instanceCalls with generateKeys := none }).snd.swapManager.ongoing) := by
  decide +kernel

end Instance

end XMRMaker
