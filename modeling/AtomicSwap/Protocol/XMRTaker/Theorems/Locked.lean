import AtomicSwap.Protocol.XMRTaker.Theorems.Retirement

open Ethereum SwapCreator Handler

namespace XMRTaker

variable {b : Backend} {sw : SwapCreatorSwap} {s s' : SwapState} {receipt : Receipt} {nonce : ℤ}
variable {id : Bytes32} {put : Bool}

-- The taker knows the swap in the contract and its timeouts, and does not think it is aborted.
structure Noted (sw : SwapCreatorSwap) (s : SwapState) : Prop where
  swap   : s.contractSwap = some sw
  t1     : s.t1 = unix (int64 sw.timeout1)
  t2     : s.t2 = unix (int64 sw.timeout2)
  status : s.info.status ≠ .completedAbort

structure Kept (sw : SwapCreatorSwap) (s : SwapState) : Prop where
  noted : Noted sw s
  next  : s.nextExpectedEvent = .xmrLocked ∨ s.nextExpectedEvent = .ethClaimed ∨
    s.nextExpectedEvent = .none

section Receipt

theorem orElse_panicked {α : Type} {x : Option α} {e : Coins.Error}
    (h : Coins.orElse .panicked x = .error e) : e = .panicked := by
  cases x <;> simp_all [Coins.orElse]

theorem bigInt_panicked {a : Coins.EthAssetAmount} {e : Coins.Error} (h : a.bigInt = .error e) :
    e = .panicked := by
  cases a <;> simp only [Coins.EthAssetAmount.bigInt, Except.bind_error_iff] at h
  case wei =>
    cases h
    case inl h => exact orElse_panicked h
    case inr h => simp [Pure.pure, Except.pure] at h
  case token =>
    rcases h with h | ⟨_, _, h | h⟩
    · simp only [Coins.increaseExponent] at h
      split at h <;> simp_all
    · exact orElse_panicked h
    · simp [Pure.pure, Except.pure] at h

-- Unless it panics, reading a receipt finds the swap with its timeouts or only changes the ID.
def ReadResult (s : SwapState) : Except Error SwapCreatorSwap → SwapState → Prop
  | .ok sw,   s' => Noted sw s' ∧ s'.fundsLocked = true
  | .error e, s' => e.isPanic = true ∧ s'.info = s.info ∨ ∃ id, s' = { s with contractSwapID := id }

theorem readSwap_post (h : s.info.status ≠ .completedAbort) :
    (readSwap b nonce receipt).Post s (ReadResult s) := by
  refine post_throwIf_bind.mpr ⟨fun _ => .inr ⟨s.contractSwapID, rfl⟩, fun _ => ?_⟩
  refine post_bind_bind.mpr <| post_modify_bind.mpr <| post_bind_bind.mpr ?_
  refine post_ofExcept_bind.mpr ⟨fun _ _ => .inr ⟨_, rfl⟩, fun _ _ => ?_⟩
  refine post_pure_bind.mpr ?_
  refine post_ofExcept_bind.mpr ⟨fun _ _ => .inr ⟨_, rfl⟩, fun ⟨t1, t2⟩ _ => ?_⟩
  -- The asset is locked, and what can go wrong now ends the daemon.
  refine post_modify_bind.mpr <| post_modify_bind.mpr <| post_get_bind.mpr ?_
  refine post_ofOption_bind.mpr ⟨fun _ => .inl ⟨rfl, rfl⟩, fun ours _ => ?_⟩
  refine post_ofOption_bind.mpr ⟨fun _ => .inl ⟨rfl, rfl⟩, fun theirs _ => ?_⟩
  refine post_ofExcept_bind.mpr ⟨fun e he => ?_, fun value _ => ?_⟩
  · have ⟨e', hv, he⟩ := Except.mapError_error_iff.mp he
    exact .inl ⟨by rw [← he, bigInt_panicked hv]; rfl, rfl⟩
  · exact post_modify_bind.mpr ⟨⟨rfl, rfl, rfl, h⟩, rfl⟩

-- The swap may be known although it could not be written to the database.
def RecordResult (s : SwapState) : Except Error Unit → SwapState → Prop
  | .ok _,    s' => ∃ sw, Noted sw s' ∧ s'.fundsLocked = true
  | .error e, s' => e.isPanic = true ∧ s'.info = s.info ∨
    (∃ id, s' = { s with contractSwapID := id }) ∨ ∃ sw, Noted sw s' ∧ s'.fundsLocked = true

theorem recordSwap_post (h : s.info.status ≠ .completedAbort) :
    (recordSwap b nonce put receipt).Post s (RecordResult s) := by
  refine (readSwap_post h).bind (fun _ _ he => he.imp_right .inl) fun sw s' hs => ?_
  refine post_throwIf_bind.mpr ⟨fun _ => .inr <| .inr ⟨sw, hs⟩, fun _ => ?_⟩
  exact ⟨sw, ⟨hs.left.swap, hs.left.t1, hs.left.t2, hs.left.status⟩, hs.right⟩

end Receipt

-- The status may change as the swap goes on.
theorem Kept.setStatus (h : Kept sw s) (status : Status) (hs : status ≠ .completedAbort) :
    Kept sw { s with info.status := status } :=
  ⟨⟨h.noted.swap, h.noted.t1, h.noted.t2, hs⟩, h.next⟩

-- No asset is known to be locked.
structure Fresh (s : SwapState) : Prop where
  swap        : s.contractSwap = none
  fundsLocked : s.fundsLocked = false
  status      : s.nextExpectedEvent = .keysReceived ∧ s.info.status = .expectingKeys ∨
    s.nextExpectedEvent = .none ∧ s.info.status = .completedAbort

section Start

variable {calls : StartCalls} {offerID : Bytes32} {noTransferBack : Bool}
variable {providedAmount : Coins.EthAssetAmount} {exchangeRate : Decimal} {ethAsset : Address}

theorem newSwapStateFromStart_ok
    (h : newSwapStateFromStart calls offerID noTransferBack providedAmount exchangeRate ethAsset =
      .ok s) :
    (s.contractSwap = none ∧ s.fundsLocked = false) ∧
    s.nextExpectedEvent = .keysReceived ∧ s.info.status = .expectingKeys := by
  simp only [newSwapStateFromStart, newSwapState, Except.bind_ok_iff, Except.failIf_eq_ok,
    Except.pure_ok_iff] at h
  obtain ⟨_, _, _, _, _, _, _, _, _, _, _, ⟨_, _, _, _, _, _, hs⟩, h⟩ := h
  split at h
  case h_1 =>
    rw [← Except.pure_ok_iff.mp h, ← hs]
    exact ⟨⟨rfl, rfl⟩, rfl, rfl⟩
  case h_2 => contradiction

theorem newSwapStateFromStart_fresh
    (h : newSwapStateFromStart calls offerID noTransferBack providedAmount exchangeRate ethAsset =
      .ok s) : Fresh s :=
  have ⟨hs, hn⟩ := newSwapStateFromStart_ok h
  ⟨hs.left, hs.right, .inl hn⟩

end Start

theorem newSwapStateFromOngoing_kept {calls : StartCalls} {noTransferBack : Bool} {info : Info}
    {ethSwapInfo : EthereumSwapInfo}
    (h : newSwapStateFromOngoing b calls info noTransferBack ethSwapInfo = .ok s) :
    Kept ethSwapInfo.swap s := by
  obtain ⟨_, hw, hn, ho⟩ := Loop.newSwapStateFromOngoing_ok h
  simp only [newSwapStateFromOngoing, Except.bind_ok_iff, Except.failIf_eq_ok,
    Except.pure_ok_iff] at h
  obtain ⟨_, _, _, _, _, _, _, _, h⟩ := h
  refine ⟨⟨hw, h ▸ rfl, h ▸ rfl, fun hs => ?_⟩, hn.imp_right .inl⟩
  simp [hs, Status.isOngoing] at ho

theorem checkKeys_post {calls : KeysCalls} {msg : SendKeysMessage} :
    (checkKeys calls msg).Post s fun _ s' =>
      ∃ addr key, s' = { s with xmrmakerAddress := addr, xmrmakerSecp256k1PublicKey := key } := by
  refine post_get_bind.mpr <| post_ofOption_bind.mpr ⟨fun _ => ⟨_, _, rfl⟩, fun _ _ => ?_⟩
  refine post_throwIf_bind.mpr ⟨fun _ => ⟨_, _, rfl⟩, fun _ => ?_⟩
  refine post_throwIf_bind.mpr ⟨fun _ => ⟨_, _, rfl⟩, fun _ => ?_⟩
  refine post_throwIf_bind.mpr ⟨fun _ => ⟨_, _, rfl⟩, fun _ => ?_⟩
  refine post_throwIf_bind.mpr ⟨fun _ => ⟨_, _, rfl⟩, fun _ => ?_⟩
  refine post_modify_bind.mpr <| post_throwIf_bind.mpr ⟨fun _ => ⟨_, _, rfl⟩, fun _ => ?_⟩
  exact post_modify_bind.mpr ⟨_, _, rfl⟩

namespace Loop

variable {m : Loop} {ok text ready written inExit isReady : Bool}

-- Once the taker knows the swap, it never locks its asset again.
def Locked (sw : SwapCreatorSwap) (m : Loop) : Prop :=
  match m.control with
  | .checkKeys _ | .newSwap => False
  | .sendSwapMessage        => Noted sw m.swap ∧ m.swap.fundsLocked = true
  | .panicked               => Noted sw m.swap
  | _                       => Kept sw m.swap

theorem Locked.noted (h : m.Locked sw) : Noted sw m.swap := by
  unfold Locked at h
  split at h
  case h_1 => contradiction
  case h_2 => contradiction
  case h_3 => exact h.left
  case h_4 => exact h
  case h_5 => exact h.noted

section Functions

theorem clearNextExpectedEvent_kept {status : Status} (h : Kept sw m.swap)
    (hs : status ≠ .completedAbort) : Kept sw (m.clearNextExpectedEvent status).swap :=
  ⟨⟨h.noted.swap, h.noted.t1, h.noted.t2, hs⟩, .inr <| .inr rfl⟩

theorem setNextExpectedEvent_locked {e : EventType} (h : Noted sw m.swap)
    (he : e = .xmrLocked ∨ e = .ethClaimed) : (m.setNextExpectedEvent e).Locked sw := by
  unfold setNextExpectedEvent
  split
  case isTrue  => exact h
  case isFalse =>
    refine ⟨⟨h.swap, h.t1, h.t2, ?_⟩, he.imp_right .inl⟩
    cases he <;> subst e <;> simp [EventType.getStatus]

theorem exit_locked (h : Kept sw m.swap) : m.exit.Locked sw := by
  unfold exit
  split
  case h_1 => exact h
  case h_2 => exact h
  case h_3 => exact h
  case h_4 => rcases h.next with hn | hn | hn <;> contradiction

theorem claimMoneroFailed_locked (h : Kept sw m.swap) : (m.claimMoneroFailed inExit).Locked sw := by
  cases inExit
  case false => exact exit_locked h
  case true  => exact h

theorem claimMonero_locked (h : Kept sw m.swap) : (m.claimMonero inExit).Locked sw := by
  unfold claimMonero
  split
  case isTrue  => exact h
  case isFalse => exact claimMoneroFailed_locked h

theorem moneroClaimed_locked (h : Kept sw m.swap) : (m.moneroClaimed inExit).Locked sw := by
  have hc : Kept sw (m.clearNextExpectedEvent .completedSuccess).swap :=
    clearNextExpectedEvent_kept h (by simp)
  unfold moneroClaimed
  split
  case isTrue => exact h.noted
  case isFalse =>
    cases inExit
    case false => exact exit_locked hc
    case true  => exact hc

theorem sweeping_locked (h : Kept sw m.swap) : (m.sweeping inExit ready written).Locked sw := by
  have hs := h.setStatus .sweepingXMR (by simp)
  unfold sweeping
  repeat' split
  · exact claimMoneroFailed_locked h
  · exact moneroClaimed_locked h
  · exact claimMoneroFailed_locked hs
  · exact hs

theorem swept_locked (h : Kept sw m.swap) : (m.swept inExit ok).Locked sw := by
  unfold swept
  split
  case isTrue  => exact moneroClaimed_locked h
  case isFalse => exact claimMoneroFailed_locked h

theorem tryClaim_locked (h : Kept sw m.swap) : m.tryClaim.Locked sw := by
  unfold tryClaim
  split <;> exact h

theorem filtered_locked {logs : Option (List Log)} (h : Kept sw m.swap) :
    (m.filtered logs).Locked sw := by
  unfold filtered
  repeat' split
  · exact h
  · exact clearNextExpectedEvent_kept h (by simp)
  · exact h
  · exact claimMonero_locked h

theorem writingSwap_locked (h : m.Locked sw) : m.writingSwap.Locked sw := by
  unfold writingSwap
  split
  case isTrue hc =>
    simp only [Locked, hc] at h
    exact h
  case isFalse   => exact h

theorem swapWritten_locked (h : Kept sw m.swap) : (m.swapWritten ok).Locked sw := by
  cases ok <;> exact h

theorem keysReceivedFailed_locked (h : Noted sw m.swap) (hf : m.swap.fundsLocked = true) :
    m.keysReceivedFailed.Locked sw := by
  simp only [keysReceivedFailed, hf, if_true]
  exact writingSwap_locked <| setNextExpectedEvent_locked h (.inl rfl)

theorem messageSent_locked (h : Noted sw m.swap) (hf : m.swap.fundsLocked = true) :
    (m.messageSent ok).Locked sw := by
  unfold messageSent
  split
  case isTrue  => exact setNextExpectedEvent_locked h (.inl rfl)
  case isFalse => exact keysReceivedFailed_locked h hf

theorem handleNotifyXMRLock_locked (h : Kept sw m.swap) : m.handleNotifyXMRLock.Locked sw := by
  unfold handleNotifyXMRLock
  split
  case isTrue  => exact h.noted
  case isFalse => exact h

theorem readyStageRead_locked (h : Kept sw m.swap) : (m.readyStageRead ok).Locked sw := by
  unfold readyStageRead
  repeat' split
  · exact h
  · exact h
  · exact setNextExpectedEvent_locked h.noted (.inr rfl)
  · exact setNextExpectedEvent_locked h.noted (.inr rfl)
  · exact h

theorem readySent_locked (h : Kept sw m.swap) : (m.readySent b ok text).Locked sw := by
  unfold readySent
  dsimp only
  repeat' split
  · exact h.noted
  · exact h
  · exact setNextExpectedEvent_locked h.noted (.inr rfl)
  · exact setNextExpectedEvent_locked h.noted (.inr rfl)
  · exact h

theorem waitOrRefund_locked {ts : Time} (h : Kept sw m.swap) : (m.waitOrRefund ts).Locked sw := by
  unfold waitOrRefund
  split <;> exact h

theorem refundTimestamp_locked {ts : Option Time} (h : Kept sw m.swap) :
    (m.refundTimestamp isReady ts).Locked sw := by
  unfold refundTimestamp
  repeat' split
  · exact h
  · exact h
  · exact waitOrRefund_locked h

theorem refundStageRead_locked (h : Kept sw m.swap) : (m.refundStageRead ok).Locked sw := by
  unfold refundStageRead
  repeat' split
  · exact h
  · exact h
  · exact tryClaim_locked h
  · exact h
  · exact h

theorem afterRefund_locked {site : RefundSite} {r : RefundResult} (h : Kept sw m.swap) :
    (m.afterRefund site r).Locked sw := by
  unfold afterRefund
  split
  · exact exit_locked h
  · exact clearNextExpectedEvent_kept h (by simp)
  · exact waitOrRefund_locked h
  · exact clearNextExpectedEvent_kept h (by simp)
  · exact tryClaim_locked h
  · exact h

theorem refund_kept (h : Kept sw m.swap) : Kept sw (m.refund b sw ok text).snd.swap := by
  unfold refund
  dsimp only
  repeat' split
  · exact clearNextExpectedEvent_kept h (by simp)
  · exact h
  · exact h

theorem refundSent_locked {site : RefundSite} (h : Kept sw m.swap) :
    (m.refundSent b site ok text).Locked sw := by
  simp only [refundSent, h.noted.swap]
  exact afterRefund_locked (refund_kept h)

theorem waited_locked (h : Kept sw m.swap) : (m.waited ok).Locked sw := by
  unfold waited
  split <;> exact h

variable {e : Event}

theorem handleEventWaiting_locked (h : Kept sw m.swap) (hc : m.control = .waitT2) :
    (m.handleEventWaiting e).Locked sw := by
  cases e
  case shouldRefund => exact h
  case ethClaimed   => exact tryClaim_locked h
  case exit         => simpa [handleEventWaiting, Locked, hc] using h
  all_goals exact h.noted

theorem handleEventShouldRefund_locked (h : Kept sw m.swap) :
    m.handleEventShouldRefund.Locked sw := by
  unfold handleEventShouldRefund
  split
  case isTrue  => exact h
  case isFalse => exact exit_locked h

theorem handleEvent_locked (h : Kept sw m.swap) (hc : m.control = .runHandleEvents) :
    (m.handleEvent e).Locked sw := by
  have hm : m.Locked sw := by simpa [Locked, hc] using h
  cases e
  case keysReceived =>
    simp only [handleEvent]
    split
    case isTrue hn => rcases h.next with hk | hk | hk <;> simp [hk] at hn
    case isFalse   => exact hm
  case xmrLocked =>
    simp only [handleEvent]
    split
    case isTrue  => exact handleNotifyXMRLock_locked h
    case isFalse => exact hm
  case ethClaimed =>
    simp only [handleEvent]
    split
    case isTrue  => exact claimMonero_locked h
    case isFalse => exact hm
  case shouldRefund => exact handleEventShouldRefund_locked h
  case exit         => exact exit_locked h

theorem completed_locked (h : Kept sw m.swap) : (m.completed ok).Locked sw := by
  unfold completed
  repeat' split
  · exact h
  · exact h.noted
  · exact h

theorem stageMined_swap {stage : Stage} : (m.stageMined id stage).swap = m.swap := by
  unfold stageMined
  split <;> rfl

theorem stageMined_control {stage : Stage} : (m.stageMined id stage).control = m.control := by
  unfold stageMined
  split <;> rfl

end Functions

theorem step_locked (i : Input) (h : m.Locked sw) : (m.step b i).Locked sw := by
  have hs := step_step b m i
  generalize m.step b i = m' at hs ⊢
  cases hs
  case idle         => exact h
  case newSwapMined => exact h
  case stageMined   => simpa [Locked, stageMined_swap, stageMined_control] using h
  case ctxDone hc   => simpa [Locked, hc] using h
  all_goals
    rename_i hc
    simp only [Locked, hc] at h
  case event           => exact handleEvent_locked h hc
  case eventWaiting    => exact handleEventWaiting_locked h hc
  case messageSent     => exact messageSent_locked h.left h.right
  case swapWritten     => exact swapWritten_locked h
  case readyStageRead  => exact readyStageRead_locked h
  case readySent       => exact readySent_locked h
  case sweeping        => exact sweeping_locked h
  case swept           => exact swept_locked h
  case refundStageRead => exact refundStageRead_locked h
  case refundTimestamp => exact refundTimestamp_locked h
  case refundSent      => exact refundSent_locked h
  case waited          => exact waited_locked h
  case filtered        => exact filtered_locked h
  case completed       => exact completed_locked h

-- Before it knows a swap, the taker can only lock its asset or exit.
def Unlocked (m : Loop) : Prop :=
  match m.control with
  | .runHandleEvents | .completeOngoingSwap | .stopped => Fresh m.swap
  | .checkKeys _ | .newSwap => Fresh m.swap ∧ m.swap.nextExpectedEvent = .keysReceived
  | .panicked               => True
  | _                       => False

theorem Unlocked.fresh (h : m.Unlocked) (hp : m.control ≠ .panicked) : Fresh m.swap := by
  unfold Unlocked at h
  split at h
  all_goals first | exact h | exact h.left | contradiction

theorem exit_unlocked (h : Fresh m.swap) : m.exit.Unlocked := by
  unfold exit
  split
  case h_1 hn => rcases h.status with ⟨hs, _⟩ | ⟨hs, _⟩ <;> simp [hs] at hn
  case h_2 hn => rcases h.status with ⟨hs, _⟩ | ⟨hs, _⟩ <;> simp [hs] at hn
  case h_3    => exact h
  case h_4    => exact ⟨h.swap, h.fundsLocked, .inr ⟨rfl, rfl⟩⟩

theorem handleEvent_unlocked {e : Event} (h : Fresh m.swap) (hc : m.control = .runHandleEvents)
    (he : e ≠ .shouldRefund) : (m.handleEvent e).Unlocked := by
  have hm : m.Unlocked := by simpa [Unlocked, hc] using h
  cases e
  case keysReceived =>
    simp only [handleEvent]
    split
    case isTrue hn => exact ⟨h, hn⟩
    case isFalse   => exact hm
  case xmrLocked =>
    simp only [handleEvent]
    split
    case isTrue hn => rcases h.status with ⟨hs, _⟩ | ⟨hs, _⟩ <;> simp [hs] at hn
    case isFalse   => exact hm
  case ethClaimed =>
    simp only [handleEvent]
    split
    case isTrue hn => rcases h.status with ⟨hs, _⟩ | ⟨hs, _⟩ <;> simp [hs] at hn
    case isFalse   => exact hm
  case shouldRefund => contradiction
  case exit         => exact exit_unlocked h

theorem keysReceivedFailed_unlocked (h : Fresh m.swap) : m.keysReceivedFailed.Unlocked := by
  simp only [keysReceivedFailed, h.fundsLocked]
  exact h

theorem keysChecked_unlocked {msg : SendKeysMessage} {calls : KeysCalls} (h : Fresh m.swap)
    (hn : m.swap.nextExpectedEvent = .keysReceived) : (m.keysChecked msg calls).Unlocked := by
  unfold keysChecked
  split
  case h_1 hr =>
    have ⟨_, _, hs⟩ := checkKeys_post.result hr
    exact hs ▸ ⟨⟨h.swap, h.fundsLocked, h.status⟩, hn⟩
  case h_2 hr =>
    have ⟨_, _, hs⟩ := checkKeys_post.result hr
    split
    case isTrue  => trivial
    case isFalse => exact keysReceivedFailed_unlocked <| hs ▸ ⟨h.swap, h.fundsLocked, h.status⟩

theorem newSwapped_unlocked {receipt : Option Receipt} (h : Fresh m.swap)
    (hn : m.swap.nextExpectedEvent = .keysReceived) :
    (m.newSwapped b receipt id nonce put).Unlocked ∨
    ∃ sw, (m.newSwapped b receipt id nonce put).Locked sw := by
  cases receipt
  case none => exact .inl <| keysReceivedFailed_unlocked h
  case some receipt =>
    have ha : m.swap.info.status ≠ .completedAbort := by
      rcases h.status with ⟨_, hs⟩ | ⟨hs, _⟩ <;> simp_all
    simp only [newSwapped]
    split
    case h_1 hr =>
      obtain ⟨sw, hs⟩ := (recordSwap_post ha).result hr
      exact .inr ⟨sw, hs⟩
    case h_2 hr =>
      split
      case isTrue => exact .inl trivial
      case isFalse hp =>
        rcases (recordSwap_post ha).result hr with ⟨hs, _⟩ | ⟨_, hs⟩ | ⟨sw, hs⟩
        · contradiction
        · exact .inl <| keysReceivedFailed_unlocked <| hs ▸ ⟨h.swap, h.fundsLocked, h.status⟩
        · exact .inr ⟨sw, keysReceivedFailed_locked hs.left hs.right⟩

theorem completed_unlocked (h : Fresh m.swap) : (m.completed ok).Unlocked := by
  unfold completed
  repeat' split
  · exact h
  · trivial
  · exact h

theorem step_unlocked {i : Input} (h : m.Unlocked) (hi : i ≠ .event .shouldRefund)
    (hn : ∀ r id nonce put, i ≠ .newSwapped r id nonce put) : (m.step b i).Unlocked := by
  have hs := step_step b m i
  generalize m.step b i = m' at hs ⊢
  cases hs
  case idle         => exact h
  case newSwapMined => exact h
  case stageMined   => simpa [Unlocked, stageMined_swap, stageMined_control] using h
  case newSwapped   => exact absurd rfl (hn _ _ _ _)
  case ctxDone hc   => simpa [Unlocked, hc] using h
  all_goals
    rename_i hc
    simp only [Unlocked, hc] at h
  case event       => exact handleEvent_unlocked h hc (by simpa using hi)
  case keysChecked => exact keysChecked_unlocked h.left h.right
  case completed   => exact completed_unlocked h

theorem step_phase {i : Input} (h : m.Unlocked) (hi : i ≠ .event .shouldRefund) :
    (m.step b i).Unlocked ∨ ∃ sw, (m.step b i).Locked sw := by
  cases i
  case newSwapped =>
    cases hc : m.control <;> simp only [step, hc] <;> try exact .inl h
    simp only [Unlocked, hc] at h
    exact newSwapped_unlocked h.left h.right
  all_goals exact .inl <| step_unlocked h hi (by simp)

end Loop

end XMRTaker
