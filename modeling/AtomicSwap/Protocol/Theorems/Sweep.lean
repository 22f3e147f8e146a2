import AtomicSwap.Protocol.Sweep
import AtomicSwap.Protocol.XMRMaker.Theorems.Panics
import AtomicSwap.Protocol.XMRTaker.Theorems.Panics

open Ethereum SwapCreator Handler Machine

namespace Sweep

-- A swap is neither completed nor started again with the status of one whose XMR is claimed.
def Role.Fair (R : Role) : Found R.Loop → Prop
  | .completed status => status ≠ R.claimed
  | .started m        => (R.info m).status ≠ R.claimed
  | _                 => True

-- The event loop says that the XMR is claimed only when it is. After a restart this is taken to be
-- so for a swap that was in the middle of the sweep, and for no other one.
structure Role.Truthful (R : Role) : Prop where
  step     : ∀ m i (c : Bool), ((R.info m).status = R.claimed → c) →
    (R.info (R.step m i)).status = R.claimed → c || R.claims m i
  sweeping : ∀ calls info, info.status = .sweepingXMR →
    R.restart calls info = .completed R.claimed
  other    : ∀ calls info, info.status ≠ .sweepingXMR → R.Fair (R.restart calls info)
  ongoing  : R.claimed.isOngoing = false

namespace Daemon

variable {R : Role} {d : Daemon R} {i : Input R}

-- The status says that the XMR has been claimed only if it has.
def Truthful (d : Daemon R) : Prop :=
  (d.info.status = R.claimed → d.claimed) ∧
  ∀ m ∈ d.loop, (R.info m).status = R.claimed → d.claimed

-- A swap that is found in the middle of the sweep is marked as completed. Then it has been.
def Confirmed (d : Daemon R) : Input R → Prop
  | .restart _ put => d.loop = none → d.info.status = .sweepingXMR → put → d.claimed
  | _              => True

instance (d : Daemon R) : (i : Input R) → Decidable (d.Confirmed i)
  | .restart _ put => inferInstanceAs (Decidable (_ → _ → put = true → _ = true))
  | .loop ..       => .isTrue trivial
  | .crash         => .isTrue trivial

-- No loop runs for a swap that is completed, so this does not change any more.
structure Untruthful (d : Daemon R) : Prop where
  loop      : d.loop = none
  status    : d.info.status = R.claimed
  unclaimed : d.claimed = false

theorem Untruthful.not_truthful (h : d.Untruthful) : ¬d.Truthful :=
  fun ht => by simpa [h.unclaimed] using ht.left h.status

theorem start_truthful {m : R.Loop} (hm : (R.info m).status ≠ R.claimed) :
    (start m).Truthful := by
  refine ⟨fun hs => absurd hs hm, fun m' hm' hs => ?_⟩
  obtain rfl : m = m' := Option.some.inj hm'
  exact absurd hs hm

theorem truthful_of_claimed (h : d.claimed = true) : d.Truthful :=
  ⟨fun _ => h, fun _ _ _ => h⟩

theorem setStatus_truthful {status : Status} (hn : d.loop = none)
    (hs : status = R.claimed → d.claimed) : Truthful { d with info.status := status } :=
  ⟨hs, by simp [hn]⟩

theorem claimMonero_claimed {noTransferBack : Bool} {calls : ClaimCalls} {d' : Daemon R}
    (h : d.claimMonero noTransferBack calls = (true, d')) : d'.claimed = true := by
  simp only [claimMonero] at h
  split at h
  case isTrue  => cases h
  case isFalse =>
    split at h
    case isTrue  => cases h; rfl
    case isFalse =>
      repeat' split at h
      all_goals cases h
      rfl

-- After an error the swap is as it was, or it is marked as being swept.
theorem claimMonero_failed {noTransferBack : Bool} {calls : ClaimCalls} {d' : Daemon R}
    (h : d.claimMonero noTransferBack calls = (false, d')) :
    d' = d ∨ d' = { d with info.status := .sweepingXMR } := by
  simp only [claimMonero] at h
  repeat' split at h
  all_goals simp_all

section Role

variable (hR : R.Truthful)

include hR

theorem sweepingXMR_ne : .sweepingXMR ≠ R.claimed := by
  intro hs
  simpa [← hs, Status.isOngoing] using hR.ongoing

theorem stepLoop_truthful {m : R.Loop} {i : R.Input} {written : Bool} (h : d.Truthful)
    (hm : m ∈ d.loop) : (d.stepLoop m i written).Truthful := by
  have hs := hR.step m i d.claimed (h.right m hm)
  refine ⟨?_, fun m' hm' => ?_⟩
  · cases written
    case false => exact fun hs => by simp [stepLoop, h.left hs]
    case true  => exact hs
  · obtain rfl : R.step m i = m' := Option.some.inj hm'
    exact hs

theorem completeSwap_truthful {noTransferBack put : Bool} {calls : ClaimCalls}
    (hn : d.loop = none) (h : d.Truthful) :
    (d.completeSwap noTransferBack calls put).Truthful := by
  unfold completeSwap
  split
  case h_1 d' hc =>
    have hc := claimMonero_claimed hc
    cases put <;> exact truthful_of_claimed hc
  case h_2 d' hc =>
    rcases claimMonero_failed hc with rfl | rfl
    case inl => exact h
    case inr => exact setStatus_truthful hn (absurd · (sweepingXMR_ne hR))

theorem checkForOngoingSwaps_truthful {calls : R.RestartCalls} {put : Bool} (hn : d.loop = none)
    (h : d.Truthful) (hc : d.info.status = .sweepingXMR → put → d.claimed) :
    (d.checkForOngoingSwaps calls put).Truthful := by
  unfold checkForOngoingSwaps
  split
  case isTrue  => exact h
  case isFalse =>
    by_cases hs : d.info.status = .sweepingXMR
    case pos =>
      rw [hR.sweeping calls d.info hs]
      cases put
      case false => exact h
      case true  => exact setStatus_truthful hn fun _ => hc hs rfl
    case neg =>
      have hf := hR.other calls d.info hs
      split <;> rename_i hr <;> rw [hr] at hf
      case h_1 => exact h
      case h_2 =>
        cases put
        case false => exact h
        case true  => exact setStatus_truthful hn (absurd · hf)
      case h_3 => exact completeSwap_truthful hR hn h
      case h_4 =>
        refine ⟨h.left, fun m' hm' hs => ?_⟩
        cases hm'
        exact absurd hs hf

theorem step_truthful (h : d.Truthful) (hc : d.Confirmed i) : (d.step i).Truthful := by
  unfold step
  split
  case h_1       => exact ⟨h.left, by simp⟩
  case h_2 hm    => exact stepLoop_truthful hR h hm
  case h_3 hn    => exact checkForOngoingSwaps_truthful hR hn h (hc hn)
  case h_4       => exact h

theorem step_untruthful (hc : ¬d.Confirmed i) : (d.step i).Untruthful := by
  cases i
  case restart calls put =>
    simp only [Confirmed, Classical.not_imp] at hc
    obtain ⟨hn, hs, hp, hc⟩ := hc
    have hr := hR.sweeping calls d.info hs
    simp [step, hn, checkForOngoingSwaps, hs, hr, hp, completeOngoingSwap, Status.isOngoing]
    exact ⟨rfl, rfl, by simpa using hc⟩
  all_goals exact absurd trivial hc

theorem Untruthful.step (h : d.Untruthful) (i : Input R) : (d.step i).Untruthful := by
  unfold Daemon.step
  split
  case h_1    => exact ⟨rfl, h.status, h.unclaimed⟩
  case h_2 hm => simp [h.loop] at hm
  case h_3    => simpa [checkForOngoingSwaps, h.status, hR.ongoing] using h
  case h_4    => exact h

-- The status is true as long as each restart that finds the XMR being swept comes after the sweep.
theorem truthful_iff {is : List (Input R)} (h : d.Truthful) :
    (run step is d).Truthful ↔ Along step Confirmed is d := by
  have hi : ¬(run step is d).Untruthful ↔ Along step Confirmed is d := by
    exact along_iff (fun _ _ => step_truthful hR) (fun _ _ _ => step_untruthful hR)
      (fun _ i hu => hu.step hR i) (fun d h hu => hu.not_truthful h) h
  constructor
  case mp  => exact fun ht => hi.mp fun hu => hu.not_truthful ht
  case mpr => exact run_invariant (fun _ _ => step_truthful hR) h

end Role

end Daemon

end Sweep

namespace XMRTaker.Loop

variable {b : Backend} {m : Loop} {i : Input}

-- The status of a swap that has succeeded is set only when the XMR has been claimed.
def Truthful (claimed : Bool) (m : Loop) : Prop :=
  m.swap.info.status = .completedSuccess → claimed

variable {c : Bool} (h : m.Truthful c)

include h

theorem setNextExpectedEvent_truthful {event : EventType} :
    (m.setNextExpectedEvent event).Truthful c := by
  unfold setNextExpectedEvent
  split
  case isTrue  => exact h
  case isFalse => cases event <;> simp [Truthful, EventType.getStatus]

theorem exit_truthful : m.exit.Truthful c := by
  unfold exit
  split
  case h_1 => exact h
  case h_2 => exact h
  case h_3 => exact h
  case h_4 => exact nofun

theorem claimMoneroFailed_truthful {inExit : Bool} : (m.claimMoneroFailed inExit).Truthful c := by
  cases inExit
  case false => exact exit_truthful h
  case true  => exact h

theorem claimMonero_truthful {inExit : Bool} : (m.claimMonero inExit).Truthful c := by
  unfold claimMonero
  split
  case isTrue  => exact h
  case isFalse => exact claimMoneroFailed_truthful h

theorem sweeping_truthful {inExit ready written : Bool} :
    (m.sweeping inExit ready written).Truthful (c || ready && m.swap.noTransferBack) := by
  unfold sweeping
  cases ready
  case false => simpa using claimMoneroFailed_truthful h
  case true  =>
    cases hn : m.swap.noTransferBack
    case true  => simp [Truthful]
    case false =>
      cases written
      case false =>
        have hs : Truthful c { m with swap.info.status := .sweepingXMR } := nofun
        simpa using claimMoneroFailed_truthful hs
      case true  => exact nofun

theorem swept_truthful {inExit ok : Bool} : (m.swept inExit ok).Truthful (c || ok) := by
  cases ok
  case false => simpa [swept] using claimMoneroFailed_truthful h
  case true  => simp [Truthful]

theorem tryClaim_truthful : m.tryClaim.Truthful c := by
  unfold tryClaim
  split <;> exact h

theorem filtered_truthful {logs : Option (List Log)} : (m.filtered logs).Truthful c := by
  unfold filtered
  split
  case h_1 => exact h
  case h_2 =>
    split
    case h_1 => rintro ⟨⟩
    case h_2 =>
      split
      case h_1 => exact h
      case h_2 => exact claimMonero_truthful h

theorem keysReceivedFailed_truthful : m.keysReceivedFailed.Truthful c := by
  unfold keysReceivedFailed
  split
  case isTrue  => simpa only [Truthful, writingSwap_swap] using setNextExpectedEvent_truthful h
  case isFalse => exact h

-- The checks of the keys and the receipt of `newSwap` keep the status.
theorem truthful_of_progress {s : SwapState} (hs : s.progress = m.swap.progress) :
    Truthful c { m with swap := s } := by
  have hi : s.info = m.swap.info := congrArg Prod.fst hs
  simpa only [Truthful, hi] using h

theorem keysChecked_truthful {msg : SendKeysMessage} {calls : KeysCalls} :
    (m.keysChecked msg calls).Truthful c := by
  have hk : (checkKeys calls msg m.swap).snd.progress = m.swap.progress := checkKeys_keeps m.swap
  unfold keysChecked
  split <;> rename_i hr <;> rw [hr] at hk
  case h_1 => exact truthful_of_progress h hk
  case h_2 =>
    have hs := truthful_of_progress h hk
    split
    case isTrue  => exact hs
    case isFalse => exact keysReceivedFailed_truthful hs

theorem newSwapped_truthful {receipt : Option Receipt} {id : Bytes32} {nonce : ℤ} {put : Bool} :
    (m.newSwapped b receipt id nonce put).Truthful c := by
  unfold newSwapped
  split
  case h_1         => exact keysReceivedFailed_truthful h
  case h_2 receipt =>
    have hm : (m.newSwapMined id).Truthful c := h
    have hk : (recordSwap b nonce put receipt (m.newSwapMined id).swap).snd.progress =
        (m.newSwapMined id).swap.progress := recordSwap_keeps _
    simp only
    split <;> rename_i hr <;> rw [hr] at hk
    case h_1 => exact truthful_of_progress hm hk
    case h_2 =>
      have hs := truthful_of_progress hm hk
      split
      case isTrue  => exact hs
      case isFalse => exact keysReceivedFailed_truthful hs

theorem messageSent_truthful {ok : Bool} : (m.messageSent ok).Truthful c := by
  unfold messageSent
  split
  case isTrue  => exact setNextExpectedEvent_truthful h
  case isFalse => exact keysReceivedFailed_truthful h

theorem readyStageRead_truthful {ok : Bool} : (m.readyStageRead ok).Truthful c := by
  unfold readyStageRead
  split
  case isTrue  => exact h
  case isFalse =>
    split
    case h_1 => exact h
    case h_2 => exact setNextExpectedEvent_truthful h
    case h_3 => exact setNextExpectedEvent_truthful h
    case h_4 => exact h

theorem readySent_truthful {ok text : Bool} : (m.readySent b ok text).Truthful c := by
  simp only [readySent]
  split
  case h_1 => split <;> exact h
  case h_2 =>
    split
    case isTrue  =>
      refine setNextExpectedEvent_truthful ?_
      exact h
    case isFalse =>
      split
      case isTrue  => exact setNextExpectedEvent_truthful h
      case isFalse => exact h

theorem waitOrRefund_truthful {ts : Time} : (m.waitOrRefund ts).Truthful c := by
  unfold waitOrRefund
  split <;> exact h

theorem afterRefund_truthful {site : RefundSite} {result : RefundResult} :
    (m.afterRefund site result).Truthful c := by
  unfold afterRefund
  split
  case h_1 => exact exit_truthful h
  case h_2 => exact nofun
  case h_3 => exact waitOrRefund_truthful h
  case h_4 => exact nofun
  case h_5 => exact tryClaim_truthful h
  case h_6 => exact h

theorem refund_truthful {sw : SwapCreatorSwap} {ok text : Bool} :
    (m.refund b sw ok text).snd.Truthful c := by
  simp only [refund]
  split
  case isTrue  => exact nofun
  case isFalse => split <;> exact h

theorem refundSent_truthful {site : RefundSite} {ok text : Bool} :
    (m.refundSent b site ok text).Truthful c := by
  unfold refundSent
  split
  case h_1 =>
    split
    case isTrue  => exact h
    case isFalse => exact afterRefund_truthful h
  case h_2 => exact afterRefund_truthful (refund_truthful h)

theorem refundStageRead_truthful {ok : Bool} : (m.refundStageRead ok).Truthful c := by
  unfold refundStageRead
  split
  case isTrue  => exact h
  case isFalse =>
    split
    case h_2 => exact tryClaim_truthful h
    all_goals exact h

theorem refundTimestamp_truthful {isReady : Bool} {ts : Option Time} :
    (m.refundTimestamp isReady ts).Truthful c := by
  unfold refundTimestamp
  split
  case h_1 => exact h
  case h_2 =>
    split
    case isTrue  => exact h
    case isFalse => exact waitOrRefund_truthful h

theorem waited_truthful {ok : Bool} : (m.waited ok).Truthful c := by
  unfold waited
  split <;> exact h

theorem handleEventWaiting_truthful {e : Event} : (m.handleEventWaiting e).Truthful c := by
  cases e
  case ethClaimed => exact tryClaim_truthful h
  all_goals exact h

theorem handleEvent_truthful {e : Event} : (m.handleEvent e).Truthful c := by
  cases e <;> simp only [handleEvent]
  case exit         => exact exit_truthful h
  case shouldRefund =>
    unfold handleEventShouldRefund
    split
    case isTrue  => exact h
    case isFalse => exact exit_truthful h
  case ethClaimed   =>
    split
    case isTrue  => exact claimMonero_truthful h
    case isFalse => exact h
  case xmrLocked    =>
    unfold handleNotifyXMRLock
    split
    case isTrue  => split <;> exact h
    case isFalse => exact h
  case keysReceived => split <;> exact h

theorem completed_truthful {ok : Bool} : (m.completed ok).Truthful c := by
  unfold completed
  split
  case isTrue  => exact h
  case isFalse => split <;> exact h

theorem step_truthful : (m.step b i).Truthful (c || m.claims i) := by
  have hc : m.Truthful (c || m.claims i) := fun hs => by simp [h hs]
  have hs := step_step b m i
  generalize m.step b i = m' at hs ⊢
  cases hs
  case idle         => exact hc
  case newSwapMined => exact hc
  case stageMined   =>
    unfold stageMined
    split <;> exact hc
  case ctxDone         => exact hc
  case event           => exact handleEvent_truthful hc
  case eventWaiting    => exact handleEventWaiting_truthful hc
  case keysChecked     => exact keysChecked_truthful hc
  case newSwapped      => exact newSwapped_truthful hc
  case messageSent     => exact messageSent_truthful hc
  case swapWritten     => exact hc
  case readyStageRead  => exact readyStageRead_truthful hc
  case readySent       => exact readySent_truthful hc
  case sweeping hk     => simpa [claims, hk] using sweeping_truthful h
  case swept hk        => simpa [claims, hk] using swept_truthful h
  case refundStageRead => exact refundStageRead_truthful hc
  case refundTimestamp => exact refundTimestamp_truthful hc
  case refundSent      => exact refundSent_truthful hc
  case waited          => exact waited_truthful hc
  case filtered        => exact filtered_truthful hc
  case completed       => exact completed_truthful hc

end XMRTaker.Loop

namespace XMRMaker

theorem startTransfer_preserves {calls : Calls} {amount : Decimal} {c : Bool} :
    (startTransfer calls amount).Preserves fun s => s.info.status = .completedRefund → c := by
  refine preserves_bind (preserves_bind preserves_throwIf fun _ => ?_) fun _ =>
    preserves_modify fun _ h => h
  refine preserves_bind preserves_get fun _ => preserves_bind preserves_throwIf fun _ =>
    preserves_bind preserves_throwIf fun _ => preserves_bind (preserves_modify fun _ h => h)
      fun _ => preserves_bind preserves_throwIf fun _ =>
    preserves_bind (preserves_modify fun _ _ => ?_) fun _ => preserves_throwIf
  exact nofun

theorem untouched_info : Untouched SwapState.info := by
  constructor <;> simp

end XMRMaker

namespace XMRMaker.Loop

variable {b : Backend} {m : Loop} {i : Input}

-- The status of a swap that has been refunded is set only when the XMR has been claimed.
def Truthful (claimed : Bool) (m : Loop) : Prop :=
  m.swap.info.status = .completedRefund → claimed

variable {c : Bool} (h : m.Truthful c) {exits : ℕ}

include h

theorem returns_truthful : (m.returns exits).Truthful c := by
  cases exits <;> exact h

theorem exit_truthful : (m.exit exits).Truthful c := by
  unfold exit
  split
  case h_1 => exact h
  case h_2 => exact h
  case h_3 => exact nofun

theorem handleEventContractReady_truthful : (m.handleEventContractReady exits).Truthful c := by
  unfold handleEventContractReady
  split <;> exact h

theorem handleEvent_truthful {e : Event} : (m.handleEvent e).Truthful c := by
  cases e <;> simp only [handleEvent]
  case ethLocked     => split <;> exact h
  case contractReady =>
    split
    case isTrue  => exact handleEventContractReady_truthful h
    case isFalse => exact h
  case ethRefunded   => exact h
  case exit          => exact exit_truthful h

theorem handleEventInExit_truthful {e : Event} : (m.handleEventInExit exits e).Truthful c := by
  cases e
  case contractReady => exact handleEventContractReady_truthful h
  all_goals exact h

omit h in
theorem resume_truthful {α : Type} {r : Except Error α × SwapState} {next : α → Control}
    (hr : r.snd.info.status = .completedRefund → c) : (m.resume r next).Truthful c := by
  obtain ⟨r, s⟩ := r
  cases r
  case ok a    => exact hr
  case error e =>
    simp only [resume]
    split
    case isTrue  => exact hr
    case isFalse =>
      refine exit_truthful ?_
      exact hr

theorem checked_truthful {msg : NotifyETHLocked} {ec : EthClient} {calls : Calls} :
    (m.checked b msg ec calls).Truthful c := by
  have hk : (amountToLock b ec calls msg m.swap).snd.info = m.swap.info :=
    amountToLock_keeps untouched_info m.swap
  exact resume_truthful (hk ▸ h)

theorem prepared_truthful {calls : Calls} {amount : Decimal} :
    (m.prepared calls amount).Truthful c :=
  resume_truthful (startTransfer_preserves m.swap h)

theorem transferred_truthful {ok : Bool} : (m.transferred ok).Truthful c := by
  cases ok
  case false => exact exit_truthful h
  case true  => exact h

theorem claimed_truthful {ok : Bool} : (m.claimed exits ok).Truthful c := by
  cases ok
  case false => exact exit_truthful h
  case true  =>
    refine returns_truthful ?_
    exact nofun

theorem sweeping_truthful {ready written : Bool} :
    (m.sweeping exits ready written).Truthful c := by
  cases ready
  case false => exact returns_truthful h
  case true  =>
    cases written
    case false =>
      refine returns_truthful ?_
      exact nofun
    case true  => exact nofun

theorem swept_truthful {ok : Bool} : (m.swept exits ok).Truthful (c || ok) := by
  cases ok
  case false => simpa [swept] using returns_truthful h
  case true  => simp [Truthful]

theorem completed_truthful {ok : Bool} : (m.completed exits ok).Truthful c := by
  simp only [completed]
  split
  case isTrue  => exact returns_truthful h
  case isFalse =>
    split
    case isTrue  => exact h
    case isFalse =>
      refine returns_truthful ?_
      exact h

theorem handleClaimedLogs_truthful {log : Log} : (m.handleClaimedLogs log).Truthful c := by
  unfold handleClaimedLogs
  split
  case h_1 => exact nofun
  case h_2 => exact h

theorem step_truthful : (m.step b i).Truthful (c || m.claims i) := by
  have hc : m.Truthful (c || m.claims i) := fun hs => by simp [h hs]
  have hs := step_step b m i
  generalize m.step b i = m' at hs ⊢
  cases hs
  case idle        => exact hc
  case claimedLog  => exact handleClaimedLogs_truthful hc
  case ctxDone     => exact hc
  case event       => exact handleEvent_truthful hc
  case eventInExit => exact handleEventInExit_truthful hc
  case checked     => exact checked_truthful hc
  case prepared    => exact prepared_truthful hc
  case transferred => exact transferred_truthful hc
  case claimed     => exact claimed_truthful hc
  case sweeping    => exact sweeping_truthful hc
  case swept hk    => simpa [claims, hk] using swept_truthful h
  case completed   => exact completed_truthful hc

end XMRMaker.Loop

namespace XMRTaker

theorem createOngoingSwap_fair {b : Backend} {calls : SweepCalls} {info : Info} :
    (role b).Fair (calls.createOngoingSwap b info) := by
  unfold SweepCalls.createOngoingSwap
  split
  case isTrue  => split <;> trivial
  case isFalse =>
    split
    case h_1 => trivial
    case h_2 =>
      split
      case isTrue  => trivial
      case isFalse =>
        split
        case h_1 s hs =>
          obtain ⟨_, _, _, ho⟩ := Loop.newSwapStateFromOngoing_ok hs
          intro hc
          simp [show s.info.status = .completedSuccess from hc, Status.isOngoing] at ho
        case h_2      => trivial

theorem role_truthful (b : Backend) : (role b).Truthful where
  step _ _ _ h           := Loop.step_truthful h
  ongoing                := rfl
  sweeping calls info hs := by simp [role, SweepCalls.checkForOngoingSwap, hs]
  other calls info hs    := by
    simp only [role, SweepCalls.checkForOngoingSwap, if_neg hs]
    split
    case isTrue  =>
      repeat' split
      all_goals simp [Sweep.Role.Fair]
    case isFalse => exact createOngoingSwap_fair

end XMRTaker

namespace XMRMaker

theorem newSwapStateFromOngoing_status {b : Backend} {newTxSender newSwapCreator : Bool}
    {offer : Offer} {ethSwapInfo : EthereumSwapInfo} {info : Info} {s : SwapState}
    (h : newSwapStateFromOngoing b newTxSender newSwapCreator offer ethSwapInfo info = .ok s) :
    s.info.status = .xmrLocked := by
  simp only [newSwapStateFromOngoing, Except.bind_ok_iff, Except.failIf_eq_ok,
    Except.pure_ok_iff] at h
  obtain ⟨_, hl, s₁, hs, _, _, rfl⟩ := h
  obtain ⟨_, hi, _⟩ := newSwapState_ok hs
  simpa [hi] using hl

theorem createOngoingSwap_fair {b : Backend} {calls : SweepCalls} {info : Info} :
    (role b).Fair (calls.createOngoingSwap b info) := by
  unfold SweepCalls.createOngoingSwap
  split
  case isTrue  => split <;> trivial
  case isFalse =>
    split
    case h_1 =>
      split
      case isTrue  => trivial
      case isFalse =>
        split
        case h_1 => trivial
        case h_2 => simp [Sweep.Role.Fair, role]
        case h_3 =>
          split
          case h_1 s hs =>
            intro hc
            cases (newSwapStateFromOngoing_status hs).symm.trans hc
          case h_2      => trivial
    case h_2 => trivial

theorem role_truthful (b : Backend) : (role b).Truthful where
  step _ _ _ h           := Loop.step_truthful h
  ongoing                := rfl
  sweeping calls info hs := by simp [role, SweepCalls.checkForOngoingSwap, hs]
  other calls info hs    := by
    simp only [role, SweepCalls.checkForOngoingSwap, if_neg hs]
    split
    case isTrue  => simp [Sweep.Role.Fair]
    case isFalse => exact createOngoingSwap_fair

end XMRMaker

section Status

open Sweep.Daemon

variable {bt : XMRTaker.Backend} {bm : XMRMaker.Backend} {calls : XMRTaker.StartCalls}
  {offerID : Bytes32} {noTransferBack : Bool} {amount : Coins.EthAssetAmount} {rate : Decimal}
  {ethAsset : Address} {st : XMRTaker.SwapState} {ic : XMRMaker.InitiateCalls} {offer : Offer}
  {provides : Decimal} {desired : Coins.EthAssetAmount} {sm : XMRMaker.SwapState}

-- The final status of a swap tells the truth about the XMR, on both sides, exactly if no restart
-- finds a swap that is marked as being swept before its XMR has been claimed.
theorem swept_status_iff
    (ht : XMRTaker.newSwapStateFromStart calls offerID noTransferBack amount rate ethAsset = .ok st)
    (hm : XMRMaker.newSwapStateFromStart bm ic offer provides desired = .ok sm)
    (stages : Bytes32 → Stage) (key : Option PublicKey)
    (ist : List (Sweep.Input (XMRTaker.role bt))) (ism : List (Sweep.Input (XMRMaker.role bm))) :
    let dt : Sweep.Daemon (XMRTaker.role bt) := start (XMRTaker.Loop.start st stages false)
    let dm : Sweep.Daemon (XMRMaker.role bm) :=
      start (XMRMaker.Loop.start { sm with xmrtakerSecp256k1PublicKey := key })
    ((run step ist dt).Truthful ↔ Along step Confirmed ist dt) ∧
    ((run step ism dm).Truthful ↔ Along step Confirmed ism dm) := by
  constructor
  · refine truthful_iff (XMRTaker.role_truthful bt) (start_truthful ?_)
    have hs := (XMRTaker.newSwapStateFromStart_ok ht).right.right
    simp [XMRTaker.role, XMRTaker.Loop.start, hs]
  · refine truthful_iff (XMRMaker.role_truthful bm) (start_truthful ?_)
    have hs := XMRMaker.newSwapStateFromStart_status hm
    simp [XMRMaker.role, XMRMaker.Loop.start, hs]

end Status

namespace Sweep.Sample

-- The maker has claimed the ETH, and the taker is about to sweep the XMR.
def claiming : List (Input (XMRTaker.role XMRTaker.Sample.backend)) :=
  let is : List XMRTaker.Input := [.event .xmrLocked, .stageRead true, .readySent true false,
    .event .ethClaimed, .sweeping true true]
  (XMRTaker.Sample.locking ++ is).map (.loop · true)

-- The taker has refunded, and the maker is about to sweep the XMR.
def reclaiming : List (Input (XMRMaker.role XMRMaker.Sample.backend)) :=
  let is : List XMRMaker.Input := [.event .ethRefunded, .sweeping true true]
  (XMRMaker.Sample.locking ++ is).map (.loop · true)

def takerCalls : XMRTaker.SweepCalls where
  getNewSwapTxHash              := some true
  refundOrCancelNewSwap         := true
  getCounterpartySwapPrivateKey := true
  getSwapKeys                   := true
  getContractSwapInfo           := none
  start                         := XMRTaker.Sample.startCalls
  stages _                      := .completed
  noTransferBack                := false
  claim                         := ⟨true, true, true⟩

def makerCalls : XMRMaker.SweepCalls where
  getCounterpartySwapPrivateKey := true
  getSwapKeys                   := true
  takeOffer                     := none
  getContractSwapInfo           := none
  checkIfAlreadyClaimed         := none
  newTxSender                   := true
  newSwapCreator                := true
  claim                         := ⟨true, true, true⟩

def taker : Daemon (XMRTaker.role XMRTaker.Sample.backend) :=
  .start XMRTaker.Sample.loop

def maker : Daemon (XMRMaker.role XMRMaker.Sample.backend) :=
  .start (XMRMaker.Loop.start XMRMaker.Sample.state)

end Sweep.Sample

section Status

open Sweep.Daemon Sweep.Sample

-- The daemon goes down after the sweep, before the new status has been written.
theorem swept_status_iff_swept :
    let ist := claiming ++ [.loop (XMRTaker.Input.swept true) false, .crash,
      .restart takerCalls true]
    let ism := reclaiming ++ [.loop (XMRMaker.Input.swept true) false, .crash,
      .restart makerCalls true]
    (run step ist taker).info.status = .completedSuccess ∧ (run step ist taker).Truthful ∧
    (run step ism maker).info.status = .completedRefund ∧ (run step ism maker).Truthful := by
  intro ist ism
  obtain ⟨ht, hm⟩ := swept_status_iff XMRTaker.Sample.newSwapStateFromStart_state
    XMRMaker.Sample.newSwapStateFromStart_state (fun _ => .invalid)
    (some XMRMaker.Sample.takerKey) ist ism
  exact ⟨by decide +kernel, ht.mpr (by decide +kernel), by decide +kernel,
    hm.mpr (by decide +kernel)⟩

-- The daemon goes down before the sweep.
theorem unswept_completed :
    ¬(run step (claiming ++ [.crash, .restart takerCalls true]) taker).Truthful ∧
    ¬(run step (reclaiming ++ [.crash, .restart makerCalls true]) maker).Truthful := by
  constructor
  · refine Untruthful.not_truthful ⟨?_, by decide +kernel, by decide +kernel⟩
    exact Option.isNone_iff_eq_none.mp (by decide +kernel)
  · refine Untruthful.not_truthful ⟨?_, by decide +kernel, by decide +kernel⟩
    exact Option.isNone_iff_eq_none.mp (by decide +kernel)

end Status
