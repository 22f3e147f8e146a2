import AtomicSwap.Protocol.Notifications
import AtomicSwap.Protocol.Swap.Theorems.StatusManager
import AtomicSwap.Protocol.XMRTaker.Theorems.Panics

open Ethereum SwapCreator Function Swap Swap.StatusManager

namespace XMRTaker

-- How many stages the swap has gone through, and its status.
def SwapState.mark (s : SwapState) : ℕ × Status :=
  (match s.nextExpectedEvent with
    | .xmrLocked          => 2
    | .ethClaimed | .none => 3
    | _                   => 1,
  s.info.status)

namespace Loop

variable {b : Backend} {m m' : Loop} {ss : List Status} {ok text ready written inExit : Bool}

-- The handlers that set the next event are only called for the one before.
def Expects (m : Loop) : Prop :=
  match m.control with
  | .checkKeys _ | .newSwap | .sendSwapMessage => m.swap.nextExpectedEvent = .keysReceived
  | .readyStage | .setReady                    => m.swap.nextExpectedEvent = .xmrLocked
  | _                                          => True

structure Logs (m : Loop) (ss : List Status) (m' : Loop) : Prop where
  expects : m'.Expects
  marks   : StatusManager.Logs ss m.swap.mark m'.swap.mark

theorem mark_eq (hp : m'.swap.progress = m.swap.progress) : m'.swap.mark = m.swap.mark := by
  simp only [SwapState.progress, Prod.mk.injEq] at hp
  simp only [SwapState.mark, hp]

theorem Logs.nil (he : m'.Expects) (hp : m'.swap.progress = m.swap.progress) : m.Logs [] m' :=
  ⟨he, .nil <| mark_eq hp⟩

theorem Logs.congr {m₀ : Loop} (h : m.Logs ss m') (hp : m.swap.progress = m₀.swap.progress) :
    m₀.Logs ss m' :=
  ⟨h.expects, mark_eq hp ▸ h.marks⟩

theorem Logs.final {s : Status} (he : m'.Expects) (hs : s.isOngoing = false)
    (hs' : m'.swap.info.status = s) : m.Logs [s] m' :=
  ⟨he, .final hs hs'⟩

theorem Logs.sweep (h : Logs { m with swap.info.status := .sweepingXMR } ss m')
    (hs : ∀ s ∈ ss, s.isOngoing = false) : m.Logs (.sweepingXMR :: ss) m' :=
  ⟨h.expects, .sweep h.marks hs⟩

theorem Logs.writingSwap (h : m.Logs ss m') : m.Logs ss m'.writingSwap := by
  unfold Loop.writingSwap
  split
  case isTrue  => exact ⟨trivial, h.marks⟩
  case isFalse => exact h

theorem exit_logs : m.Logs m.exitPushes m.exit := by
  cases hn : m.swap.nextExpectedEvent <;> simp only [exit, exitPushes, hn]
  case xmrLocked  => exact .nil trivial rfl
  case ethClaimed => exact .nil trivial rfl
  case none       => exact .nil trivial rfl
  all_goals exact .final trivial rfl rfl

theorem exitPushes_final : ∀ s ∈ m.exitPushes, s.isOngoing = false := by
  unfold exitPushes
  split <;> simp [Status.isOngoing]

section Claim

theorem claimMoneroFailed_logs :
    m.Logs (m.claimFailedPushes inExit) (m.claimMoneroFailed inExit) := by
  cases inExit
  case false => exact exit_logs
  case true  => exact .nil trivial rfl

theorem claimFailedPushes_final : ∀ s ∈ m.claimFailedPushes inExit, s.isOngoing = false := by
  cases inExit
  case false => exact exitPushes_final
  case true  => simp [claimFailedPushes]

theorem claimMonero_logs (hn : m.swap.nextExpectedEvent = .ethClaimed ∨ inExit) :
    m.Logs [] (m.claimMonero inExit) := by
  have hp : m.claimFailedPushes inExit = [] := by
    cases hn
    case inl hn => simp [claimFailedPushes, exitPushes, hn]
    case inr hn => simp [claimFailedPushes, hn]
  unfold claimMonero
  split
  case isTrue  => exact .nil trivial rfl
  case isFalse => exact hp ▸ claimMoneroFailed_logs

theorem moneroClaimed_logs : m.Logs m.claimedPushes (m.moneroClaimed inExit) := by
  unfold moneroClaimed claimedPushes
  split
  case isTrue  => exact .nil trivial rfl
  case isFalse =>
    cases inExit
    case false => exact .final trivial rfl rfl
    case true  => exact .final trivial rfl rfl

theorem sweeping_logs :
    m.Logs (if !ready then m.claimFailedPushes inExit
      else if m.swap.noTransferBack then m.claimedPushes
      else .sweepingXMR :: if written then [] else m.claimFailedPushes inExit)
      (m.sweeping inExit ready written) := by
  unfold sweeping
  split
  case isTrue => exact claimMoneroFailed_logs
  split
  case isTrue => exact moneroClaimed_logs
  cases written
  case false => exact claimMoneroFailed_logs.sweep claimFailedPushes_final
  case true  => exact Logs.sweep (.nil trivial rfl) (by simp)

theorem swept_logs :
    m.Logs (if ok then m.claimedPushes else m.claimFailedPushes inExit) (m.swept inExit ok) := by
  unfold swept
  split
  case isTrue  => exact moneroClaimed_logs
  case isFalse => exact claimMoneroFailed_logs

theorem tryClaim_logs : m.Logs [] m.tryClaim := by
  unfold tryClaim
  split <;> exact .nil trivial rfl

theorem filtered_logs {logs : List Log} :
    m.Logs (if (m.findClaim logs).isNone then [.completedRefund] else [])
      (m.filtered (some logs)) := by
  unfold filtered
  cases hf : m.findClaim logs
  case none   =>
    simp only [hf, Option.isNone_none, if_true]
    exact .final trivial rfl rfl
  case some l =>
    simp only [hf, Option.isNone_some, Bool.false_eq_true, if_false]
    split
    case h_1 => exact .nil trivial rfl
    case h_2 => exact claimMonero_logs (.inr rfl)

end Claim

theorem setNextExpectedEvent_logs {e : EventType}
    (hn : m.swap.nextExpectedEvent = .keysReceived ∧ e = .xmrLocked ∨
      m.swap.nextExpectedEvent = .xmrLocked ∧ e = .ethClaimed) :
    m.Logs (m.setPushes e) (m.setNextExpectedEvent e) := by
  obtain ⟨hn, rfl⟩ | ⟨hn, rfl⟩ := hn
  all_goals
    simp only [setPushes, setNextExpectedEvent, hn, EventType.getStatus, reduceCtorEq, or_self,
      if_false]
    exact ⟨trivial, .stage rfl (by simp) (by simp [SwapState.mark, hn]), rfl⟩

section Keys

variable (hn : m.swap.nextExpectedEvent = .keysReceived)
include hn

theorem keysReceivedFailed_logs : m.Logs m.keysFailedPushes m.keysReceivedFailed := by
  unfold keysReceivedFailed keysFailedPushes
  split
  case isTrue  => exact (setNextExpectedEvent_logs (.inl ⟨hn, rfl⟩)).writingSwap
  case isFalse => exact .nil trivial rfl

theorem keysError_logs {e : Error} (m' : Loop) (hs : m'.swap.progress = m.swap.progress) :
    m.Logs (if e.isPanic then [] else m'.keysFailedPushes)
      (if e.isPanic then m'.panic else m'.keysReceivedFailed) := by
  have hn' : m'.swap.nextExpectedEvent = .keysReceived := (congrArg Prod.snd hs).trans hn
  split
  case isTrue  => exact .nil trivial hs
  case isFalse => exact (keysReceivedFailed_logs hn').congr hs

theorem keysChecked_logs {msg : SendKeysMessage} {calls : KeysCalls} :
    m.Logs (m.checkedPushes (checkKeys calls msg m.swap)) (m.keysChecked msg calls) := by
  have hs : (checkKeys calls msg m.swap).snd.progress = m.swap.progress := checkKeys_keeps m.swap
  unfold checkedPushes keysChecked
  generalize checkKeys calls msg m.swap = r at hs ⊢
  obtain ⟨⟨e⟩ | ⟨u⟩, s⟩ := r
  case error => exact keysError_logs hn { m with swap := s } hs
  case ok    => exact .nil ((congrArg Prod.snd hs).trans hn) hs

theorem newSwapped_logs {receipt : Receipt} {id : Bytes32} {nonce : ℤ} {put : Bool} :
    m.Logs (m.checkedPushes (recordSwap b nonce put receipt m.swap))
      (m.newSwapped b (some receipt) id nonce put) := by
  have hs : (recordSwap b nonce put receipt m.swap).snd.progress = m.swap.progress :=
    recordSwap_keeps m.swap
  have hm : (m.newSwapMined id).swap = m.swap := rfl
  rw [newSwapped, hm]
  unfold checkedPushes
  generalize recordSwap b nonce put receipt m.swap = r at hs ⊢
  obtain ⟨⟨e⟩ | ⟨u⟩, s⟩ := r
  case error => exact keysError_logs hn { m.newSwapMined id with swap := s } hs
  case ok    => exact .nil ((congrArg Prod.snd hs).trans hn) hs

theorem messageSent_logs :
    m.Logs (if ok then m.setPushes .xmrLocked else m.keysFailedPushes) (m.messageSent ok) := by
  unfold messageSent
  split
  case isTrue  => exact setNextExpectedEvent_logs (.inl ⟨hn, rfl⟩)
  case isFalse => exact keysReceivedFailed_logs hn

end Keys

section XMRLocked

variable (hn : m.swap.nextExpectedEvent = .xmrLocked)
include hn

theorem readyStageRead_logs (hc : m.control = .readyStage) :
    m.Logs (m.pushes b (.stageRead true)) (m.readyStageRead true) := by
  cases hs : m.stages m.swap.contractSwapID <;> simp only [pushes, hc, readyStageRead, hs]
  case invalid => exact .nil trivial rfl
  case pending => exact .nil hn rfl
  all_goals exact setNextExpectedEvent_logs (.inr ⟨hn, rfl⟩)

theorem readySent_logs : m.Logs (m.readyPushes b ok text) (m.readySent b ok text) := by
  unfold readySent readyPushes
  cases m.swap.contractSwap
  case none    => cases ok <;> exact .nil trivial rfl
  case some sw =>
    by_cases h₁ : ok ∧ m.stages (sw.swapID b.host) = .pending
    case pos =>
      simp only [h₁, and_self, true_or, if_true]
      let m' := { m with stages := update m.stages (sw.swapID b.host) .ready }
      exact (setNextExpectedEvent_logs (m := m') (.inr ⟨hn, rfl⟩)).congr rfl
    case neg =>
      simp only [h₁, false_or, if_false]
      split
      case isTrue  => exact setNextExpectedEvent_logs (.inr ⟨hn, rfl⟩)
      case isFalse => exact .nil trivial rfl

end XMRLocked

section Refund

theorem waitOrRefund_logs {ts : Time} : m.Logs [] (m.waitOrRefund ts) := by
  unfold waitOrRefund
  split <;> exact .nil trivial rfl

theorem afterRefund_logs {site : RefundSite} {r : RefundResult} (hr : r ≠ .refunded) :
    m.Logs (m.afterRefundPushes site r) (m.afterRefund site r) := by
  cases site <;> cases r <;> first | contradiction | skip
  case shouldRefund.swapCompleted => exact exit_logs
  case shouldRefund.failed        => exact exit_logs
  case early.swapCompleted        => exact waitOrRefund_logs
  case early.failed               => exact waitOrRefund_logs
  case final.swapCompleted        => exact tryClaim_logs
  case final.failed               => exact .nil trivial rfl

-- In the handler of the event `exit` finds that none is expected.
theorem refunded_logs {site : RefundSite} {stages : Bytes32 → Stage} :
    m.Logs (m.afterRefundPushes site .refunded)
      (afterRefund { m.clearNextExpectedEvent .completedRefund with stages := stages } site
        .refunded) := by
  cases site
  case shouldRefund => exact .final trivial rfl rfl
  all_goals
    refine ⟨trivial, ⟨.final ?_ ?_, rfl⟩⟩
    · simp [afterRefundPushes]
    · simp [afterRefundPushes, Status.isOngoing]

theorem refundSent_logs {site : RefundSite} :
    m.Logs (m.refundPushes b site ok text) (m.refundSent b site ok text) := by
  unfold refundPushes refundSent
  cases m.swap.contractSwap
  case none =>
    cases ok
    case false => exact afterRefund_logs (by simp)
    case true  => exact .nil trivial rfl
  case some sw =>
    simp only [refund]
    split
    case isTrue => exact refunded_logs
    split <;> exact afterRefund_logs (by simp)

theorem refundStageRead_logs : m.Logs [] (m.refundStageRead ok) := by
  unfold refundStageRead
  repeat' split
  case h_2 => exact tryClaim_logs
  all_goals exact .nil trivial rfl

theorem refundTimestamp_logs {isReady : Bool} {ts : Option Time} :
    m.Logs [] (m.refundTimestamp isReady ts) := by
  cases ts
  case none    => exact .nil trivial rfl
  case some ts =>
    simp only [refundTimestamp]
    split
    case isTrue  => exact .nil trivial rfl
    case isFalse => exact waitOrRefund_logs

theorem waited_logs : m.Logs [] (m.waited ok) := by
  unfold waited
  split <;> exact .nil trivial rfl

theorem handleEventWaiting_logs {e : Event} (he : m.Expects) :
    m.Logs [] (m.handleEventWaiting e) := by
  cases e
  case ethClaimed => exact tryClaim_logs
  case exit       => exact .nil he rfl
  all_goals exact .nil trivial rfl

end Refund

theorem handleEvent_logs {e : Event} (hc : m.control = .runHandleEvents) :
    m.Logs (m.pushes b (.event e)) (m.handleEvent e) := by
  have he : m.Expects := by simp [Expects, hc]
  cases e <;> simp only [pushes, hc, handleEvent]
  case keysReceived =>
    split
    case isTrue hn => exact .nil hn rfl
    case isFalse   => exact .nil he rfl
  case xmrLocked =>
    split
    case isTrue hn =>
      unfold handleNotifyXMRLock
      split
      case isTrue  => exact .nil trivial rfl
      case isFalse => exact .nil hn rfl
    case isFalse => exact .nil he rfl
  case ethClaimed =>
    split
    case isTrue hn => exact claimMonero_logs (.inl hn)
    case isFalse   => exact .nil he rfl
  case shouldRefund =>
    unfold handleEventShouldRefund
    split
    case isTrue  => exact .nil trivial rfl
    case isFalse => exact exit_logs
  case exit => exact exit_logs

theorem completed_logs : m.Logs [] (m.completed ok) := by
  unfold completed
  repeat' split
  all_goals exact .nil trivial rfl

theorem pushes_of_not_takes {i : Input} (h : m.takes i = false) : m.pushes b i = [] := by
  unfold pushes
  split <;> simp_all [takes]

theorem step_logs {i : Input} (h : m.Expects) : m.Logs (m.pushes b i) (m.step b i) := by
  have hs := step_step b m i
  generalize m.step b i = m' at hs ⊢
  cases hs
  case idle hi      => exact pushes_of_not_takes hi ▸ .nil h rfl
  case newSwapMined =>
    rw [pushes_of_not_takes rfl]
    exact .nil h rfl
  case stageMined   =>
    rw [pushes_of_not_takes rfl]
    unfold stageMined
    split <;> exact .nil h rfl
  case ctxDone      =>
    rw [pushes_of_not_takes rfl]
    exact .nil trivial rfl
  all_goals
    rename_i hc
    simp only [Expects, hc] at h
  case event             => exact handleEvent_logs hc
  case readyStageRead ok =>
    cases ok
    case false => simpa only [pushes, hc] using .nil trivial rfl
    case true  => exact readyStageRead_logs h hc
  case newSwapped receipt _ _ _ =>
    cases receipt <;> simp only [pushes, hc]
    case none => exact keysReceivedFailed_logs h
    case some => exact newSwapped_logs h
  case filtered logs =>
    cases logs <;> simp only [pushes, hc]
    case none => exact .nil trivial rfl
    case some => exact filtered_logs
  all_goals simp only [pushes, hc]
  case keysChecked     => exact keysChecked_logs h
  case messageSent     => exact messageSent_logs h
  case swapWritten ok  => cases ok <;> exact .nil trivial rfl
  case readySent       => exact readySent_logs h
  case sweeping        => exact sweeping_logs
  case swept           => exact swept_logs
  case refundSent      => exact refundSent_logs
  case eventWaiting    => exact handleEventWaiting_logs (by simp [Expects, hc])
  case refundStageRead => exact refundStageRead_logs
  case refundTimestamp => exact refundTimestamp_logs
  case waited          => exact waited_logs
  case completed       => exact completed_logs

section Sweeps

theorem not_mem_setPushes {e : EventType} : .sweepingXMR ∉ m.setPushes e := by
  unfold setPushes
  split
  · simp
  · cases e <;> simp [EventType.getStatus]

theorem not_mem_exitPushes : .sweepingXMR ∉ m.exitPushes :=
  fun h => by cases exitPushes_final _ h

theorem not_mem_claimFailedPushes : .sweepingXMR ∉ m.claimFailedPushes inExit :=
  fun h => by cases claimFailedPushes_final _ h

theorem not_mem_claimedPushes : .sweepingXMR ∉ m.claimedPushes := by
  unfold claimedPushes
  split <;> simp

theorem not_mem_keysFailedPushes : .sweepingXMR ∉ m.keysFailedPushes := by
  unfold keysFailedPushes
  split <;> simp [not_mem_setPushes]

theorem not_mem_checkedPushes {α : Type} {r : Except Error α × SwapState} :
    .sweepingXMR ∉ m.checkedPushes r := by
  unfold checkedPushes
  repeat' split
  all_goals simp [not_mem_keysFailedPushes]

theorem not_mem_readyPushes : .sweepingXMR ∉ m.readyPushes b ok text := by
  unfold readyPushes
  repeat' split
  all_goals simp [not_mem_setPushes]

theorem not_mem_refundPushes {site : RefundSite} :
    .sweepingXMR ∉ m.refundPushes b site ok text := by
  have hr : ∀ r, .sweepingXMR ∉ m.afterRefundPushes site r := by
    intro r
    cases site <;> cases r <;> simp [afterRefundPushes, not_mem_exitPushes]
  unfold refundPushes
  repeat' split
  all_goals simp [hr]

-- Only an attempt to sweep pushes `SweepingXMR`.
theorem sweeping_of_mem_pushes {i : Input} (h : .sweepingXMR ∈ m.pushes b i) :
    ∃ written, i = .sweeping true written := by
  unfold pushes at h
  repeat' split at h
  all_goals simp_all [not_mem_setPushes, not_mem_exitPushes, not_mem_claimedPushes,
    not_mem_claimFailedPushes, not_mem_keysFailedPushes, not_mem_checkedPushes, not_mem_readyPushes,
    not_mem_refundPushes]

end Sweeps

theorem pushes_stopped {i : Input} (h : m.control = .stopped) : m.pushes b i = [] := by
  cases i <;> simp only [pushes, h]

end Loop

end XMRTaker
