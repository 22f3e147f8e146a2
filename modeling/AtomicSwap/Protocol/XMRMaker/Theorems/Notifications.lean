import AtomicSwap.Protocol.Notifications
import AtomicSwap.Protocol.Swap.Theorems.StatusManager
import AtomicSwap.Protocol.XMRMaker.Theorems.Panics

open Ethereum SwapCreator Handler Swap.StatusManager

namespace XMRMaker

variable {b : Backend} {calls : Calls} {s : SwapState}

-- How many stages the swap has gone through, and its status.
def SwapState.mark (s : SwapState) : ℕ × Status :=
  (match s.nextExpectedEvent with
   | .contractReady | .none => 2
   | _                      => 1, s.info.status)

theorem untouched_mark : Untouched SwapState.mark := by
  constructor <;> intros <;> rfl

namespace Loop

variable {m : Loop} {ok ready written : Bool} {exits : ℕ}

theorem returns_swap : (m.returns exits).swap = m.swap := by
  cases exits <;> rfl

theorem exit_logs : Logs m.exitPushes m.swap.mark (m.exit exits).swap.mark := by
  cases hn : m.swap.nextExpectedEvent <;> simp only [exit, exitPushes, hn]
  case contractReady => exact .nil rfl
  case none          => exact .nil rfl
  all_goals exact .final rfl rfl

theorem resume_logs {α : Type} {r : Except Error α × SwapState} {next : α → Control} (m' : Loop)
    (hs : r.snd.mark = m.swap.mark) :
    Logs (m.resumePushes r) m.swap.mark (m'.resume r next).swap.mark := by
  unfold resume resumePushes
  obtain ⟨⟨e⟩ | ⟨a⟩, s⟩ := r
  case error =>
    dsimp only
    split
    case isTrue  => exact .nil hs
    case isFalse => exact hs ▸ exit_logs (m := { m' with swap := s })
  case ok => exact .nil hs

theorem checked_logs {msg : NotifyETHLocked} {ec : EthClient} :
    Logs (m.resumePushes (amountToLock b ec calls msg m.swap)) m.swap.mark
      (m.checked b msg ec calls).swap.mark :=
  resume_logs m (amountToLock_keeps untouched_mark m.swap)

theorem startTransfer_mark {amount : Decimal} :
    (startTransfer calls amount).Post s fun _ s' =>
      if !calls.getBalance ∨ s.nextExpectedEvent = .none ∨ s.nextExpectedEvent = .contractReady
      then s'.mark = s.mark
      else s'.nextExpectedEvent = .contractReady ∧ s'.info.status = .xmrLocked := by
  refine post_bind_bind.mpr <| post_throwIf_bind.mpr ⟨fun hb => by simp [hb], fun hb => ?_⟩
  refine post_bind_bind.mpr <| post_get_bind.mpr <| post_bind_bind.mpr ?_
  refine post_throwIf_bind.mpr ⟨fun hn => by simp [hn], fun hn => post_bind_bind.mpr ?_⟩
  refine post_throwIf_bind.mpr ⟨fun hn => by simp [← hn], fun hn' => post_bind_bind.mpr ?_⟩
  refine post_modify_bind.mpr <| post_bind_bind.mpr ?_
  refine post_throwIf_bind.mpr ⟨by simp [EventType.getStatus], fun _ => post_bind_bind.mpr ?_⟩
  refine post_modify_bind.mpr ?_
  have hc := not_or.mpr ⟨hb, not_or.mpr ⟨hn, Ne.symm hn'⟩⟩
  refine post_throwIf_bind.mpr ⟨fun _ => ?_, fun _ => post_modify.mpr ?_⟩
  all_goals
    rw [if_neg hc]
    exact ⟨rfl, rfl⟩

section Waiting

-- The maker has begun to wait for the contract, although this may not have been written.
variable {α : Type} {r : Except Error α × SwapState}
  (hr : r.snd.nextExpectedEvent = .contractReady)

include hr

theorem resume_swap {next : α → Control} : (m.resume r next).swap = r.snd := by
  unfold resume
  obtain ⟨⟨e⟩ | ⟨a⟩, s⟩ := r
  case error =>
    dsimp only at hr ⊢
    split
    case isTrue  => rfl
    case isFalse => simp [exit, hr]
  case ok => rfl

theorem resumePushes_waiting : m.resumePushes r = [] := by
  unfold resumePushes
  obtain ⟨⟨e⟩ | ⟨a⟩, s⟩ := r
  case error => simp [exitPushes, show s.nextExpectedEvent = .contractReady from hr]
  case ok    => rfl

end Waiting

theorem prepared_logs {amount : Decimal} :
    Logs (m.preparePushes calls ++ m.resumePushes (startTransfer calls amount m.swap)) m.swap.mark
      (m.prepared calls amount).swap.mark := by
  have hs := startTransfer_mark.result (Prod.mk.eta (p := startTransfer calls amount m.swap)).symm
  unfold preparePushes
  by_cases hn : !calls.getBalance ∨ m.swap.nextExpectedEvent = .none ∨
      m.swap.nextExpectedEvent = .contractReady
  case pos =>
    rw [if_pos hn, List.nil_append]
    exact resume_logs _ (by rwa [if_pos hn] at hs)
  case neg =>
    rw [if_neg hn] at hs ⊢
    obtain ⟨hr, hi⟩ := hs
    have hw : (m.prepared calls amount).swap = (startTransfer calls amount m.swap).snd :=
      resume_swap hr
    have hk : m.swap.mark.fst = 1 := by
      unfold SwapState.mark
      split <;> simp_all
    rw [resumePushes_waiting hr, List.append_nil, hw]
    exact ⟨.stage rfl (by simp) (by rw [hk]; simp [SwapState.mark, hr]), hi⟩

theorem claimed_logs :
    Logs (if ok then [.completedSuccess] else m.exitPushes) m.swap.mark
      (m.claimed exits ok).swap.mark := by
  unfold claimed
  split
  case isTrue  => exact .final rfl (by rw [returns_swap]; rfl)
  case isFalse => exact exit_logs

theorem sweeping_logs :
    Logs [.sweepingXMR] m.swap.mark (m.sweeping exits true written).swap.mark := by
  cases written
  case false => exact .sweep (.nil (by simp [sweeping, returns_swap, SwapState.mark])) (by simp)
  case true  => exact .sweep (.nil rfl) (by simp)

theorem swept_logs :
    Logs [.completedRefund] m.swap.mark (m.swept exits true).swap.mark := by
  cases exits <;> exact .final rfl rfl

theorem handleEventContractReady_mark :
    (m.handleEventContractReady exits).swap.mark = m.swap.mark := by
  unfold handleEventContractReady
  split <;> rfl

theorem handleEvent_logs {e : Event} (hc : m.control = .runHandleEvents) :
    Logs (m.pushes b (.event e)) m.swap.mark (m.handleEvent e).swap.mark := by
  cases e <;> simp only [pushes, hc, handleEvent]
  case ethLocked     => split <;> exact .nil rfl
  case contractReady =>
    split
    case isTrue  => exact .nil handleEventContractReady_mark
    case isFalse => exact .nil rfl
  case ethRefunded   => exact .nil rfl
  case exit          => exact exit_logs

theorem handleEventInExit_logs {e : Event} :
    Logs [] m.swap.mark (m.handleEventInExit exits e).swap.mark := by
  cases e
  case contractReady => exact .nil handleEventContractReady_mark
  all_goals exact .nil rfl

theorem completed_logs : Logs [] m.swap.mark (m.completed exits ok).swap.mark := by
  refine .nil ?_
  unfold completed
  dsimp only
  repeat' split
  all_goals simp [returns_swap]

theorem pushes_of_not_takes {i : Input} (h : m.takes i = false) : m.pushes b i = [] := by
  unfold pushes
  split <;> simp_all [takes]

theorem step_logs {i : Input} : Logs (m.pushes b i) m.swap.mark (m.step b i).swap.mark := by
  have hs := step_step b m i
  generalize m.step b i = m' at hs ⊢
  cases hs
  case idle h         => exact pushes_of_not_takes h ▸ .nil rfl
  case claimedLog log =>
    cases hl : checkSwapID log claimedTopic m.swap.contractSwapID <;>
      simp only [pushes, handleClaimedLogs, hl]
    case error => exact .nil rfl
    case ok    => exact .final rfl rfl
  case ctxDone  => exact .nil rfl
  case event hc => exact handleEvent_logs hc
  case transferred ok hc =>
    cases ok <;> simp only [pushes, hc]
    case false => exact exit_logs
    case true  => exact .nil rfl
  case sweeping ready _ hc =>
    cases ready <;> simp only [pushes, hc]
    case false => exact .nil (by simp [sweeping, returns_swap])
    case true  => exact sweeping_logs
  case swept ok hc =>
    cases ok <;> simp only [pushes, hc]
    case false => exact .nil (by simp [swept, returns_swap])
    case true  => exact swept_logs
  all_goals
    rename_i hc
    simp only [pushes, hc]
  case checked     => exact checked_logs
  case prepared    => exact prepared_logs
  case claimed     => exact claimed_logs
  case eventInExit => exact handleEventInExit_logs
  case completed   => exact completed_logs

theorem not_mem_exitPushes : .sweepingXMR ∉ m.exitPushes := by
  unfold exitPushes
  split <;> simp

theorem not_mem_resumePushes {α : Type} {r : Except Error α × SwapState} :
    .sweepingXMR ∉ m.resumePushes r := by
  unfold resumePushes
  repeat' split
  all_goals simp [not_mem_exitPushes]

theorem not_mem_preparePushes : .sweepingXMR ∉ m.preparePushes calls := by
  unfold preparePushes
  split <;> simp

-- Only an attempt to sweep pushes `SweepingXMR`.
theorem sweeping_of_mem_pushes {i : Input} (h : .sweepingXMR ∈ m.pushes b i) :
    ∃ written, i = .sweeping true written := by
  unfold pushes at h
  repeat' split at h
  all_goals simp_all [not_mem_exitPushes, not_mem_resumePushes, not_mem_preparePushes]

-- The watcher may still find that the ETH has been claimed.
theorem pushes_stopped {i : Input} (h : m.control = .stopped) :
    ∀ s ∈ m.pushes b i, s.isOngoing = false := by
  cases i
  case claimedLog =>
    simp only [pushes]
    split <;> simp [Status.isOngoing]
  all_goals simp [pushes, h]

theorem step_stopped {i : Input} (h : m.control = .stopped) : (m.step b i).control = .stopped := by
  cases i
  case claimedLog =>
    simp only [step, handleClaimedLogs]
    split <;> exact h
  all_goals simp [step, h]

end Loop

end XMRMaker
