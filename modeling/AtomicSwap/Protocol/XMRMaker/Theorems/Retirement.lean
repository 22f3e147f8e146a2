import AtomicSwap.Protocol.XMRMaker.EventLoop
import AtomicSwap.Protocol.XMRMaker.Theorems.Lock

open Ethereum SwapCreator Handler Machine

namespace XMRMaker.Loop

variable {b : Backend} {m : Loop} {n exits : ℕ} {ok ready written : Bool} {e : Event}

-- The maker has got the ETH, or it has got its XMR back, and the status says so.
def Settled (m : Loop) : Prop :=
  m.swap.info.status = .completedSuccess ∧ m.ethClaimed ∨
  m.swap.info.status = .completedRefund ∧ m.xmrReclaimed

-- While `exit` waits, the only event that it can do nothing with is the one that follows a
-- `Claimed` log. If the XMR cannot be reclaimed, then neither is `exit` waiting for it nor is the
-- swap over.
def Orderly (m : Loop) (i : Input) : Prop :=
  match m.control, i with
  | .exitWait _, .event .exit | .exitWait _, .event (.ethLocked _) =>
    m.swap.nextExpectedEvent = .none
  | .reclaimMonero exits, .sweeping ready written =>
    ready ∧ written ∨ exits = 0 ∧ m.swap.nextExpectedEvent = .contractReady
  | .sweepAll exits, .swept ok =>
    ok ∨ exits = 0 ∧ m.swap.nextExpectedEvent = .contractReady
  | _, _ => True

instance (m : Loop) (i : Input) : Decidable (m.Orderly i) := by
  unfold Orderly
  split <;> infer_instance

def Finished (m : Loop) : Prop :=
  m.xmrLocked → m.swap.nextExpectedEvent = .none ∧ m.Settled

-- With locked XMR, either the loop knows that there is something to wait for, or all is settled.
def Calm (m : Loop) : Prop :=
  m.xmrLocked → m.swap.nextExpectedEvent = .contractReady ∨
    m.swap.nextExpectedEvent = .none ∧ m.Settled

def Safe (m : Loop) : Prop :=
  match m.control with
  | .checkETHLocked _ | .prepareLock _ => ¬m.xmrLocked
  | .sweepAll _                        =>
    m.xmrLocked → m.swap.nextExpectedEvent = .contractReady ∨ m.swap.nextExpectedEvent = .none
  | .completeOngoingSwap _             => m.Finished
  | _                                  => m.Calm

theorem Finished.calm (h : m.Finished) : m.Calm :=
  fun hl => .inr (h hl)

theorem safe_of_not_locked (h : ¬m.xmrLocked) : m.Safe := by
  unfold Safe
  split
  case h_1 => exact h
  case h_2 => exact h
  all_goals exact fun hl => absurd hl h

theorem safe_start (s : SwapState) : (start s).Safe := by
  intro hl
  exact .inl <| by simpa [start] using hl

section Functions

theorem exit_safe (h : m.Calm) : (m.exit n).Safe := by
  unfold exit
  split
  case h_1 => exact h
  case h_2 hn =>
    intro hl
    exact h hl |>.resolve_left (by simp [hn])
  case h_3 hr hn =>
    intro hl
    cases h hl
    case inl h => exact absurd h hr
    case inr h => exact absurd h.left hn

theorem returns_safe (h : m.Finished) : (m.returns n).Safe := by
  cases n
  case zero => exact h.calm
  case succ => exact h

theorem handleEventContractReady_safe (h : m.Calm) : (m.handleEventContractReady n).Safe := by
  unfold handleEventContractReady
  split <;> exact h

theorem handleEvent_safe (h : m.Calm) (hc : m.control = .runHandleEvents) :
    (m.handleEvent e).Safe := by
  have hm : m.Safe := by simpa [Safe, hc] using h
  cases e
  case ethLocked msg =>
    simp only [handleEvent]
    split
    case isTrue hn =>
      intro hl
      have := h hl
      simp [hn] at this
    case isFalse => exact hm
  case contractReady =>
    simp only [handleEvent]
    split
    case isTrue  => exact handleEventContractReady_safe h
    case isFalse => exact hm
  case ethRefunded => exact h
  case exit => exact exit_safe h

theorem handleEventInExit_safe (h : m.Calm) (hc : m.control = .exitWait n)
    (ho : m.Orderly (.event e)) : (m.handleEventInExit n e).Safe := by
  have hf (hn : m.swap.nextExpectedEvent = .none) : m.Finished :=
    fun hl => (h hl).resolve_left (by simp [hn])
  cases e
  case ethRefunded   => exact h
  case contractReady => exact handleEventContractReady_safe h
  case ethLocked     => exact hf <| by simpa [Orderly, hc] using ho
  case exit          => exact hf <| by simpa [Orderly, hc] using ho

theorem transferred_safe (h : m.Calm) : (m.transferred ok).Safe := by
  unfold transferred
  split
  case isTrue  => exact h
  case isFalse => exact exit_safe h

theorem claimed_safe (h : m.Calm) : (m.claimed n ok).Safe := by
  unfold claimed
  split
  case isTrue  => exact returns_safe fun _ => ⟨rfl, .inl ⟨rfl, rfl⟩⟩
  case isFalse => exact exit_safe h

theorem completed_safe (h : m.Finished) : (m.completed n ok).Safe := by
  unfold completed
  split
  case isTrue => exact returns_safe h
  case isFalse =>
    dsimp only
    split
    case isTrue  => exact h.calm
    case isFalse => exact returns_safe h

theorem sweeping_safe (h : m.Calm) (hc : m.control = .reclaimMonero n)
    (ho : m.Orderly (.sweeping ready written)) : (m.sweeping n ready written).Safe := by
  simp only [Orderly, hc] at ho
  cases ho
  case inl ho =>
    simp only [sweeping, ho.left, ho.right]
    intro hl
    exact (h hl).imp_right And.left
  case inr ho =>
    have hm (m' : Loop) (he : m'.swap.nextExpectedEvent = m.swap.nextExpectedEvent) : m'.Calm :=
      fun _ => .inl <| he.trans ho.right
    unfold sweeping
    repeat' split
    · exact ho.left ▸ hm _ rfl
    · exact ho.left ▸ hm _ rfl
    · exact fun _ => .inl ho.right

theorem swept_safe (hc : m.control = .sweepAll n) (ho : m.Orderly (.swept ok)) :
    (m.swept n ok).Safe := by
  simp only [Orderly, hc] at ho
  cases ok
  case true =>
    have hf : Finished { m.clearNextExpectedEvent .completedRefund with xmrReclaimed := true } :=
      fun _ => ⟨rfl, .inr ⟨rfl, rfl⟩⟩
    cases n
    case zero   => exact exit_safe hf.calm
    case succ k => exact returns_safe (n := k + 1) hf
  case false =>
    have ⟨hn, hr⟩ := ho.resolve_left (by simp)
    subst hn
    exact fun _ => .inl hr

@[simp]
theorem exit_xmrLocked : (m.exit n).xmrLocked = m.xmrLocked := by
  unfold exit
  split <;> rfl

theorem checked_safe {msg : NotifyETHLocked} {ec : EthClient} {calls : Calls} (h : ¬m.xmrLocked) :
    (checked b m msg ec calls).Safe := by
  apply safe_of_not_locked
  unfold checked resume
  split
  case h_1 => exact h
  case h_2 => split <;> simpa using h

-- The loop starts to wait for the contract at the moment at which the XMR counts as locked.
theorem prepared_safe {calls : Calls} {amount : Decimal} (h : ¬m.xmrLocked) :
    (m.prepared calls amount).Safe := by
  have hc (m' : Loop) (hs : m'.swap = (startTransfer calls amount m.swap).snd)
      (hl : m'.xmrLocked = (m.xmrLocked || decide (m'.swap.nextExpectedEvent = .contractReady))) :
      m'.Calm := by
    intro hx
    exact .inl <| by simpa [hl, h] using hx
  simp only [prepared, resume]
  split
  case h_1 s' hr =>
    rw [hr] at hc ⊢
    exact hc { m with swap := s', xmrLocked := _ } rfl rfl
  case h_2 e s' hr =>
    rw [hr] at hc ⊢
    split
    case isTrue  => exact hc { m with swap := s', xmrLocked := _ } rfl rfl
    case isFalse => exact exit_safe <| hc { m with swap := s', xmrLocked := _ } rfl rfl

theorem handleClaimedLogs_safe {log : Log} (h : m.Safe) : (m.handleClaimedLogs log).Safe := by
  unfold handleClaimedLogs
  split
  case h_2 => exact h
  case h_1 =>
    by_cases hl : m.xmrLocked
    case neg => exact safe_of_not_locked hl
    case pos =>
      have hf : Finished { m.clearNextExpectedEvent .completedSuccess with ethClaimed := true } :=
        fun _ => ⟨rfl, .inl ⟨rfl, rfl⟩⟩
      cases hc : m.control
      all_goals simp only [Safe, hc, clearNextExpectedEvent] at h ⊢
      case checkETHLocked => exact absurd hl h
      case prepareLock    => exact absurd hl h
      case sweepAll       => simp
      case completeOngoingSwap => exact hf
      all_goals exact hf.calm

end Functions

theorem step_safe (m : Loop) (i : Input) (h : m.Safe) (ho : m.Orderly i) : (m.step b i).Safe := by
  have hs := step_step b m i
  generalize m.step b i = m' at hs ⊢
  cases hs
  case idle       => exact h
  case claimedLog => exact handleClaimedLogs_safe h
  case ctxDone hc => simpa [Safe, hc, Calm, Settled] using h
  all_goals
    rename_i hc
    simp only [Safe, hc] at h
  case event       => exact handleEvent_safe h hc
  case eventInExit => exact handleEventInExit_safe h hc ho
  case checked     => exact checked_safe h
  case prepared    => exact prepared_safe h
  case transferred => exact transferred_safe h
  case claimed     => exact claimed_safe h
  case sweeping    => exact sweeping_safe h hc ho
  case swept       => exact swept_safe hc ho
  case completed   => exact completed_safe h

-- A swap with locked XMR is only retired when it is settled.
theorem retired_settled {s : SwapState} {is : List Input}
    (h : Along (step b) Orderly is (start s)) :
    let m := run (step b) is (start s)
    ∀ exits, m.control = .completeOngoingSwap exits → m.xmrLocked → m.Settled := by
  intro m exits hc hl
  have hs : m.Safe := run_invariant step_safe (safe_start s) h
  simp only [Safe, hc] at hs
  exact (hs hl).right

theorem startTransfer_ok {calls : Calls} {amount : Decimal} {s s' : SwapState} {u : Unit}
    (h : startTransfer calls amount s = (.ok u, s')) : s'.nextExpectedEvent = .contractReady := by
  simp only [startTransfer, prepareLock, setNextExpectedEvent, updateStatus, bind_ok, throwIf_ok,
    get_ok, modify_ok, and_assoc, exists_and_left, exists_eq_left', exists_const] at h
  obtain ⟨_, _, _, _, _, h⟩ := h
  exact h ▸ rfl

-- The steps of the loop that lock the XMR are those of the handler.
theorem run_handleNotifyETHLocked {ec : EthClient} {calls : Calls} {msg : NotifyETHLocked}
    {s' : SwapState} (hc : m.control = .checkETHLocked msg)
    (h : handleNotifyETHLocked b ec calls msg m.swap = (.ok (), s')) :
    run (step b) [.checked ec calls, .prepared calls, .transferred calls.transfer] m =
    { m with swap := s', control := .runHandleEvents, xmrLocked := true } := by
  simp only [handleNotifyETHLocked, lockFunds, bind_ok, throwIf_ok] at h
  have ⟨amount, s₁, ha, _, s₂, hs, ht, h₂⟩ := h
  have hn := startTransfer_ok hs
  have h₁ : step b m (.checked ec calls) =
      { m with swap := s₁, control := .prepareLock amount } := by
    simp [step, hc, checked, resume, ha]
  have h₂ : step b { m with swap := s₁, control := .prepareLock amount } (.prepared calls) =
      { m with swap := s₂, control := .transfer, xmrLocked := true } := by
    simp [step, prepared, resume, hs, hn]
  simp only [run, List.foldl, h₁, h₂]
  simp_all [step, transferred]

end XMRMaker.Loop

namespace XMRMaker.Sample

def locking : List Input :=
  [.event <| .ethLocked <| notify swap swapID, .checked (client [newLog swap swapID]) calls,
    .prepared calls, .transferred true]

-- The taker refunds while the maker waits in `exit`.
def refunding : List Input :=
  locking ++ [.event .exit, .event .ethRefunded, .sweeping true true, .swept true]

-- The user of the daemon cancels the swap twice.
def cancelling : List Input :=
  locking ++ [.event .exit, .event .exit]

end XMRMaker.Sample

namespace XMRMaker.Loop

open XMRMaker.Sample

theorem retired_settled_refunding :
    let m := run (step backend) refunding (start state)
    m.control = .completeOngoingSwap 0 ∧ m.xmrLocked ∧ m.Settled := by
  have hc : (run (step backend) refunding (start state)).control = .completeOngoingSwap 0 := by
    decide +kernel
  have hl : (run (step backend) refunding (start state)).xmrLocked := by
    decide +kernel
  exact ⟨hc, hl, retired_settled (by decide +kernel) 0 hc hl⟩

theorem retired_cancelling :
    let m := run (step backend) cancelling (start state)
    m.control = .completeOngoingSwap 0 ∧ m.xmrLocked ∧ m.swap.transfer ≠ none ∧
    m.swap.info.status = .xmrLocked ∧ ¬m.Settled ∧ (m.step backend (.completed true)).cancelled ∧
    (m.step backend (.completed true)).offerFate = .readded := by
  unfold Settled
  decide +kernel

end XMRMaker.Loop
