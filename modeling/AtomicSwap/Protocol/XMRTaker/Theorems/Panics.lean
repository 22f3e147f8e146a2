import AtomicSwap.Protocol.XMRTaker.Senders
import AtomicSwap.Protocol.XMRTaker.Theorems.Locked

open Ethereum SwapCreator Handler Machine

namespace XMRTaker

variable {b : Backend} {s s' : SwapState}

-- The status says whether another event is expected, and the channel `claimedCh` is closed when the
-- swap succeeds.
structure Consistent (s : SwapState) (claimedClosed : Bool) : Prop where
  next    : s.nextExpectedEvent = .keysReceived ∨ s.nextExpectedEvent = .xmrLocked ∨
    s.nextExpectedEvent = .ethClaimed ∨ s.nextExpectedEvent = .none
  status  : s.info.status.isOngoing = true ↔ s.nextExpectedEvent ≠ .none
  claimed : claimedClosed → s.info.status = .completedSuccess

theorem Consistent.unclaimed {closed : Bool} (h : Consistent s closed)
    (hn : s.nextExpectedEvent ≠ .none) : closed = false := by
  have ho := h.status.mpr hn
  by_contra hc
  simp [h.claimed (by simpa using hc), Status.isOngoing] at ho

-- Neither the checks of the keys nor the receipt change what is expected.
def SwapState.progress (s : SwapState) : Info × EventType :=
  (s.info, s.nextExpectedEvent)

theorem checkKeys_keeps {calls : KeysCalls} {msg : SendKeysMessage} :
    Keeps SwapState.progress (checkKeys calls msg) := by
  intro s
  obtain ⟨addr, key, hs⟩ : ∃ addr key, (checkKeys calls msg s).snd =
      { s with xmrmakerAddress := addr, xmrmakerSecp256k1PublicKey := key } := checkKeys_post
  rw [hs]
  rfl

theorem recordSwap_keeps {nonce : ℤ} {put : Bool} {receipt : Receipt} :
    Keeps SwapState.progress (recordSwap b nonce put receipt) :=
  keeps_bind (keeps_bind keeps_ofExcept fun _ =>
    keeps_bind (keeps_bind (keeps_modify fun _ => rfl) fun _ => keeps_bind keeps_ofExcept fun _ =>
      fun _ => rfl) fun _ =>
    keeps_bind keeps_ofExcept fun _ => keeps_bind (keeps_modify fun _ => rfl) fun _ =>
    keeps_bind (keeps_modify fun _ => rfl) fun _ => keeps_bind keeps_get fun _ =>
    keeps_bind keeps_ofExcept fun _ => keeps_bind keeps_ofExcept fun _ =>
    keeps_bind keeps_ofExcept fun _ => keeps_bind (keeps_modify fun _ => rfl) fun _ =>
    fun _ => rfl) fun _ =>
  keeps_bind keeps_ofExcept fun _ => keeps_modify fun _ => rfl

theorem Consistent.congr {closed : Bool} (h : Consistent s closed) (hs : s'.progress = s.progress) :
    Consistent s' closed := by
  simp only [SwapState.progress, Prod.mk.injEq] at hs
  obtain ⟨hi, hn⟩ := hs
  exact ⟨hn ▸ h.next, by rw [hi, hn]; exact h.status, by rw [hi]; exact h.claimed⟩

def Event.weight : Event → ℕ
  | keysReceived _ | xmrLocked => 1
  | _                          => 0

def Input.weight : Input → ℕ
  | event e => e.weight
  | _       => 0

namespace Loop

variable {m : Loop} {ok text ready written inExit isReady : Bool}

-- The next event that is expected while the loop waits for the result of a call.
def Next (m : Loop) : Prop :=
  match m.control with
  | .checkKeys _ | .newSwap | .sendSwapMessage => m.swap.nextExpectedEvent = .keysReceived
  | .readyStage | .setReady                    => m.swap.nextExpectedEvent = .xmrLocked
  | .claimMonero _ | .sweepAll _ | .refundStage | .refundTimestamp _ | .refund (.early _)
  | .refund .final | .waitT2 | .filterForClaim =>
    m.swap.nextExpectedEvent = .xmrLocked ∨ m.swap.nextExpectedEvent = .ethClaimed
  | .refund .shouldRefund                      => m.swap.nextExpectedEvent ≠ .none
  | .panicked                                  => False
  | _                                          => True

def Coherent (m : Loop) : Prop :=
  Consistent m.swap m.claimedClosed ∧ m.Next

-- A function that the loop has called panics: it reads a log with too few topics or too little
-- data, it cannot convert an amount, or it lacks the swap of the contract.
def Derefs (b : Backend) (m : Loop) (i : Input) : Prop :=
  match m.control, i with
  | .checkKeys msg, .keysChecked calls =>
    ∃ e s, checkKeys calls msg m.swap = (.error e, s) ∧ e.isPanic
  | .newSwap, .newSwapped (some receipt) _ nonce put =>
    ∃ e s, recordSwap b nonce put receipt m.swap = (.error e, s) ∧ e.isPanic
  | .setReady, .readySent true _ | .refund _, .refundSent true _ => m.swap.contractSwap = none
  | _, _ => False

-- The keys are checked or the asset is being locked.
def isLocking (m : Loop) : Bool :=
  match m.control with
  | .checkKeys _ | .newSwap => true
  | _                       => false

def closed (m : Loop) : Bool × Bool :=
  (m.xmrLockedClosed, m.doneClosed)

-- The loop goes on, and neither locks the asset nor closes `xmrLockedCh` or `done`.
def Follows (m : Loop) (closed : Bool × Bool) : Prop :=
  m.Coherent ∧ m.closed = closed ∧ m.isLocking = false

-- The lock of the asset, the goroutine that it starts and the channel that is closed when that
-- goroutine has sent its event come one after the other.
def weight (m : Loop) : ℕ :=
  m.isLocking.toNat + m.xmrLockedClosed.toNat

structure Continues (m : Loop) (i : Input) (m' : Loop) : Prop where
  coherent : m'.Coherent
  weight   : m'.weight + (m.startsT1 m').toNat ≤ m.weight + i.weight
  done     : m'.doneClosed → m.doneClosed ∨ i = .completed true

theorem Follows.continues {m' : Loop} {i : Input} (h : m'.Follows m.closed) :
    m.Continues i m' := by
  obtain ⟨hc, hx, hl⟩ := h
  simp only [closed, Prod.mk.injEq] at hx
  refine ⟨hc, ?_, fun hd => .inl (hx.right ▸ hd)⟩
  have hs : (m.startsT1 m').toNat ≤ m.isLocking.toNat := by
    by_cases hk : m.control = .newSwap <;> simp [startsT1, isLocking, hk, Bool.toNat_le]
  simp only [weight, hx.left, hl, Bool.toNat_false]
  omega

theorem Coherent.continues {i : Input} (h : m.Coherent) : m.Continues i m := by
  refine ⟨h, ?_, .inl⟩
  have hs : m.startsT1 m = false := by
    cases hc : m.control <;> simp [startsT1, hc]
  simp [hs]

section Functions

theorem writingSwap_follows {closed : Bool × Bool} (h : m.Follows closed) :
    m.writingSwap.Follows closed := by
  unfold writingSwap
  split
  case isTrue  => exact ⟨⟨h.left.left, trivial⟩, h.right.left, rfl⟩
  case isFalse => exact h

variable (h : Consistent m.swap m.claimedClosed)
include h

theorem swapWritten_follows : (m.swapWritten ok).Follows m.closed := by
  cases ok <;> exact ⟨⟨h, trivial⟩, rfl, rfl⟩

theorem clear_consistent {status : Status} (hn : m.swap.nextExpectedEvent ≠ .none)
    (hs : status.isOngoing = false) :
    Consistent (m.clearNextExpectedEvent status).swap m.claimedClosed where
  next    := .inr <| .inr <| .inr rfl
  status  := by simp [clearNextExpectedEvent, hs]
  claimed := by simp [h.unclaimed hn]

theorem exit_follows : m.exit.Follows m.closed := by
  unfold exit
  split
  case h_1 hn => exact ⟨⟨h, .inl hn⟩, rfl, rfl⟩
  case h_2 hn => exact ⟨⟨h, .inr hn⟩, rfl, rfl⟩
  case h_3    => exact ⟨⟨h, trivial⟩, rfl, rfl⟩
  case h_4 hn => exact ⟨⟨clear_consistent h hn rfl, trivial⟩, rfl, rfl⟩

theorem claimMoneroFailed_follows : (m.claimMoneroFailed inExit).Follows m.closed := by
  cases inExit
  case false => exact exit_follows h
  case true  => exact ⟨⟨h, trivial⟩, rfl, rfl⟩

section Claim

variable (hn : m.swap.nextExpectedEvent = .xmrLocked ∨ m.swap.nextExpectedEvent = .ethClaimed)
include hn

theorem claimMonero_follows : (m.claimMonero inExit).Follows m.closed := by
  unfold claimMonero
  split
  case isTrue  => exact ⟨⟨h, hn⟩, rfl, rfl⟩
  case isFalse => exact claimMoneroFailed_follows h

theorem moneroClaimed_follows : (m.moneroClaimed inExit).Follows m.closed := by
  have hn' : m.swap.nextExpectedEvent ≠ .none := by cases hn <;> simp_all
  have hc : Consistent (m.clearNextExpectedEvent .completedSuccess).swap true :=
    ⟨.inr <| .inr <| .inr rfl, by simp [clearNextExpectedEvent, Status.isOngoing], fun _ => rfl⟩
  simp only [moneroClaimed, h.unclaimed hn', Bool.false_eq_true, if_false]
  cases inExit
  case false => exact exit_follows (m := { m.clearNextExpectedEvent _ with claimedClosed := _ }) hc
  case true  => exact ⟨⟨hc, trivial⟩, rfl, rfl⟩

theorem sweeping_follows : (m.sweeping inExit ready written).Follows m.closed := by
  have hn' : m.swap.nextExpectedEvent ≠ .none := by cases hn <;> simp_all
  have hs : Consistent { m.swap with info.status := .sweepingXMR } m.claimedClosed :=
    ⟨h.next, by simp [Status.isOngoing, hn'], by simp [h.unclaimed hn']⟩
  unfold sweeping
  repeat' split
  · exact claimMoneroFailed_follows h
  · exact moneroClaimed_follows h hn
  · exact claimMoneroFailed_follows hs
  · exact ⟨⟨hs, hn⟩, rfl, rfl⟩

theorem swept_follows : (m.swept inExit ok).Follows m.closed := by
  unfold swept
  split
  case isTrue  => exact moneroClaimed_follows h hn
  case isFalse => exact claimMoneroFailed_follows h

theorem tryClaim_follows : m.tryClaim.Follows m.closed := by
  unfold tryClaim
  split
  case isTrue  => exact ⟨⟨h, hn⟩, rfl, rfl⟩
  case isFalse => exact ⟨⟨h, trivial⟩, rfl, rfl⟩

theorem filtered_follows {logs : Option (List Log)} : (m.filtered logs).Follows m.closed := by
  have hn' : m.swap.nextExpectedEvent ≠ .none := by cases hn <;> simp_all
  unfold filtered
  repeat' split
  · exact ⟨⟨h, trivial⟩, rfl, rfl⟩
  · exact ⟨⟨clear_consistent h hn' rfl, trivial⟩, rfl, rfl⟩
  · exact ⟨⟨h, trivial⟩, rfl, rfl⟩
  · exact claimMonero_follows h hn

end Claim

theorem setNextExpectedEvent_follows {e : EventType}
    (hn : m.swap.nextExpectedEvent = .keysReceived ∧ e = .xmrLocked ∨
      m.swap.nextExpectedEvent = .xmrLocked ∧ e = .ethClaimed) :
    (m.setNextExpectedEvent e).Follows m.closed := by
  have hp : ¬(m.swap.nextExpectedEvent = .none ∨ e = m.swap.nextExpectedEvent ∨
      e.getStatus = .unknown) := by
    rcases hn with ⟨hn, he⟩ | ⟨hn, he⟩ <;> simp [hn, he, EventType.getStatus]
  have hn' : m.swap.nextExpectedEvent ≠ .none := fun h => hp (.inl h)
  simp only [setNextExpectedEvent, if_neg hp]
  refine ⟨⟨⟨?_, ?_, by simp [h.unclaimed hn']⟩, trivial⟩, rfl, rfl⟩
  all_goals rcases hn with ⟨_, he⟩ | ⟨_, he⟩ <;> simp [he, EventType.getStatus, Status.isOngoing]

section Keys

variable (hn : m.swap.nextExpectedEvent = .keysReceived)
include hn

theorem keysReceivedFailed_follows : m.keysReceivedFailed.Follows m.closed := by
  unfold keysReceivedFailed
  split
  case isTrue  => exact writingSwap_follows <| setNextExpectedEvent_follows h (.inl ⟨hn, rfl⟩)
  case isFalse => exact ⟨⟨h, trivial⟩, rfl, rfl⟩

theorem messageSent_follows : (m.messageSent ok).Follows m.closed := by
  unfold messageSent
  split
  case isTrue  => exact setNextExpectedEvent_follows h (.inl ⟨hn, rfl⟩)
  case isFalse => exact keysReceivedFailed_follows h hn

theorem keysChecked_continues {msg : SendKeysMessage} {calls : KeysCalls}
    (hc : m.control = .checkKeys msg) :
    m.Continues (.keysChecked calls) (m.keysChecked msg calls) ∨
      m.Derefs b (.keysChecked calls) := by
  have hk : (checkKeys calls msg m.swap).snd.progress = m.swap.progress := checkKeys_keeps m.swap
  unfold keysChecked
  split
  all_goals
    rename_i s hr
    rw [hr] at hk
    have hs := h.congr hk
    have hn : s.nextExpectedEvent = .keysReceived := hn ▸ congrArg Prod.snd hk
  case h_1 => exact .inl ⟨⟨hs, hn⟩, by simp [weight, isLocking, startsT1, hc], .inl⟩
  case h_2 =>
    split
    case isTrue hp => exact .inr (by simp only [Derefs, hc]; exact ⟨_, s, hr, hp⟩)
    case isFalse   =>
      have hf : (keysReceivedFailed { m with swap := s }).Follows m.closed :=
        keysReceivedFailed_follows hs hn
      exact .inl hf.continues

theorem newSwapped_follows {receipt : Option Receipt} {id : Bytes32} {nonce : ℤ} {put : Bool}
    (hc : m.control = .newSwap) :
    (m.newSwapped b receipt id nonce put).Follows m.closed ∨
      m.Derefs b (.newSwapped receipt id nonce put) := by
  unfold newSwapped
  split
  case h_1 => exact .inl (keysReceivedFailed_follows h hn)
  case h_2 receipt =>
    have hk : (recordSwap b nonce put receipt m.swap).snd.progress = m.swap.progress :=
      recordSwap_keeps m.swap
    dsimp only [newSwapMined]
    split
    all_goals
      rename_i s hr
      rw [hr] at hk
      have hs := h.congr hk
      have hn : s.nextExpectedEvent = .keysReceived := hn ▸ congrArg Prod.snd hk
    case h_1 => exact .inl ⟨⟨hs, hn⟩, rfl, rfl⟩
    case h_2 =>
      split
      case isTrue hp => exact .inr (by simp only [Derefs, hc]; exact ⟨_, s, hr, hp⟩)
      case isFalse   =>
        exact .inl <| keysReceivedFailed_follows hs hn

end Keys

section XMRLocked

variable (hn : m.swap.nextExpectedEvent = .xmrLocked)
include hn

theorem handleNotifyXMRLock_continues (hc : m.control = .runHandleEvents)
    (hx : m.xmrLockedClosed = false) : m.Continues (.event .xmrLocked) m.handleNotifyXMRLock := by
  simp only [handleNotifyXMRLock, hx, Bool.false_eq_true, if_false]
  exact ⟨⟨h, hn⟩, by simp [weight, Input.weight, Event.weight, isLocking, startsT1, hc], .inl⟩

theorem readyStageRead_follows : (m.readyStageRead ok).Follows m.closed := by
  have he : (m.setNextExpectedEvent .ethClaimed).Follows m.closed :=
    setNextExpectedEvent_follows h (.inr ⟨hn, rfl⟩)
  unfold readyStageRead
  repeat' split
  · exact ⟨⟨h, trivial⟩, rfl, rfl⟩
  · exact ⟨⟨h, hn⟩, rfl, rfl⟩
  · exact he
  · exact he
  · exact ⟨⟨h, trivial⟩, rfl, rfl⟩

theorem readySent_follows (hs : ok → m.swap.contractSwap ≠ none) :
    (m.readySent b ok text).Follows m.closed := by
  unfold readySent
  split
  case h_1 hc =>
    have hf : ok = false := by by_contra ho; exact hs (by simpa using ho) hc
    simp only [hf, Bool.false_eq_true, if_false]
    exact ⟨⟨h, trivial⟩, rfl, rfl⟩
  case h_2 =>
    dsimp only
    repeat' split
    · refine setNextExpectedEvent_follows ?_ (.inr ⟨hn, rfl⟩)
      exact h
    · exact setNextExpectedEvent_follows h (.inr ⟨hn, rfl⟩)
    · exact ⟨⟨h, trivial⟩, rfl, rfl⟩

end XMRLocked

section Refund

variable (hn : m.swap.nextExpectedEvent = .xmrLocked ∨ m.swap.nextExpectedEvent = .ethClaimed)

include hn in
theorem waitOrRefund_follows {ts : Time} : (m.waitOrRefund ts).Follows m.closed := by
  unfold waitOrRefund
  split <;> exact ⟨⟨h, hn⟩, rfl, rfl⟩

include hn in
theorem refundTimestamp_follows {ts : Option Time} :
    (m.refundTimestamp isReady ts).Follows m.closed := by
  unfold refundTimestamp
  repeat' split
  · exact ⟨⟨h, trivial⟩, rfl, rfl⟩
  · exact ⟨⟨h, hn⟩, rfl, rfl⟩
  · exact waitOrRefund_follows h hn

include hn in
theorem refundStageRead_follows : (m.refundStageRead ok).Follows m.closed := by
  unfold refundStageRead
  repeat' split
  · exact ⟨⟨h, trivial⟩, rfl, rfl⟩
  · exact ⟨⟨h, trivial⟩, rfl, rfl⟩
  · exact tryClaim_follows h hn
  · exact ⟨⟨h, hn⟩, rfl, rfl⟩
  · exact ⟨⟨h, hn⟩, rfl, rfl⟩

include hn in
theorem waited_follows : (m.waited ok).Follows m.closed := by
  unfold waited
  split
  case isTrue  => exact ⟨⟨h, hn⟩, rfl, rfl⟩
  case isFalse => exact ⟨⟨h, trivial⟩, rfl, rfl⟩

theorem refunded_follows {site : RefundSite} {stages : Bytes32 → Stage}
    (hn : m.swap.nextExpectedEvent ≠ .none) :
    (afterRefund { m.clearNextExpectedEvent .completedRefund with stages := stages } site
      .refunded).Follows m.closed := by
  have hr : Consistent (m.clearNextExpectedEvent .completedRefund).swap m.claimedClosed :=
    clear_consistent h hn rfl
  cases site
  case shouldRefund => exact exit_follows hr
  all_goals exact ⟨⟨hr, trivial⟩, rfl, rfl⟩

theorem afterRefund_follows {site : RefundSite} {r : RefundResult} (hr : r ≠ .refunded)
    (hc : m.control = .refund site) (hn : m.Next) : (m.afterRefund site r).Follows m.closed := by
  cases site
  case shouldRefund => exact exit_follows h
  all_goals
    simp only [Next, hc] at hn
    cases r
    case refunded => contradiction
  case early.swapCompleted => exact waitOrRefund_follows h hn
  case early.failed        => exact waitOrRefund_follows h hn
  case final.swapCompleted => exact tryClaim_follows h hn
  case final.failed        => exact ⟨⟨h, trivial⟩, rfl, rfl⟩

theorem refundSent_follows {site : RefundSite} (hs : ok → m.swap.contractSwap ≠ none)
    (hc : m.control = .refund site) (hn : m.Next) :
    (m.refundSent b site ok text).Follows m.closed := by
  have hn' : m.swap.nextExpectedEvent ≠ .none := by
    cases site <;> simp only [Next, hc] at hn
    case shouldRefund => exact hn
    all_goals cases hn <;> simp_all
  unfold refundSent
  split
  case h_1 hw =>
    have hf : ok = false := by by_contra ho; exact hs (by simpa using ho) hw
    simp only [hf, Bool.false_eq_true, if_false]
    exact afterRefund_follows h (by simp) hc hn
  case h_2 sw _ =>
    unfold refund
    dsimp only
    split
    case isTrue  => exact refunded_follows h hn'
    case isFalse =>
      split
      · exact afterRefund_follows h (by simp) hc hn
      · exact afterRefund_follows h (by simp) hc hn

end Refund

variable {e : Event}

theorem handleEventShouldRefund_follows : m.handleEventShouldRefund.Follows m.closed := by
  unfold handleEventShouldRefund
  split
  case isTrue ho => exact ⟨⟨h, h.status.mp ho⟩, rfl, rfl⟩
  case isFalse   => exact exit_follows h

theorem handleEventWaiting_follows (hc : m.control = .waitT2)
    (hn : m.swap.nextExpectedEvent = .xmrLocked ∨ m.swap.nextExpectedEvent = .ethClaimed)
    (hk : ∀ msg, e ≠ .keysReceived msg) (hx : e ≠ .xmrLocked) :
    (m.handleEventWaiting e).Follows m.closed := by
  cases e
  case keysReceived msg => exact absurd rfl (hk msg)
  case xmrLocked        => contradiction
  case ethClaimed       => exact tryClaim_follows h hn
  case shouldRefund     => exact ⟨⟨h, hn⟩, rfl, rfl⟩
  case exit             =>
    exact ⟨⟨h, by simpa [handleEventWaiting, Next, hc] using hn⟩, rfl,
      by simp [handleEventWaiting, isLocking, hc]⟩

theorem handleEvent_continues (hc : m.control = .runHandleEvents)
    (hx : e = .xmrLocked → m.xmrLockedClosed = false) :
    m.Continues (.event e) (m.handleEvent e) := by
  have hm : m.Coherent := ⟨h, by simp [Next, hc]⟩
  cases e
  case shouldRefund => exact (handleEventShouldRefund_follows h).continues
  case exit         => exact (exit_follows h).continues
  all_goals
    simp only [handleEvent]
    split
    case isFalse => exact hm.continues
  case keysReceived.isTrue hn =>
    refine ⟨⟨h, hn⟩, ?_, .inl⟩
    simp [weight, Input.weight, Event.weight, isLocking, startsT1, hc, Nat.add_comm]
  case xmrLocked.isTrue hn    => exact handleNotifyXMRLock_continues h hn hc (hx rfl)
  case ethClaimed.isTrue hn   => exact (claimMonero_follows h (.inr hn)).continues

theorem completed_continues (hc : m.control = .completeOngoingSwap)
    (hd : ok → m.doneClosed = false) : m.Continues (.completed ok) (m.completed ok) := by
  unfold completed
  split
  case isTrue => exact Follows.continues ⟨⟨h, trivial⟩, rfl, rfl⟩
  case isFalse ho =>
    have ho : ok = true := by simpa using ho
    simp only [hd ho, Bool.false_eq_true, if_false]
    exact ⟨⟨h, trivial⟩, by simp [weight, isLocking, startsT1, hc], fun _ => .inr (by rw [ho])⟩

end Functions

-- The events that are expected when they arrive, and the channels that have not been closed yet.
structure Admits (m : Loop) (i : Input) : Prop where
  waiting   : m.control = .waitT2 → (∀ msg, i ≠ .event (.keysReceived msg)) ∧ i ≠ .event .xmrLocked
  xmrLocked : m.control = .runHandleEvents → i = .event .xmrLocked → m.xmrLockedClosed = false
  done      : m.control = .completeOngoingSwap → i = .completed true → m.doneClosed = false

theorem step_continues {i : Input} (h : m.Coherent) (ha : m.Admits i) :
    m.Continues i (m.step b i) ∨ m.Derefs b i := by
  have hm : ∀ i, m.Continues i m := fun _ => h.continues
  obtain ⟨h, hn⟩ := h
  have hs := step_step b m i
  generalize m.step b i = m' at hs ⊢
  cases hs
  case idle         => exact .inl (hm _)
  case newSwapMined => exact .inl ⟨⟨h, hn⟩, (hm _).weight, .inl⟩
  case stageMined   =>
    unfold stageMined
    split <;> exact .inl ⟨⟨h, hn⟩, (hm _).weight, .inl⟩
  case ctxDone      => exact .inl <| Follows.continues ⟨⟨h, trivial⟩, rfl, rfl⟩
  all_goals
    rename_i hc
    simp only [Next, hc] at hn
  case event        =>
    exact .inl <| handleEvent_continues h hc fun he => ha.xmrLocked hc (congrArg _ he)
  case eventWaiting =>
    obtain ⟨hk, hx⟩ := ha.waiting hc
    refine .inl <| Follows.continues <| handleEventWaiting_follows h hc hn ?_ ?_
    · exact fun msg he => hk msg (congrArg _ he)
    · exact fun he => hx (congrArg _ he)
  case keysChecked     => exact keysChecked_continues h hn hc
  case newSwapped      => exact (newSwapped_follows h hn hc).imp_left (·.continues)
  case messageSent     => exact .inl (messageSent_follows h hn).continues
  case swapWritten     => exact .inl (swapWritten_follows h).continues
  case readyStageRead  => exact .inl (readyStageRead_follows h hn).continues
  case refundStageRead => exact .inl (refundStageRead_follows h hn).continues
  case sweeping        => exact .inl (sweeping_follows h hn).continues
  case swept           => exact .inl (swept_follows h hn).continues
  case refundTimestamp => exact .inl (refundTimestamp_follows h hn).continues
  case waited          => exact .inl (waited_follows h hn).continues
  case filtered        => exact .inl (filtered_follows h hn).continues
  case completed       =>
    exact .inl (completed_continues h hc fun ho => ha.done hc (by rw [ho]))
  case readySent ok text =>
    by_cases hs : ok → m.swap.contractSwap ≠ none
    case pos => exact .inl (readySent_follows h hn hs).continues
    case neg => simp_all [Derefs]
  case refundSent site ok text =>
    by_cases hs : ok → m.swap.contractSwap ≠ none
    case pos =>
      exact .inl (refundSent_follows h hs hc (by simpa only [Next, hc] using hn)).continues
    case neg => simp_all [Derefs]

theorem Derefs.panicked {i : Input} (h : m.Derefs b i) : (m.step b i).control = .panicked := by
  unfold Derefs at h
  split at h
  case h_1 hc =>
    obtain ⟨e, s, hr, hp⟩ := h
    simp [step, hc, keysChecked, hr, hp, panic]
  case h_2 hc =>
    obtain ⟨e, s, hr, hp⟩ := h
    simp [step, hc, newSwapped, newSwapMined, hr, hp, panic]
  case h_3 hc => simp [step, hc, readySent, h, panic]
  case h_4 hc => simp [step, hc, refundSent, h, panic]
  case h_5    => contradiction

-- The keys of the maker have not been received.
def Early (m : Loop) : Prop :=
  (m.swap.nextExpectedEvent = .keysReceived ∨ m.swap.nextExpectedEvent = .none) ∧
  (m.control = .runHandleEvents ∨ m.control = .refund .shouldRefund ∨
    m.control = .completeOngoingSwap ∨ m.control = .stopped ∨ m.control = .panicked)

theorem exit_early
    (h : m.swap.nextExpectedEvent = .keysReceived ∨ m.swap.nextExpectedEvent = .none) :
    m.exit.Early := by
  cases h
  case inl h => simp [exit, h, Early, clearNextExpectedEvent]
  case inr h => simp [exit, h, Early]

theorem refundSent_early
    (h : m.swap.nextExpectedEvent = .keysReceived ∨ m.swap.nextExpectedEvent = .none) :
    (m.refundSent b .shouldRefund ok text).Early := by
  unfold refundSent
  split
  case h_1 =>
    split
    · exact ⟨h, by simp [panic]⟩
    · exact exit_early h
  case h_2 =>
    unfold refund
    dsimp only
    split
    · exact exit_early (.inr rfl)
    · split <;> exact exit_early h

theorem handleEvent_early {e : Event} (h : m.Early)
    (hk : ∀ msg, e ≠ .keysReceived msg) : (m.handleEvent e).Early := by
  have hn := h.left
  cases e
  case keysReceived msg => exact absurd rfl (hk msg)
  case xmrLocked        => cases hn <;> simp_all [handleEvent]
  case ethClaimed       => cases hn <;> simp_all [handleEvent]
  case exit             => exact exit_early hn
  case shouldRefund     =>
    simp only [handleEvent, handleEventShouldRefund]
    split
    · exact ⟨hn, by simp⟩
    · exact exit_early hn

theorem step_early {i : Input} (h : m.Early) (hk : ∀ msg, i ≠ .event (.keysReceived msg)) :
    (m.step b i).Early := by
  obtain ⟨hn, hc⟩ := h
  have hs := step_step b m i
  generalize m.step b i = m' at hs ⊢
  cases hs
  case idle         => exact ⟨hn, hc⟩
  case newSwapMined => exact ⟨hn, hc⟩
  case stageMined   =>
    unfold stageMined
    split <;> exact ⟨hn, hc⟩
  case ctxDone      => exact ⟨hn, by simp⟩
  case event        => exact handleEvent_early ⟨hn, hc⟩ fun msg he => hk msg (congrArg _ he)
  case completed    =>
    unfold completed
    repeat' split
    · exact ⟨hn, by simp⟩
    · exact ⟨hn, by simp [panic]⟩
    · exact ⟨hn, by simp⟩
  case refundSent hs =>
    obtain rfl : _ = RefundSite.shouldRefund := by simpa [hs] using hc
    exact refundSent_early hn
  all_goals simp_all

theorem step_halted {i : Input}
    (h : m.control = .stopped ∨ m.control = .panicked ∨ m.control = .blocked) :
    (m.step b i).control = m.control := by
  cases i
  case stageMined => exact stageMined_control
  all_goals rcases h with h | h | h <;> simp_all [step, newSwapMined]

end Loop

namespace RunningSwap

variable {m : RunningSwap} {i : RunningInput}

def Derefs (b : Backend) (m : RunningSwap) : RunningInput → Prop
  | .loop i => m.loop.Derefs b i
  | _       => False

-- The Monero is not found to be locked while `tryRefund` waits for `t2`, and the offer is not taken
-- again before the loop has stopped.
def Careful (m : RunningSwap) : RunningInput → Prop
  | .xmrLocked => m.loop.control ≠ .waitT2
  | .swapAdded => m.loop.control = .stopped
  | _          => True

instance (m : RunningSwap) (i : RunningInput) : Decidable (m.Careful i) := by
  unfold Careful
  split <;> infer_instance

structure Inv (m : RunningSwap) : Prop where
  loop   : m.loop.Coherent
  weight : m.stream.toNat + m.lockChecks + m.loop.weight ≤ 1
  stream : m.stream → m.loop.Early
  done   : m.loop.doneClosed → m.ongoing → m.loop.control = .stopped

-- The state after a step is as it should be, or a function that the loop has called panics.
def Goes (b : Backend) (m : RunningSwap) (i : RunningInput) (m' : RunningSwap) : Prop :=
  m'.Inv ∨ m'.loop.control = .panicked ∧ m.Derefs b i

theorem advance_weight {i : Input} (h : m.loop.Continues i (m.loop.step b i)) :
    (m.advance b i).lockChecks + (m.advance b i).loop.weight ≤
      m.lockChecks + m.loop.weight + i.weight := by
  have hw := h.weight
  simp only [advance]
  split
  case isTrue hs  => simp only [hs, Bool.toNat_true] at hw; omega
  case isFalse hs => omega

theorem advance_inv {i : Input} (h : m.Inv) (ha : m.loop.Admits i)
    (hw : m.stream.toNat + m.lockChecks + m.loop.weight + i.weight ≤ 1)
    (hk : m.stream → ∀ msg, i ≠ .event (.keysReceived msg)) (hc : i ≠ .completed true) :
    (m.advance b i).Inv ∨ (m.advance b i).loop.control = .panicked ∧ m.loop.Derefs b i := by
  cases Loop.step_continues (b := b) h.loop ha
  case inr hd => exact .inr ⟨hd.panicked, hd⟩
  case inl hs =>
    refine .inl ⟨hs.coherent, ?_, fun ht => Loop.step_early (h.stream ht) (hk ht), ?_⟩
    · have hl := advance_weight hs
      show m.stream.toNat + _ + _ ≤ 1
      omega
    · intro hd ho
      have hs : m.loop.control = .stopped := h.done ((hs.done hd).resolve_right hc) ho
      exact (Loop.step_halted (.inl hs)).trans hs

theorem keysReceived_inv {msg : SendKeysMessage} (h : m.Inv) (hs : m.stream) :
    (advance b { m with stream := false } (.event <| .keysReceived msg)).Inv := by
  have hw := h.weight
  simp only [hs, Bool.toNat_true] at hw
  have hi : Inv { m with stream := false } := by
    refine ⟨h.loop, ?_, by simp, h.done⟩
    simp only [Bool.toNat_false]
    omega
  have he : m.loop.control ≠ .waitT2 := by
    have hc := (h.stream hs).right
    intro he
    simp [he] at hc
  refine (advance_inv hi ⟨fun hc => absurd hc he, by simp, by simp⟩ ?_ (by simp)
    (by simp)).resolve_right ?_
  · simp only [Bool.toNat_false, Input.weight, Event.weight]
    omega
  · rintro ⟨_, hd⟩
    cases hc : m.loop.control <;> simp [Loop.Derefs, hc] at hd

theorem xmrLocked_inv (h : m.Inv) (hl : 0 < m.lockChecks) (hc : m.loop.control ≠ .waitT2) :
    (advance b { m with lockChecks := m.lockChecks - 1 } (.event .xmrLocked)).Inv := by
  have hw := h.weight
  have hi : Inv { m with lockChecks := m.lockChecks - 1 } :=
    ⟨h.loop, by dsimp only; omega, h.stream, h.done⟩
  have hx : m.loop.xmrLockedClosed = false := by
    by_contra hx
    simp only [Loop.weight, Bool.eq_true_of_not_eq_false hx, Bool.toNat_true] at hw
    omega
  refine (advance_inv hi ⟨fun he => absurd he hc, fun _ _ => hx, by simp⟩ ?_ (by simp)
    (by simp)).resolve_right ?_
  · simp only [Input.weight, Event.weight]
    omega
  · rintro ⟨_, hd⟩
    cases hc : m.loop.control <;> simp [Loop.Derefs, hc] at hd

theorem completed_inv {put : Bool} (h : m.Inv) : (m.completeOngoingSwap b put).Inv := by
  unfold completeOngoingSwap
  split
  case isFalse => exact h
  case isTrue hc =>
    have hd : m.ongoing = true → m.loop.doneClosed = false := by
      intro ho
      by_contra hd
      simp [h.done (by simpa using hd) ho] at hc
    have ha : m.loop.Admits (.completed <| m.ongoing && put) := by
      refine ⟨by simp [hc], by simp, fun _ he => hd ?_⟩
      simp only [Input.completed.injEq, Bool.and_eq_true] at he
      exact he.left
    cases Loop.step_continues (b := b) h.loop ha
    case inr hf => simp [Loop.Derefs, hc] at hf
    case inl hs =>
      refine ⟨hs.coherent, ?_, fun ht => Loop.step_early (h.stream ht) (by simp), by simp⟩
      have hl := advance_weight hs
      have hw := h.weight
      simp only [Input.weight] at hl
      show m.stream.toNat + (m.advance b _).lockChecks + (m.advance b _).loop.weight ≤ 1
      omega

theorem swapAdded_inv (h : m.Inv) (hc : m.loop.control = .stopped) :
    Inv { m with ongoing := true } :=
  ⟨h.loop, h.weight, h.stream, fun _ _ => hc⟩

theorem step_inv (h : m.Inv) (hc : m.Careful i) : m.Goes b i (m.step b i) := by
  unfold step
  split
  case h_1 => exact .inl h
  case h_2 => exact .inl h
  case h_3 => exact .inl h
  case h_4 i hk hx hd =>
    have hw : i.weight = 0 := by
      cases i
      case event e => cases e <;> simp_all [Input.weight, Event.weight]
      all_goals rfl
    refine advance_inv h
      ⟨fun _ => ⟨hk, hx⟩, fun _ he => absurd he hx, fun _ he => absurd he (hd true)⟩
      ?_ (fun _ => hk) (hd true)
    rw [hw]
    exact h.weight
  case h_5 =>
    split
    case isTrue hs => exact .inl <| keysReceived_inv h hs.left
    case isFalse   => exact .inl h
  case h_6 =>
    split
    case isTrue hs => exact .inl <| xmrLocked_inv h hs.left hc
    case isFalse   => exact .inl h
  case h_7 => exact .inl <| completed_inv h
  case h_8 =>
    split
    case isTrue  => exact .inl <| swapAdded_inv h hc
    case isFalse => exact .inl h

theorem step_panicked (h : m.loop.control = .panicked) :
    (m.step b i).loop.control = .panicked := by
  have ha (i : Input) : (m.advance b i).loop.control = .panicked :=
    (Loop.step_halted (.inr <| .inl h)).trans h
  unfold step
  split
  case h_4 => exact ha _
  case h_7 => simp [completeOngoingSwap, h]
  case h_8 => split <;> exact h
  all_goals simp [Loop.receives, h]

-- A swap is started, or it is found in the database after a restart.
inductive Initial (b : Backend) : RunningSwap → Prop
  | started {calls : StartCalls} {offerID : Bytes32} {noTransferBack : Bool}
    {providedAmount : Coins.EthAssetAmount} {exchangeRate : Decimal} {ethAsset : Address}
    {s : SwapState} (stages : Bytes32 → Stage)
    (h : newSwapStateFromStart calls offerID noTransferBack providedAmount exchangeRate ethAsset =
      .ok s) : Initial b (start s stages)
  | recovered {calls : StartCalls} {info : Info} {noTransferBack : Bool}
    {ethSwapInfo : EthereumSwapInfo} {s : SwapState} (stages : Bytes32 → Stage)
    (h : newSwapStateFromOngoing b calls info noTransferBack ethSwapInfo = .ok s) :
    Initial b (restart s stages)

theorem Initial.inv (h : Initial b m) : m.Inv := by
  cases h
  case started s stages h =>
    have hn := (newSwapStateFromStart_ok h).right
    refine ⟨⟨⟨.inl hn.left, ?_, by simp [start, Loop.start]⟩, trivial⟩, ?_, ?_, ?_⟩
    · simp [start, Loop.start, hn, Status.isOngoing]
    · simp [start, Loop.start, Loop.weight, Loop.isLocking]
    · exact fun _ => ⟨.inl hn.left, .inl rfl⟩
    · simp [start, Loop.start]
  case recovered s stages h =>
    obtain ⟨_, _, hn, ho⟩ := Loop.newSwapStateFromOngoing_ok h
    refine ⟨⟨⟨.inr <| hn.imp_right .inl, ?_, by simp [restart, Loop.start]⟩, trivial⟩, ?_, ?_, ?_⟩
    · cases hn <;> simp_all [restart, Loop.start]
    · simp only [restart, Loop.start, Loop.weight, Loop.isLocking]
      split <;> simp
    · simp [restart]
    · simp [restart, Loop.start]

-- The loop itself panics, or it closes a channel for the second time.
def Panics (b : Backend) (m : RunningSwap) (i : RunningInput) : Prop :=
  m.loop.control ≠ .panicked ∧ (m.step b i).loop.control = .panicked ∧ ¬m.Derefs b i

theorem never_panics {is : List RunningInput} (h₀ : Initial b m) (h : Along (step b) Careful is m) :
    Along (step b) (fun m i => ¬m.Panics b i) is m := by
  let I (m : RunningSwap) : Prop := m.Inv ∨ m.loop.control = .panicked
  refine h.of_invariant (I := I) ?_ ?_ (.inl h₀.inv)
  · intro m i hi hc
    cases hi
    case inl hi => exact (step_inv hi hc).imp_right And.left
    case inr hp => exact .inr (step_panicked hp)
  · rintro m i hi hc ⟨hn, hp, hd⟩
    obtain hi | ⟨_, hd'⟩ : m.Goes b i (m.step b i) := step_inv (hi.resolve_right hn) hc
    · have hn := hi.loop.right
      simp [Loop.Next, hp] at hn
    · exact hd hd'

end RunningSwap

end XMRTaker

namespace XMRTaker.Sample

open XMRMaker.Sample (swap makerKey)

def running : RunningSwap :=
  .start state fun _ => .invalid

theorem running_initial : RunningSwap.Initial backend running :=
  .started _ newSwapStateFromStart_state

def lockingRun : List RunningInput :=
  .keysReceived ⟨some { coeff := 1 }, true, swap.claimer, makerKey⟩ ::
    (locking.drop 1).map .loop

-- The maker locks the Monero.
def readyRun : List RunningInput :=
  lockingRun ++ [.xmrLocked, .loop <| .stageRead true, .loop <| .readySent true false]

-- The swap is cancelled before `t1`, and then its offer is taken again.
def retakenRun : List RunningInput :=
  lockingRun ++ [.loop <| .event .exit, .loop <| .stageRead true,
    .loop <| .timestamp <| some <| unix 1700000100, .loop <| .refundSent true false,
    .completed true, .swapAdded, .loop <| .event .exit]

-- The same, but the transaction fails. The goroutine that checks for the Monero is still there.
def refundingRun : List RunningInput :=
  lockingRun ++ [.loop <| .event .exit, .loop <| .stageRead true,
    .loop <| .timestamp <| some <| unix 1700000100, .loop <| .refundSent false false]

end XMRTaker.Sample

namespace XMRTaker.RunningSwap

open XMRTaker.Sample

theorem never_panics_ready :
    let m := run (step backend) readyRun running
    m.loop.swap.nextExpectedEvent = .ethClaimed ∧
    Along (step backend) (fun m i => ¬m.Panics backend i) readyRun running := by
  have h : Along (step backend) Careful readyRun running := by
    decide +kernel
  exact ⟨by decide +kernel, never_panics running_initial h⟩

theorem xmrLocked_panics :
    (run (step backend) refundingRun running).Panics backend .xmrLocked ∧
    (run (step backend) retakenRun running).Panics backend (.completed true) :=
  ⟨⟨by decide +kernel, by decide +kernel, not_false⟩, by decide +kernel, by decide +kernel,
    not_false⟩

end XMRTaker.RunningSwap
