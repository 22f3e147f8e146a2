import AtomicSwap.Protocol.XMRMaker.Answers
import AtomicSwap.Protocol.XMRMaker.Theorems.Panics
import AtomicSwap.Protocol.XMRTaker.Answers
import AtomicSwap.Protocol.XMRTaker.Theorems.Panics

open Ethereum SwapCreator Machine

section Maker

namespace XMRMaker

variable {b : Backend} {event : Option Event} {values n : ℕ}

-- How many values may have been sent to the channel of an event while it is handled. The handlers
-- of two events send one more when they return.
def Control.Allows (c : Control) (event : Option Event) (values : ℕ) : Prop :=
  match c with
  | .runHandleEvents | .panicked | .stopped => values ≤ 1 ∧ (event = none → values = 0)
  | .claimFunds 0                           => values = 0 ∧ event ≠ none
  | .checkETHLocked _ | .prepareLock _ | .transfer | .reclaimMonero 0 | .sweepAll 0 =>
    values = 0 ∧ event ≠ none ∧ event ≠ some .contractReady ∧ event ≠ some .exit
  | _                                       =>
    values ≤ 1 ∧ event ≠ none ∧ (event = some .contractReady ∨ event = some .exit → values = 0)

theorem exit_allows {m : Loop} (hv : values ≤ 1) (he : event ≠ none)
    (hx : event = some .contractReady ∨ event = some .exit → values = 0) :
    (m.exit n).control.Allows event values := by
  unfold Loop.exit
  split <;> exact ⟨hv, he, hx⟩

theorem returns_allows {m : Loop} (hv : values ≤ 1) (he : event ≠ none)
    (hx : 0 < n → event = some .contractReady ∨ event = some .exit → values = 0) :
    (m.returns n).control.Allows event values := by
  cases n
  case zero => exact ⟨hv, fun h => absurd h he⟩
  case succ => exact ⟨hv, he, hx (by simp)⟩

theorem handleEventContractReady_allows {m : Loop} (hv : values = 0) (he : event ≠ none) :
    (m.handleEventContractReady n).control.Allows event values := by
  unfold Loop.handleEventContractReady
  subst hv
  split
  case isTrue  => exact ⟨by simp, by simp⟩
  case isFalse =>
    cases n
    case zero => exact ⟨rfl, he⟩
    case succ => exact ⟨by simp, he, by simp⟩

namespace AnsweredLoop

variable {m : AnsweredLoop} {i : Input}

def Answered (m : AnsweredLoop) : Prop :=
  m.values ≤ 1 ∧ ∀ ch ∈ m.ended, ch.Answered

-- While `exit` waits, it receives an event that it handles.
def Careful (m : AnsweredLoop) (i : Input) : Prop :=
  match m.loop.control, i with
  | .exitWait _, .event e => e = .contractReady ∨ e = .ethRefunded
  | _,           _        => True

instance (m : AnsweredLoop) (i : Input) : Decidable (m.Careful i) :=
  decidable_of_iff
    ((match m.loop.control, i with
      | .exitWait _, .event e => decide (e = .contractReady ∨ e = .ethRefunded)
      | _,           _        => true) = true) <| by
    unfold Careful
    cases m.loop.control <;> cases i <;> simp

structure Inv (m : AnsweredLoop) : Prop where
  allows : m.loop.control.Allows m.event m.values
  event  : m.loop.control = .runHandleEvents → m.event = none
  ended  : ∀ ch ∈ m.ended, ch.Answered

theorem handleEvent_allows {m : Loop} {e : Event} (hc : m.control = .runHandleEvents) :
    (m.handleEvent e).control.Allows (some e) (m.rejects e).toNat := by
  cases e <;> simp only [Loop.handleEvent, Loop.rejects]
  case ethLocked msg =>
    split
    case isTrue hn  => simp [Control.Allows, hn]
    case isFalse hn => simp [Control.Allows, hc, hn]
  case contractReady =>
    split
    case isTrue hn  => exact handleEventContractReady_allows (by simp [hn]) (by simp)
    case isFalse hn => simp [Control.Allows, hc, hn]
  case ethRefunded => simp [Control.Allows, Loop.handleEventETHRefunded]
  case exit        => exact exit_allows (by simp) (by simp) (by simp)

theorem resume_allows {α : Type} {m : Loop} {r : Except Error α × SwapState} {next : α → Control}
    (hn : ∀ a, (next a).Allows event 0) (he : event ≠ none) (hr : event ≠ some .contractReady)
    (hx : event ≠ some .exit) :
    (m.resume r next).control.Allows event (returnsError r.fst).toNat := by
  unfold Loop.resume
  split
  case h_1 a _ => exact hn a
  case h_2 e _ =>
    split
    case isTrue hp => simp [Control.Allows, returnsError, hp]
    case isFalse   => exact exit_allows (Bool.toNat_le _) he (by simp [hr, hx])

section Handlers

variable {l : Loop} {ok ready written : Bool}

theorem handleEventInExit_allows {e : Event} (h : (Control.exitWait n).Allows event values) :
    (l.handleEventInExit n e).control.Allows event values := by
  obtain ⟨hv, he, hx⟩ := h
  cases e <;> simp only [Loop.handleEventInExit]
  case contractReady =>
    unfold Loop.handleEventContractReady
    split
    case isTrue  => exact ⟨hv, fun h => absurd h he⟩
    case isFalse => exact ⟨hv, he, hx⟩
  all_goals exact ⟨hv, he, hx⟩

theorem transferred_allows (h : Control.transfer.Allows event values) :
    (l.transferred ok).control.Allows event (values + (!ok).toNat) := by
  obtain ⟨hv, he, hr, hx⟩ := h
  subst hv
  unfold Loop.transferred
  split
  case isTrue ho  => simp [Control.Allows, ho]
  case isFalse ho => exact exit_allows (by simp [ho]) he (by simp [hr, hx])

theorem claimed_allows (h : (Control.claimFunds n).Allows event values) :
    (l.claimed n ok).control.Allows event values := by
  have hv : values ≤ 1 := by cases n <;> simp_all [Control.Allows]
  have he : event ≠ none := by cases n <;> simp_all [Control.Allows]
  have hx : event = some .contractReady ∨ event = some .exit → values = 0 := by
    cases n <;> simp_all [Control.Allows]
  unfold Loop.claimed
  split
  case isTrue  => exact returns_allows hv he fun _ => hx
  case isFalse => exact exit_allows hv he hx

theorem sweeping_zero_allows (h : (Control.reclaimMonero 0).Allows event values) :
    (l.sweeping 0 ready written).control.Allows event (values + (!ready || !written).toNat) := by
  obtain ⟨hv, he, hr, hx⟩ := h
  subst hv
  cases ready <;> cases written <;> simp_all [Loop.sweeping, Loop.returns, Control.Allows]

theorem sweeping_succ_allows (h : (Control.reclaimMonero (n + 1)).Allows event values) :
    (l.sweeping (n + 1) ready written).control.Allows event values := by
  unfold Loop.sweeping
  split
  case isTrue  => exact h
  case isFalse => split <;> exact h

theorem swept_zero_allows (h : (Control.sweepAll 0).Allows event values) :
    (l.swept 0 ok).control.Allows event (values + (!ok).toNat) := by
  obtain ⟨hv, he, hr, hx⟩ := h
  subst hv
  unfold Loop.swept
  split
  case isTrue ho  => simp_all [Loop.returns, Control.Allows]
  case isFalse ho => exact exit_allows (Nat.zero_add _ ▸ Bool.toNat_le _) he (by simp [hr, hx])

theorem swept_succ_allows (h : (Control.sweepAll (n + 1)).Allows event values) :
    (l.swept (n + 1) ok).control.Allows event values := by
  cases ok <;> simpa [Loop.swept, Loop.returns, Control.Allows] using h

theorem completed_allows (hv : values ≤ 1) (he : event ≠ none)
    (hx : 0 < n → event = some .contractReady ∨ event = some .exit → values = 0) :
    (l.completed n ok).control.Allows event values := by
  unfold Loop.completed
  split
  case isTrue  => exact returns_allows hv he hx
  case isFalse =>
    dsimp only
    split
    case isTrue  => exact ⟨hv, fun h => absurd h he⟩
    case isFalse => exact returns_allows hv he hx

end Handlers

theorem not_takes (h : m.loop.takes i = false) :
    m.loop.fails b i = false ∧ m.sendsExit i = false ∧ m.receive i = m := by
  refine ⟨?_, ?_, ?_⟩
  · unfold Loop.fails
    split <;> simp_all [Loop.takes]
  · unfold sendsExit
    split <;> simp_all [Loop.takes]
  · unfold receive
    split
    case h_1 => split <;> simp_all [Loop.takes]
    case h_2 => rfl

theorem step_allows (h : m.Inv) :
    (m.loop.step b i).control.Allows (m.receive i).event
      (m.values + (m.loop.fails b i).toNat + (m.sendsExit i).toNat) := by
  have ha := h.allows
  have hs := Loop.step_step b m.loop i
  generalize m.loop.step b i = l at hs ⊢
  cases hs
  case idle hi =>
    obtain ⟨hf, hx, hr⟩ := not_takes (b := b) hi
    simpa [hf, hx, hr] using ha
  case claimedLog log =>
    have hc : (m.loop.handleClaimedLogs log).control = m.loop.control := by
      unfold Loop.handleClaimedLogs
      split <;> rfl
    simpa [hc, Loop.fails, sendsExit, receive] using ha
  case ctxDone hc => simpa [Loop.fails, sendsExit, receive, Control.Allows, hc] using ha
  all_goals
    rename_i hc
    simp only [hc] at ha
    simp only [Loop.fails, sendsExit, receive, hc]
  case event =>
    have hv : m.values = 0 := ha.right (h.event hc)
    simpa [hv] using handleEvent_allows hc
  case eventInExit e => cases e <;> exact handleEventInExit_allows ha
  case checked =>
    obtain ⟨hv, he, hr, hx⟩ := ha
    have hn (a : Decimal) : (Control.prepareLock a).Allows m.event 0 := ⟨rfl, he, hr, hx⟩
    simp only [hv, Nat.zero_add, Bool.toNat_false, Nat.add_zero]
    exact resume_allows hn he hr hx
  case prepared =>
    obtain ⟨hv, he, hr, hx⟩ := ha
    have hn (_ : Unit) : Control.transfer.Allows m.event 0 := ⟨rfl, he, hr, hx⟩
    simp only [hv, Nat.zero_add, Bool.toNat_false, Nat.add_zero]
    exact resume_allows hn he hr hx
  case transferred => exact transferred_allows ha
  case claimed     => exact claimed_allows ha
  case sweeping n _ _ =>
    cases n
    case zero => exact sweeping_zero_allows ha
    case succ => exact sweeping_succ_allows ha
  case swept n _ =>
    cases n
    case zero => exact swept_zero_allows ha
    case succ => exact swept_succ_allows ha
  case completed n _ =>
    obtain ⟨hv, he, hx⟩ := ha
    cases n
    case zero =>
      refine completed_allows ?_ he (by simp)
      by_cases hs : m.event = some .contractReady ∨ m.event = some .exit
      · simp [hx hs, Bool.toNat_le]
      · have hs' : ¬(m.event = some .contractReady ∨ m.event = some .exit ∧ m.err) := by
          exact fun h => hs <| h.imp_right And.left
        simpa [hs'] using hv
    case succ => exact completed_allows hv he fun _ => hx

theorem close_inv (ha : m.loop.control.Allows m.event m.values)
    (hc : m.loop.control = .runHandleEvents) (he : ∀ ch ∈ m.ended, ch.Answered) : m.close.Inv := by
  simp only [Control.Allows, hc] at ha
  unfold close
  split
  case h_1 hn =>
    exact ⟨by simpa [Control.Allows, hc] using ha, fun _ => hn, he⟩
  case h_2 =>
    refine ⟨by simp [Control.Allows, hc], fun _ => rfl, ?_⟩
    simp only [List.mem_cons, forall_eq_or_imp]
    exact ⟨⟨ha.left, rfl⟩, he⟩

theorem step_inv (h : m.Inv) (hc : m.Careful i) : (m.step b i).Inv := by
  have ha := step_allows (b := b) (i := i) h
  have he : ∀ ch ∈ ((m.receive i).closeExits (m.loop.step b i)).ended, ch.Answered := by
    have hr : (m.receive i).ended = m.ended := by
      unfold receive
      split
      case h_1 e =>
        split
        case h_1 => rfl
        case h_2 hx => simp [Careful, hx] at hc
        case h_3 hx => simp [Careful, hx] at hc
        case h_4 => rfl
      case h_2 => rfl
    unfold closeExits
    split
    case isTrue =>
      simp only [hr, List.mem_cons, forall_eq_or_imp]
      exact ⟨⟨by simp, rfl⟩, h.ended⟩
    case isFalse => exact hr ▸ h.ended
  have hv : ((m.receive i).closeExits (m.loop.step b i)).event = (m.receive i).event := by
    unfold closeExits
    split <;> rfl
  unfold step
  dsimp only
  split
  case isTrue hc  => exact close_inv (hv ▸ ha) hc he
  case isFalse hc => exact ⟨hv ▸ ha, fun h => absurd h hc, he⟩

-- An event has got no answer.
def Unanswered (m : AnsweredLoop) : Prop :=
  ∃ ch ∈ m.ended, ¬ch.Answered

theorem Inv.answered (h : m.Inv) : m.Answered := by
  have ha := h.allows
  refine ⟨?_, h.ended⟩
  unfold Control.Allows at ha
  split at ha
  all_goals omega

theorem subset_receive : m.ended ⊆ (m.receive i).ended := by
  unfold receive
  split
  case h_1 => split <;> simp
  case h_2 => simp

theorem subset_step : (m.receive i).ended ⊆ (m.step b i).ended := by
  have hx : (m.receive i).ended ⊆ ((m.receive i).closeExits (m.loop.step b i)).ended := by
    unfold closeExits
    split <;> simp
  refine List.Subset.trans hx ?_
  unfold step close
  dsimp only
  split
  case isTrue  => split <;> simp
  case isFalse => simp

theorem Unanswered.step (h : m.Unanswered) : (m.step b i).Unanswered :=
  have ⟨ch, hm, ha⟩ := h
  ⟨ch, subset_step (subset_receive hm), ha⟩

end AnsweredLoop

end XMRMaker

end Maker

section Taker

namespace XMRTaker

variable {b : Backend} {event : Option Event} {values : ℕ}

-- The handlers of three events may still send a value, and that of an `EventExit` sends one when it
-- returns.
def Control.Allows (c : Control) (event : Option Event) (values : ℕ) : Prop :=
  match c with
  | .blocked                                => False
  | .runHandleEvents | .panicked | .stopped => values ≤ 1 ∧ (event = none → values = 0)
  | .writeSwapToDB                          => values ≤ 1 ∧ event ≠ none
  | .checkKeys _ | .newSwap | .sendSwapMessage | .readyStage | .setReady =>
    values = 0 ∧ event ≠ none
  | .claimMonero false | .sweepAll false | .refund .shouldRefund =>
    values = 0 ∧ event ≠ none ∧ event ≠ some .exit
  | _                                       =>
    values ≤ 1 ∧ event ≠ none ∧ (event = some .exit → values = 0)

namespace Loop

variable {m : Loop} {ok text ready written inExit : Bool}

-- A loop that panics does not have to be in order.
theorem step_coherent {i : Input} (h : m.Coherent) (hw : ∀ e, m.control = .waitT2 → i ≠ .event e) :
    (m.step b i).Coherent ∨ (m.step b i).control = .panicked := by
  by_cases hd : m.control = .completeOngoingSwap ∧ i = .completed true ∧ m.doneClosed
  · obtain ⟨hc, rfl, hd⟩ := hd
    exact .inr (by simp [step, hc, completed, hd, panic])
  by_cases hx : m.control = .runHandleEvents ∧ i = .event .xmrLocked ∧ m.xmrLockedClosed
  · obtain ⟨hc, rfl, hx⟩ := hx
    simp only [step, hc, handleEvent, handleNotifyXMRLock, hx, if_true]
    split
    case isTrue  => exact .inr rfl
    case isFalse => exact .inl h
  have ha : m.Admits i := by
    refine ⟨fun hc => ⟨fun msg => hw _ hc, hw _ hc⟩, fun hc he => ?_, fun hc he => ?_⟩
    · simpa using fun h => hx ⟨hc, he, h⟩
    · simpa using fun h => hd ⟨hc, he, h⟩
  exact (step_continues h ha).imp Continues.coherent Derefs.panicked

section Exit

variable (hv : values ≤ 1) (he : event ≠ none) (hx : event = some .exit → values = 0)
include hv he hx

theorem exit_allows : m.exit.control.Allows event values := by
  unfold exit
  split <;> exact ⟨hv, he, hx⟩

theorem claimMoneroFailed_allows : (m.claimMoneroFailed inExit).control.Allows event values := by
  unfold claimMoneroFailed
  split
  case isTrue  => exact ⟨hv, he, hx⟩
  case isFalse => exact exit_allows hv he hx

theorem moneroClaimed_allows : (m.moneroClaimed inExit).control.Allows event values := by
  unfold moneroClaimed
  split
  case isTrue  => exact ⟨hv, fun h => absurd h he⟩
  case isFalse =>
    dsimp only
    split
    case isTrue  => exact ⟨hv, he, hx⟩
    case isFalse => exact exit_allows hv he hx

theorem sweeping_allows (ha : ready → written → (Control.sweepAll inExit).Allows event values) :
    (m.sweeping inExit ready written).control.Allows event values := by
  unfold sweeping
  split
  case isTrue     => exact claimMoneroFailed_allows hv he hx
  case isFalse hr =>
    split
    case isTrue  => exact moneroClaimed_allows hv he hx
    case isFalse =>
      split
      case isTrue     => exact claimMoneroFailed_allows hv he hx
      case isFalse hw => exact ha (by simpa using hr) (by simpa using hw)

theorem swept_allows : (m.swept inExit ok).control.Allows event values := by
  unfold swept
  split
  case isTrue  => exact moneroClaimed_allows hv he hx
  case isFalse => exact claimMoneroFailed_allows hv he hx

theorem tryClaim_allows : m.tryClaim.control.Allows event values := by
  unfold tryClaim
  split <;> exact ⟨hv, he, hx⟩

theorem filtered_allows {logs : Option (List Log)} :
    (m.filtered logs).control.Allows event values := by
  unfold filtered
  split
  case h_1 => exact ⟨hv, he, hx⟩
  case h_2 =>
    split
    case h_1 => exact ⟨hv, he, hx⟩
    case h_2 =>
      split
      case h_1 => exact ⟨hv, he, hx⟩
      case h_2 =>
        unfold claimMonero
        split
        case isTrue  => exact ⟨hv, he, hx⟩
        case isFalse => exact claimMoneroFailed_allows hv he hx

theorem waitOrRefund_allows {ts : Time} : (m.waitOrRefund ts).control.Allows event values := by
  unfold waitOrRefund
  split <;> exact ⟨hv, he, hx⟩

theorem afterRefund_allows {site : RefundSite} {result : RefundResult} :
    (m.afterRefund site result).control.Allows event values := by
  cases site <;> cases result <;> simp only [afterRefund]
  case shouldRefund.refunded      => exact exit_allows hv he hx
  case shouldRefund.swapCompleted => exact exit_allows hv he hx
  case shouldRefund.failed        => exact exit_allows hv he hx
  case early.swapCompleted        => exact waitOrRefund_allows hv he hx
  case early.failed               => exact waitOrRefund_allows hv he hx
  case final.swapCompleted        => exact tryClaim_allows hv he hx
  all_goals exact ⟨hv, he, hx⟩

theorem refundSent_allows {site : RefundSite} :
    (m.refundSent b site ok text).control.Allows event values := by
  unfold refundSent
  split
  case h_1 =>
    split
    case isTrue  => exact ⟨hv, fun h => absurd h he⟩
    case isFalse => exact afterRefund_allows hv he hx
  case h_2 => exact afterRefund_allows hv he hx

theorem refundStageRead_allows : (m.refundStageRead ok).control.Allows event values := by
  unfold refundStageRead
  split
  case isTrue  => exact ⟨hv, he, hx⟩
  case isFalse =>
    split
    case h_2 => exact tryClaim_allows hv he hx
    all_goals exact ⟨hv, he, hx⟩

theorem refundTimestamp_allows {isReady : Bool} {ts : Option Time} :
    (m.refundTimestamp isReady ts).control.Allows event values := by
  unfold refundTimestamp
  split
  case h_1 => exact ⟨hv, he, hx⟩
  case h_2 =>
    split
    case isTrue  => exact ⟨hv, he, hx⟩
    case isFalse => exact waitOrRefund_allows hv he hx

end Exit

theorem completed_allows (hv : values ≤ 1) (he : event ≠ none) :
    (m.completed ok).control.Allows event values := by
  unfold completed
  repeat' split
  all_goals exact ⟨hv, fun h => absurd h he⟩

theorem handleEvent_allows {e : Event} (h : Consistent m.swap m.claimedClosed)
    (hc : m.control = .runHandleEvents) :
    (m.handleEvent e).control.Allows (some e) (m.rejects e).toNat := by
  cases e <;> simp only [handleEvent, rejects]
  case keysReceived =>
    split
    case isTrue hn  => simp [Control.Allows, hn]
    case isFalse hn => simp [Control.Allows, hc, hn]
  case xmrLocked =>
    split
    case isTrue hn  =>
      unfold handleNotifyXMRLock
      split <;> simp [Control.Allows, hn, panic]
    case isFalse hn => simp [Control.Allows, hc, hn]
  case ethClaimed =>
    split
    case isTrue hn  =>
      unfold claimMonero
      split
      case isTrue ho  => simp [Control.Allows, hn, ho]
      case isFalse ho => exact claimMoneroFailed_allows (Bool.toNat_le _) (by simp) (by simp)
    case isFalse hn => simp [Control.Allows, hc, hn]
  case shouldRefund =>
    unfold handleEventShouldRefund
    split
    case isTrue ho  =>
      -- A swap that is ongoing expects one of the three events.
      have hn := h.status.mp ho
      have hs := h.next
      simp only [Control.Allows]
      grind
    case isFalse => exact exit_allows (Bool.toNat_le _) (by simp) (by simp)
  case exit => exact exit_allows (by simp) (by simp) (by simp)

theorem setsNextExpectedEvent_self {m' : Loop}
    (h : m'.swap.nextExpectedEvent = m.swap.nextExpectedEvent) :
    m.setsNextExpectedEvent m' = false := by
  unfold setsNextExpectedEvent
  split <;> simp [h]

-- The handler returns, and has not set the next event if it has sent an error. Or it goes on, which
-- it does only to write the swap if it has sent an error.
def Sends (b : Backend) (m : Loop) (i : Input) (m' : Loop) : Prop :=
  m'.control = .runHandleEvents ∧
    (m.fails b i → m'.swap.nextExpectedEvent = m.swap.nextExpectedEvent) ∨
  m'.control = .writeSwapToDB ∨ m'.control = .panicked ∨
  m.fails b i = false ∧
    (m'.control = .newSwap ∨ m'.control = .sendSwapMessage ∨ m'.control = .setReady)

theorem setsNextExpectedEvent_of_goes {m' : Loop} (h : m'.control ≠ .runHandleEvents) :
    m.setsNextExpectedEvent m' = false := by
  unfold setsNextExpectedEvent
  split <;> simp [h]

theorem Sends.allows {i : Input} {m' : Loop} (h : m.Sends b i m') (he : event ≠ none) :
    m'.control.Allows event
      ((m.fails b i).toNat + (m.setsNextExpectedEvent m' && !written).toNat) := by
  have hs : m'.control ≠ .runHandleEvents → m.setsNextExpectedEvent m' = false :=
    setsNextExpectedEvent_of_goes
  rcases h with ⟨hc, hn⟩ | hc | hc | ⟨hf, hc⟩
  · rw [hc]
    refine ⟨?_, fun h => absurd h he⟩
    cases hf : m.fails b i
    case false => simp [Bool.toNat_le]
    case true  => simp [setsNextExpectedEvent_self (hn hf)]
  · simp [hc, hs, Control.Allows, Bool.toNat_le, he]
  · simp [hc, hs, Control.Allows, Bool.toNat_le, he]
  · rcases hc with hc | hc | hc <;> simp [hc, hf, hs, Control.Allows, he]

theorem setNextExpectedEvent_sends {m₁ : Loop} {i : Input} {e : EventType}
    (hf : m.fails b i = false) : m.Sends b i (m₁.setNextExpectedEvent e) := by
  unfold setNextExpectedEvent
  split
  case isTrue  => exact .inr <| .inr <| .inl rfl
  case isFalse => exact .inl ⟨rfl, by simp [hf]⟩

theorem keysReceivedFailed_sends {m₁ : Loop} {i : Input}
    (hn : m₁.swap.nextExpectedEvent = m.swap.nextExpectedEvent) :
    m.Sends b i m₁.keysReceivedFailed := by
  unfold keysReceivedFailed
  split
  case isFalse => exact .inl ⟨rfl, fun _ => hn⟩
  case isTrue  =>
    unfold setNextExpectedEvent
    split
    case isTrue  => exact .inr <| .inr <| .inl rfl
    case isFalse => exact .inr <| .inl rfl

theorem keysChecked_sends {msg : SendKeysMessage} {calls : KeysCalls}
    (hc : m.control = .checkKeys msg) :
    m.Sends b (.keysChecked calls) (m.keysChecked msg calls) := by
  have hk : (checkKeys calls msg m.swap).snd.progress = m.swap.progress := checkKeys_keeps m.swap
  have hn := congrArg Prod.snd hk
  unfold keysChecked
  split
  all_goals
    rename_i hr
    rw [hr] at hn
  case h_1 =>
    exact .inr <| .inr <| .inr ⟨by simp [fails, hc, hr, returnsError], .inl rfl⟩
  case h_2 =>
    split
    case isTrue  => exact .inr <| .inr <| .inl rfl
    case isFalse => exact keysReceivedFailed_sends hn

theorem newSwapped_sends {receipt : Option Receipt} {id : Bytes32} {nonce : ℤ} {put : Bool}
    (hc : m.control = .newSwap) :
    m.Sends b (.newSwapped receipt id nonce put) (m.newSwapped b receipt id nonce put) := by
  unfold newSwapped
  split
  case h_1         => exact keysReceivedFailed_sends rfl
  case h_2 receipt =>
    have hk : (recordSwap b nonce put receipt m.swap).snd.progress = m.swap.progress :=
      recordSwap_keeps m.swap
    have hn := congrArg Prod.snd hk
    dsimp only [newSwapMined]
    split
    all_goals
      rename_i hr
      rw [hr] at hn
    case h_1 =>
      exact .inr <| .inr <| .inr ⟨by simp [fails, hc, hr, returnsError], .inr <| .inl rfl⟩
    case h_2 =>
      split
      case isTrue  => exact .inr <| .inr <| .inl rfl
      case isFalse => exact keysReceivedFailed_sends hn

theorem messageSent_sends (hc : m.control = .sendSwapMessage) :
    m.Sends b (.messageSent ok) (m.messageSent ok) := by
  unfold messageSent
  split
  case isTrue ho => exact setNextExpectedEvent_sends (by simp [fails, hc, ho])
  case isFalse   => exact keysReceivedFailed_sends rfl

theorem readyStageRead_sends (hc : m.control = .readyStage) :
    m.Sends b (.stageRead ok) (m.readyStageRead ok) := by
  unfold readyStageRead
  split
  case isTrue     => exact .inl ⟨rfl, fun _ => rfl⟩
  case isFalse ho =>
    split
    case h_1 hs => exact .inr <| .inr <| .inr ⟨by simp_all [fails], .inr <| .inr rfl⟩
    case h_2 hs => exact setNextExpectedEvent_sends (by simp_all [fails])
    case h_3 hs => exact setNextExpectedEvent_sends (by simp_all [fails])
    case h_4    => exact .inl ⟨rfl, fun _ => rfl⟩

theorem readySent_sends (hc : m.control = .setReady) :
    m.Sends b (.readySent ok text) (m.readySent b ok text) := by
  unfold readySent
  split
  case h_1 =>
    split
    case isTrue  => exact .inr <| .inr <| .inl rfl
    case isFalse => exact .inl ⟨rfl, fun _ => rfl⟩
  case h_2 hs =>
    dsimp only
    split
    case isTrue hp =>
      have hf : m.setReadyFails b ok text = false := by simp [setReadyFails, hs, hp]
      exact setNextExpectedEvent_sends (by simpa only [fails, hc] using hf)
    case isFalse =>
      split
      case isTrue ht =>
        have hf : m.setReadyFails b ok text = false := by simp [setReadyFails, hs, ht]
        exact setNextExpectedEvent_sends (by simpa only [fails, hc] using hf)
      case isFalse   => exact .inl ⟨rfl, fun _ => rfl⟩

end Loop

namespace AnsweredLoop

variable {m : AnsweredLoop} {i : Input × Bool}

def Answered (m : AnsweredLoop) : Prop :=
  m.loop.control ≠ .blocked ∧ m.values ≤ 1 ∧ ∀ ch ∈ m.ended, ch.Answered

-- No event is received while `tryRefund` waits for `t2`, and the database does not fail after
-- `handleEventKeysReceived` has failed.
def Careful (m : AnsweredLoop) (i : Input × Bool) : Prop :=
  match m.loop.control, i.fst with
  | .waitT2,        .event _        => False
  | .writeSwapToDB, .swapWritten ok => ok
  | _,              _               => True

instance (m : AnsweredLoop) (i : Input × Bool) : Decidable (m.Careful i) := by
  unfold Careful
  split <;> infer_instance

structure Inv (m : AnsweredLoop) : Prop where
  allows   : m.loop.control.Allows m.event m.values
  event    : m.loop.control = .runHandleEvents → m.event = none
  ended    : ∀ ch ∈ m.ended, ch.Answered
  coherent : m.loop.Coherent ∨ m.loop.control = .panicked

theorem receive_loop {i : Input} : (m.receive i).loop = m.loop := by
  unfold receive
  repeat' split
  all_goals rfl

theorem not_takes {i : Input} (h : m.loop.takes i = false) :
    m.loop.fails b i = false ∧ m.sendsExit i = false ∧ m.receive i = m := by
  refine ⟨?_, ?_, ?_⟩
  · unfold Loop.fails
    split <;> simp_all [Loop.takes]
  · unfold sendsExit
    split <;> simp_all [Loop.takes]
  · unfold receive
    split
    case h_1 =>
      split
      case isTrue hc => simp [Loop.takes, hc] at h
      case isFalse   =>
        split
        case isTrue hc => simp [Loop.takes, hc] at h
        case isFalse   => rfl
    case h_2 => rfl

theorem step_allows (h : m.Inv) (hw : m.Careful i) :
    (m.loop.step b i.fst).control.Allows (m.receive i.fst).event
      (m.values + (m.receive i.fst).sends b (m.loop.step b i.fst) i.fst i.snd) := by
  obtain ⟨i, written⟩ := i
  have ha := h.allows
  have hs := Loop.step_step b m.loop i
  dsimp only
  generalize hl : m.loop.step b i = l at hs ⊢
  cases hs
  case idle hi =>
    obtain ⟨hf, hx, hr⟩ := not_takes (b := b) hi
    simpa [sends, hr, hf, hx, Loop.setsNextExpectedEvent_self] using ha
  case newSwapMined =>
    simpa [sends, receive, Loop.fails, sendsExit, Loop.newSwapMined,
      Loop.setsNextExpectedEvent_self] using ha
  case stageMined =>
    simpa [sends, receive, Loop.fails, sendsExit, Loop.stageMined_control, Loop.stageMined_swap,
      Loop.setsNextExpectedEvent_self] using ha
  case ctxDone hc =>
    simpa [sends, receive, Loop.fails, sendsExit, hc, Control.Allows,
      Loop.setsNextExpectedEvent] using ha
  case eventWaiting hc => simp [Careful, hc] at hw
  all_goals
    rename_i hc
    simp only [hc] at ha
    simp only [Careful, hc] at hw
    simp only [sends, receive_loop, sendsExit, hc, Bool.toNat_false, Nat.add_zero]
  case event =>
    have hv : m.values = 0 := ha.right (h.event hc)
    have hs := (h.coherent.resolve_right (by simp [hc])).left
    simpa [hv, receive, hc, Loop.fails, Loop.setsNextExpectedEvent] using
      Loop.handleEvent_allows hs hc
  case keysChecked =>
    rw [ha.left, Nat.zero_add]
    exact (Loop.keysChecked_sends hc).allows ha.right
  case newSwapped =>
    rw [ha.left, Nat.zero_add]
    exact (Loop.newSwapped_sends hc).allows ha.right
  case messageSent =>
    rw [ha.left, Nat.zero_add]
    exact (Loop.messageSent_sends hc).allows ha.right
  case readyStageRead =>
    rw [ha.left, Nat.zero_add]
    exact (Loop.readyStageRead_sends hc).allows ha.right
  case readySent =>
    rw [ha.left, Nat.zero_add]
    exact (Loop.readySent_sends hc).allows ha.right
  all_goals
    simp only [Loop.setsNextExpectedEvent, hc, Loop.fails, receive, Bool.toNat_false,
      Bool.false_and, Nat.add_zero, Nat.zero_add]
  case swapWritten =>
    subst hw
    exact ⟨ha.left, fun h => absurd h ha.right⟩
  case sweeping inExit ready written =>
    cases inExit
    case false =>
      obtain ⟨hv, he, hx⟩ := ha
      rw [hv, Nat.zero_add]
      refine Loop.sweeping_allows (Bool.toNat_le _) he (fun h => absurd h hx) fun hr hw => ?_
      simp [Loop.claimMoneroFails, hr, hw, Control.Allows, he, hx]
    case true =>
      obtain ⟨hv, he, hx⟩ := ha
      exact Loop.sweeping_allows hv he hx fun _ _ => ⟨hv, he, hx⟩
  case swept inExit ok =>
    cases inExit
    case false =>
      obtain ⟨hv, he, hx⟩ := ha
      rw [hv, Nat.zero_add]
      exact Loop.swept_allows (Bool.toNat_le _) he fun h => absurd h hx
    case true => exact Loop.swept_allows ha.left ha.right.left ha.right.right
  case refundSent site _ _ =>
    cases site
    case shouldRefund =>
      obtain ⟨hv, he, hx⟩ := ha
      rw [hv, Nat.zero_add]
      exact Loop.refundSent_allows (Bool.toNat_le _) he fun h => absurd h hx
    all_goals exact Loop.refundSent_allows ha.left ha.right.left ha.right.right
  case completed =>
    obtain ⟨hv, he, hx⟩ := ha
    refine Loop.completed_allows ?_ he
    by_cases hs : m.event = some .exit ∧ m.err
    · simp [hs, hx hs.left]
    · simpa [hs] using hv
  all_goals obtain ⟨hv, he, hx⟩ := ha
  case refundStageRead => exact Loop.refundStageRead_allows hv he hx
  case refundTimestamp => exact Loop.refundTimestamp_allows hv he hx
  case waited =>
    unfold Loop.waited
    split <;> exact ⟨hv, he, hx⟩
  case filtered => exact Loop.filtered_allows hv he hx

theorem close_inv (ha : m.loop.control.Allows m.event m.values)
    (hc : m.loop.control = .runHandleEvents) (he : ∀ ch ∈ m.ended, ch.Answered)
    (hs : m.loop.Coherent) : m.close.Inv := by
  simp only [Control.Allows, hc] at ha
  unfold close
  split
  case h_1 hn => exact ⟨by simpa [Control.Allows, hc] using ha, fun _ => hn, he, .inl hs⟩
  case h_2 =>
    refine ⟨by simp [Control.Allows, hc], fun _ => rfl, ?_, .inl hs⟩
    simp only [List.mem_cons, forall_eq_or_imp]
    exact ⟨⟨ha.left, rfl⟩, he⟩

theorem Careful.not_waiting (hc : m.Careful i) (e : Event) (hw : m.loop.control = .waitT2) :
    i.fst ≠ .event e := by
  intro he
  simp [Careful, hw, he] at hc

theorem step_inv (h : m.Inv) (hc : m.Careful i) : (m.step b i).Inv := by
  have ha := step_allows (b := b) h hc
  have he : ∀ ch ∈ (m.receive i.fst).ended, ch.Answered := by
    unfold receive
    split
    case h_1 e he =>
      split
      case isTrue  => exact h.ended
      case isFalse => rw [if_neg fun hw => hc.not_waiting e hw he]; exact h.ended
    case h_2 => exact h.ended
  have hs : (m.loop.step b i.fst).Coherent ∨ (m.loop.step b i.fst).control = .panicked := by
    cases h.coherent
    case inl hs => exact Loop.step_coherent hs hc.not_waiting
    case inr hp => exact .inr <| (Loop.step_halted (.inr <| .inl hp)).trans hp
  unfold step
  dsimp only
  split
  case isTrue hr  => exact close_inv ha hr he (hs.resolve_right (by simp [hr]))
  case isFalse hr => exact ⟨ha, fun h => absurd h hr, he, hs⟩

-- An event has got no answer, or the loop waits for ever to send a second one.
def Unanswered (m : AnsweredLoop) : Prop :=
  m.loop.control = .blocked ∨ ∃ ch ∈ m.ended, ¬ch.Answered

theorem Inv.answered (h : m.Inv) : m.Answered := by
  have ha := h.allows
  refine ⟨fun hb => by simp [hb, Control.Allows] at ha, ?_, h.ended⟩
  unfold Control.Allows at ha
  split at ha
  case h_1 => contradiction
  all_goals omega

theorem subset_receive {i : Input} : m.ended ⊆ (m.receive i).ended := by
  unfold receive
  repeat' split
  all_goals simp

theorem subset_step : (m.receive i.fst).ended ⊆ (m.step b i).ended := by
  unfold step close
  dsimp only
  split
  case isTrue  => split <;> simp
  case isFalse => simp

theorem step_loop : (m.step b i).loop = m.loop.step b i.fst := by
  unfold step close
  dsimp only
  split
  case isTrue  => split <;> rfl
  case isFalse => rfl

theorem step_blocked (h : m.loop.control = .blocked) : (m.step b i).loop.control = .blocked := by
  rw [step_loop, Loop.step_halted (.inr <| .inr h), h]

theorem Unanswered.step (h : m.Unanswered) : (m.step b i).Unanswered := by
  rcases h with hb | ⟨ch, hm, ha⟩
  · exact .inl <| step_blocked hb
  · exact .inr ⟨ch, subset_step (subset_receive hm), ha⟩

end AnsweredLoop

end XMRTaker

end Taker

namespace XMRTaker.Sample

open XMRMaker.Sample (swap swapID newLog)

def written (is : List Input) : List (Input × Bool) :=
  is.map (·, true)

end XMRTaker.Sample
