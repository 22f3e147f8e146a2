import AtomicSwap.Protocol.Swap.Theorems.Apart
import AtomicSwap.Protocol.XMRMaker.Theorems.Panics
import AtomicSwap.Protocol.XMRTaker.Theorems.Panics

open Ethereum Handler Machine

-- What is left in memory when a swap cannot be written to the database, and what becomes of the
-- swap then.

namespace XMRTaker.Loop

variable {b : Backend} {m : Loop} {inExit ok : Bool} {event : EventType} {ts : Time}

section DoneClosed

@[simp]
theorem exit_doneClosed : m.exit.doneClosed = m.doneClosed := by
  unfold exit
  split <;> rfl

@[simp]
theorem setNextExpectedEvent_doneClosed :
    (m.setNextExpectedEvent event).doneClosed = m.doneClosed := by
  unfold setNextExpectedEvent
  split <;> rfl

@[simp]
theorem claimMoneroFailed_doneClosed : (m.claimMoneroFailed inExit).doneClosed = m.doneClosed := by
  cases inExit <;> simp [claimMoneroFailed, exited]

@[simp]
theorem claimMonero_doneClosed : (m.claimMonero inExit).doneClosed = m.doneClosed := by
  unfold claimMonero
  split <;> simp

@[simp]
theorem moneroClaimed_doneClosed : (m.moneroClaimed inExit).doneClosed = m.doneClosed := by
  unfold moneroClaimed
  cases inExit <;> split <;> simp [panic, exited, clearNextExpectedEvent]

@[simp]
theorem tryClaim_doneClosed : m.tryClaim.doneClosed = m.doneClosed := by
  unfold tryClaim
  split <;> rfl

@[simp]
theorem writingSwap_doneClosed : m.writingSwap.doneClosed = m.doneClosed := by
  unfold writingSwap
  split <;> rfl

@[simp]
theorem keysReceivedFailed_doneClosed : m.keysReceivedFailed.doneClosed = m.doneClosed := by
  unfold keysReceivedFailed
  split <;> simp

@[simp]
theorem waitOrRefund_doneClosed : (m.waitOrRefund ts).doneClosed = m.doneClosed := by
  unfold waitOrRefund
  split <;> rfl

@[simp]
theorem afterRefund_doneClosed {site : RefundSite} {result : RefundResult} :
    (m.afterRefund site result).doneClosed = m.doneClosed := by
  unfold afterRefund
  split <;> simp [exited, clearNextExpectedEvent]

theorem refundSent_doneClosed {site : RefundSite} {text : Bool} :
    (m.refundSent b site ok text).doneClosed = m.doneClosed := by
  unfold refundSent
  split
  case h_1 => split <;> simp [panic]
  case h_2 =>
    simp only [afterRefund_doneClosed, refund]
    split
    case isTrue  => rfl
    case isFalse => split <;> rfl

theorem handleEvent_doneClosed {e : Event} : (m.handleEvent e).doneClosed = m.doneClosed := by
  cases e <;> simp only [handleEvent]
  case keysReceived => split <;> rfl
  case xmrLocked    =>
    split
    case isTrue  => unfold handleNotifyXMRLock; split <;> rfl
    case isFalse => rfl
  case ethClaimed   => split <;> simp
  case shouldRefund => unfold handleEventShouldRefund; split <;> simp
  case exit         => exact exit_doneClosed

theorem handleEventWaiting_doneClosed {e : Event} :
    (m.handleEventWaiting e).doneClosed = m.doneClosed := by
  cases e <;> simp [handleEventWaiting, panic]

-- Only what `exit` defers closes the channel, after the swap has been completed.
theorem step_doneClosed {i : Input} (hi : i ≠ .completed true) :
    (m.step b i).doneClosed = m.doneClosed := by
  have hs := step_step b m i
  generalize m.step b i = m' at hs ⊢
  cases hs
  case idle            => rfl
  case newSwapMined    => rfl
  case stageMined      => unfold stageMined; split <;> rfl
  case ctxDone         => rfl
  case event           => exact handleEvent_doneClosed
  case eventWaiting    => exact handleEventWaiting_doneClosed
  case messageSent     => unfold messageSent; split <;> simp
  case swapWritten     => rfl
  case readyStageRead  => unfold readyStageRead; (repeat' split) <;> simp
  case readySent       => simp only [readySent]; (repeat' split) <;> simp [panic]
  case sweeping        => unfold sweeping; (repeat' split) <;> simp
  case swept           => unfold swept; split <;> simp
  case refundStageRead => unfold refundStageRead; (repeat' split) <;> simp [exited]
  case refundTimestamp => unfold refundTimestamp; (repeat' split) <;> simp [exited]
  case refundSent      => exact refundSent_doneClosed
  case waited          => unfold waited; split <;> simp [exited]
  case filtered        => unfold filtered; (repeat' split) <;> simp [exited, clearNextExpectedEvent]
  case completed ok _  =>
    cases ok
    case false => rfl
    case true  => exact absurd rfl hi
  case keysChecked     =>
    unfold keysChecked
    split
    case h_1 => rfl
    case h_2 => split <;> simp [panic]
  case newSwapped      =>
    simp only [newSwapped]
    split
    case h_1 => simp
    case h_2 =>
      split
      case h_1 => rfl
      case h_2 => split <;> simp [panic, newSwapMined]

end DoneClosed

end XMRTaker.Loop

namespace XMRTaker.RunningSwap

variable {b : Backend} {m : RunningSwap}

-- What `exit` defers has run to its end.
def CleanedUp (m : RunningSwap) : Prop :=
  m.loop.cancelled ∧ m.loop.doneClosed

-- The swap manager has lost the swap, but the swap itself is not done.
structure Lost (m : RunningSwap) : Prop where
  ongoing : m.ongoing = false
  done    : m.loop.doneClosed = false

theorem Lost.not_cleanedUp (m : RunningSwap) (h : m.Lost) : ¬m.CleanedUp := by
  simp [CleanedUp, h.done]

theorem advance_lost {i : Input} (h : m.Lost) (hi : i ≠ .completed true) : (m.advance b i).Lost :=
  ⟨h.ongoing, (Loop.step_doneClosed hi).trans h.done⟩

theorem step_lost (h : m.Lost) (i : RunningInput) : (m.step b i).Lost := by
  unfold step
  split
  case h_1 => exact h
  case h_2 => exact h
  case h_3 => exact h
  case h_4 hc => exact advance_lost h (hc true)
  case h_5 =>
    split
    case isTrue  =>
      have hs : Lost { m with stream := false } := ⟨h.ongoing, h.done⟩
      exact advance_lost hs (by simp)
    case isFalse => exact h
  case h_6 =>
    split
    case isTrue  =>
      have hs : Lost { m with lockChecks := m.lockChecks - 1 } := ⟨h.ongoing, h.done⟩
      exact advance_lost hs (by simp)
    case isFalse => exact h
  case h_7 put =>
    unfold completeOngoingSwap
    split
    case isTrue  => exact ⟨rfl, (advance_lost h (by simp [h.ongoing])).done⟩
    case isFalse => exact h
  case h_8 => simpa [h.done] using h

-- A swap whose completion could not be written is never done, whatever follows.
theorem cleanedUp_iff {put : Bool} (hc : m.loop.control = .completeOngoingSwap)
    (ho : m.ongoing = true) (hd : m.loop.doneClosed = false) :
    (∃ is, (run (step b) is (m.step b (.completed put))).CleanedUp) ↔ put = true := by
  have hs : m.step b (.completed put) =
      { m.advance b (.completed put) with ongoing := false } := by
    simp [step, completeOngoingSwap, hc, ho]
  rw [hs]
  refine reaches_iff (fun _ i h => step_lost h i) Lost.not_cleanedUp ?_ ?_
  · rintro rfl
    simp [CleanedUp, advance, Loop.step, hc, Loop.completed, hd]
  · intro hp
    exact ⟨rfl, (Loop.step_doneClosed (by simpa using hp)).trans hd⟩

end XMRTaker.RunningSwap

namespace XMRMaker.RunningSwap

variable {b : Backend} {m : RunningSwap}

-- The offer is handled as the status of the swap asks for.
def CleanedUp (fate : OfferFate) (m : RunningSwap) : Prop :=
  m.loop.offerFate = fate ∧ m.loop.cancelled ∧ m.loop.doneClosed

structure Lost (m : RunningSwap) : Prop where
  ongoing : m.ongoing = false
  done    : m.loop.doneClosed = false

theorem Lost.not_cleanedUp {fate : OfferFate} (m : RunningSwap) (h : m.Lost) :
    ¬m.CleanedUp fate := by
  simp [CleanedUp, h.done]

theorem advance_lost {i : Input} (h : m.Lost) (hi : i ≠ .completed true) : (m.advance b i).Lost :=
  ⟨h.ongoing, (Loop.step_doneClosed hi).trans h.done⟩

theorem step_lost (h : m.Lost) (i : RunningInput) : (m.step b i).Lost := by
  unfold step
  split
  case h_1    => exact h
  case h_2    => exact h
  case h_3 hc => exact advance_lost h (hc true)
  case h_4    => exact ⟨h.ongoing, h.done⟩
  case h_5    => split <;> exact ⟨h.ongoing, h.done⟩
  case h_6    => (repeat' split) <;> exact ⟨h.ongoing, h.done⟩
  case h_7    =>
    split
    case isTrue  =>
      have hs : Lost { m with t1 := m.t1.receive } := ⟨h.ongoing, h.done⟩
      exact advance_lost hs (by simp)
    case isFalse => exact h
  case h_8    =>
    split
    case isTrue  =>
      have hs : Lost { m with readyEventSent := true } := ⟨h.ongoing, h.done⟩
      exact advance_lost hs (by simp)
    case isFalse => exact h
  case h_9    =>
    split
    case isTrue  => exact ⟨rfl, (advance_lost h (by simp [h.ongoing])).done⟩
    case isFalse => exact h
  case h_10   => simpa [h.done] using h

theorem cleanedUp_iff {n : ℕ} {put : Bool} (hc : m.loop.control = .completeOngoingSwap n)
    (ho : m.ongoing = true) (hd : m.loop.doneClosed = false) :
    (∃ is, (run (step b) is (m.step b (.completed put))).CleanedUp m.loop.retireOffer) ↔
    put = true := by
  have hs : m.step b (.completed put) =
      { m.advance b (.completed put) with ongoing := false } := by
    simp [step, completeOngoingSwap, Loop.completing, hc, ho]
  rw [hs]
  refine reaches_iff (fun _ i h => step_lost h i) Lost.not_cleanedUp ?_ ?_
  · rintro rfl
    cases n <;> simp [CleanedUp, advance, Loop.step, hc, Loop.completed, hd, Loop.returns]
  · intro hp
    exact ⟨rfl, (Loop.step_doneClosed (by simpa using hp)).trans hd⟩

end XMRMaker.RunningSwap

namespace Swap.Manager

variable {m m' : Manager} {s : Record} {p : ℕ} {put : Bool} {now : Time}

structure SameMaps (m m' : Manager) : Prop where
  ongoing : ∀ id, m'.ongoing.lookup id = m.ongoing.lookup id
  past    : ∀ id, m'.past.lookup id = m.past.lookup id

-- The swap is already where `addSwap` puts it.
def Has (m : Manager) (p : ℕ) (s : Record) : Prop :=
  if s.status.isOngoing then m.ongoing.lookup s.offerID = some p
  else m.past.lookup s.offerID = some p

theorem lookup_insert_eq_iff {l : AList fun _ : Bytes32 => ℕ} {id : Bytes32} :
    (∀ id', (l.insert id p).lookup id' = l.lookup id') ↔ l.lookup id = some p := by
  constructor
  case mp  => exact fun h => (h id).symm.trans (AList.lookup_insert _)
  case mpr =>
    intro h id'
    by_cases hi : id' = id
    case pos => rw [hi, AList.lookup_insert, h]
    case neg => exact AList.lookup_insert_ne hi

theorem sameMaps_added_iff : m.SameMaps (m.added p s) ↔ m.Has p s := by
  unfold added Has
  split
  case isTrue =>
    rw [← lookup_insert_eq_iff]
    exact ⟨SameMaps.ongoing, (⟨·, fun _ => rfl⟩)⟩
  case isFalse =>
    rw [← lookup_insert_eq_iff]
    exact ⟨SameMaps.past, (⟨fun _ => rfl, ·⟩)⟩

theorem not_sameMaps_moved (h : s.offerID ∈ m.ongoing) : ¬m.SameMaps (m.moved now p s) := by
  intro hs
  have he : m.ongoing.lookup s.offerID = none :=
    (hs.ongoing s.offerID).symm.trans (AList.lookup_erase _ _)
  exact AList.lookup_eq_none.mp he h

variable (hp : m.infos[p]? = some s)
include hp

theorem addSwap_atomic_iff :
    ((addSwap put p m).fst = .error .db → m.SameMaps (addSwap put p m).snd) ↔
    put = true ∨ m.Has p s := by
  rw [← sameMaps_added_iff]
  cases put
  case true =>
    have h : (addSwap true p).Post m fun r _ => r = .ok () := by
      simp [post_addSwap, post_putSwap, hp]
    have h : (addSwap true p m).fst = .ok () := h
    simp [h]
  case false =>
    have h : (addSwap false p).Post m fun r m' => r = .error .db ∧ m' = m.added p s := by
      simp [post_addSwap, post_putSwap, hp]
    obtain ⟨hr, hm⟩ : (addSwap false p m).fst = _ ∧ (addSwap false p m).snd = _ := h
    simp [hr, hm]

-- How the manager ends the call, and that the swap is not ongoing after it in any case.
theorem completeOngoingSwap_result :
    ((completeOngoingSwap put now p m).fst = .ok () ↔ m.hasOngoingSwap s.offerID && put) ∧
    (completeOngoingSwap put now p m).snd.hasOngoingSwap s.offerID = false := by
  have h : (completeOngoingSwap put now p).Post m fun r m' =>
      (r = .ok () ↔ m.hasOngoingSwap s.offerID && put) ∧ m'.hasOngoingSwap s.offerID = false := by
    cases put <;> simp [post_completeOngoingSwap, post_putSwap, hp, hasOngoingSwap, moved]
  exact h

theorem completeOngoingSwap_atomic_iff :
    ((completeOngoingSwap put now p m).fst = .error .db →
      m.SameMaps (completeOngoingSwap put now p m).snd) ↔
    put = true ∨ s.offerID ∉ m.ongoing := by
  by_cases ho : s.offerID ∈ m.ongoing
  case neg =>
    have h : (completeOngoingSwap put now p).Post m fun r _ => r = .error .noSwapWithOfferID := by
      simp [post_completeOngoingSwap, hp, ho]
    have h : (completeOngoingSwap put now p m).fst = _ := h
    simp [h, ho]
  case pos =>
    cases put
    case true =>
      have h : (completeOngoingSwap true now p).Post m fun r _ => r = .ok () := by
        simp [post_completeOngoingSwap, post_putSwap, hp, ho]
      have h : (completeOngoingSwap true now p m).fst = _ := h
      simp [h]
    case false =>
      have h : (completeOngoingSwap false now p).Post m fun r m' =>
          r = .error .db ∧ m' = m.moved now p s := by
        simp [post_completeOngoingSwap, post_putSwap, hp, ho]
      obtain ⟨hr, hm⟩ : (completeOngoingSwap false now p m).fst = _ ∧
        (completeOngoingSwap false now p m).snd = _ := h
      simp [hr, hm, ho, not_sameMaps_moved ho]

end Swap.Manager

namespace Swap

open Manager

-- The maps are left as they were only if the database does not fail, or if there is nothing to
-- change. Both sides lose an ongoing swap whose completion cannot be written, and no retry of
-- `exit` runs the rest of its cleanup.
theorem bookkeeping_atomic_iff {m : Manager} {s : Record} {p : ℕ} (hp : m.infos[p]? = some s)
    (put : Bool) (now : Time) :
    (((addSwap put p m).fst = .error .db → m.SameMaps (addSwap put p m).snd) ↔
      put = true ∨ m.Has p s) ∧
    (((completeOngoingSwap put now p m).fst = .error .db →
      m.SameMaps (completeOngoingSwap put now p m).snd) ↔ put = true ∨ s.offerID ∉ m.ongoing) ∧
    (((completeOngoingSwap put now p m).fst = .ok () ↔ m.hasOngoingSwap s.offerID && put) ∧
      (completeOngoingSwap put now p m).snd.hasOngoingSwap s.offerID = false) ∧
    (∀ (b : XMRTaker.Backend) (t : XMRTaker.RunningSwap),
      t.loop.control = .completeOngoingSwap → t.ongoing = true → t.loop.doneClosed = false →
      ((∃ is, (run (.step b) is (t.step b (.completed put))).CleanedUp) ↔ put = true)) ∧
    ∀ (b : XMRMaker.Backend) (t : XMRMaker.RunningSwap) (exits : ℕ),
      t.loop.control = .completeOngoingSwap exits → t.ongoing = true →
      t.loop.doneClosed = false →
      ((∃ is, (run (.step b) is (t.step b (.completed put))).CleanedUp t.loop.retireOffer) ↔
        put = true) :=
  ⟨addSwap_atomic_iff hp, completeOngoingSwap_atomic_iff hp, completeOngoingSwap_result hp,
    fun _ _ hc ho hd => XMRTaker.RunningSwap.cleanedUp_iff hc ho hd,
    fun _ _ _ hc ho hd => XMRMaker.RunningSwap.cleanedUp_iff hc ho hd⟩

theorem bookkeeping_atomic_iff_taken :
    (((completeOngoingSwap true 0 0 Sample.taken).fst = .ok () ↔
      Sample.taken.hasOngoingSwap 1 && true) ∧
    (completeOngoingSwap true 0 0 Sample.taken).snd.hasOngoingSwap 1 = false) :=
  (bookkeeping_atomic_iff (m := Sample.taken) (s := Sample.record .keysExchanged) (p := 0)
    (by decide) true 0).right.right.left

-- The write fails once. The database works for all further attempts to exit.
theorem lost_on_failed_write :
    let m := (completeOngoingSwap false 0 0 Sample.taken).snd
    let taker := run (.step XMRTaker.Sample.backend)
      [.loop <| .event .exit, .completed false, .loop <| .event .exit, .completed true]
      XMRTaker.Sample.running
    let maker := run (.step XMRMaker.Sample.backend)
      [.loop <| .event .exit, .completed false, .loop <| .event .exit, .completed true]
      XMRMaker.Sample.running
    ((completeOngoingSwap false 0 0 Sample.taken).fst = .error .db ∧
      Sample.taken.ongoing.lookup 1 = some 0 ∧ m.ongoing.lookup 1 = none ∧
      Sample.taken.past.lookup 1 = none ∧ m.past.lookup 1 = some 0 ∧
      (completeOngoingSwap true 0 0 m).fst = .error .noSwapWithOfferID) ∧
    (taker.loop.cancelled = false ∧ taker.loop.doneClosed = false ∧
      taker.loop.control = .runHandleEvents) ∧
    maker.loop.cancelled = false ∧ maker.loop.doneClosed = false ∧
      maker.loop.offerFate = .taken ∧ maker.loop.control = .runHandleEvents := by
  refine ⟨by decide, by decide, by decide⟩

end Swap
