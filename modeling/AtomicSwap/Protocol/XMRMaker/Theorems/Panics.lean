import AtomicSwap.Protocol.XMRMaker.Senders
import AtomicSwap.Protocol.XMRMaker.Theorems.Claims

open Ethereum SwapCreator Handler Machine

namespace XMRMaker

variable {b : Backend}

-- Nothing panics if the maker still waits for the ETH to be locked.
theorem startTransfer_calm {calls : Calls} {amount : Decimal} {s : SwapState}
    (h : s.nextExpectedEvent = .ethLocked) :
    (startTransfer calls amount).Post s fun r _ => ∀ e, r = .error e → e.isPanic = false := by
  refine post_bind_bind.mpr <| post_throwIf_bind.mpr ⟨by simp [Error.isPanic], fun _ => ?_⟩
  refine post_bind_bind.mpr <| post_get_bind.mpr <| post_bind_bind.mpr ?_
  refine post_throwIf_bind.mpr ⟨by simp [h], fun _ => post_bind_bind.mpr ?_⟩
  refine post_throwIf_bind.mpr ⟨by simp [h], fun _ => post_bind_bind.mpr ?_⟩
  refine post_modify_bind.mpr <| post_bind_bind.mpr ?_
  refine post_throwIf_bind.mpr ⟨by simp [EventType.getStatus], fun _ => post_bind_bind.mpr ?_⟩
  refine post_modify_bind.mpr <| post_throwIf_bind.mpr ⟨by simp [Error.isPanic], fun _ => ?_⟩
  exact fun e he => by cases he

namespace Loop

variable {m : Loop} {failed ok ready written : Bool} {n : ℕ} {e : Event}

-- A closed `readyCh` means that the claim has failed or that it is not waited for any more.
def Quiet (m : Loop) (failed : Bool) : Prop :=
  m.readyClosed → m.swap.nextExpectedEvent ≠ .ethLocked ∧
    (failed ∨ m.swap.nextExpectedEvent ≠ .contractReady)

def Coherent (m : Loop) (failed : Bool) : Prop :=
  match m.control with
  | .checkETHLocked _ | .prepareLock _ =>
    m.swap.nextExpectedEvent = .ethLocked ∧ m.readyClosed = false
  | .claimFunds _                      => m.swap.nextExpectedEvent ≠ .ethLocked
  | .exitWait _                        =>
    m.swap.nextExpectedEvent ≠ .ethLocked ∧ (m.readyClosed → failed)
  | .panicked                          => False
  | _                                  => m.Quiet failed

-- A function that the loop has called panics: it lacks a key, or it cannot convert an amount.
def Derefs (b : Backend) (m : Loop) (i : Input) : Prop :=
  match m.control, i with
  | .checkETHLocked msg, .checked ec calls =>
    ∃ e s, amountToLock b ec calls msg m.swap = (.error e, s) ∧ e.isPanic
  | _, _ => False

theorem Coherent.mono {failed' : Bool} (h : m.Coherent failed) (hf : failed → failed') :
    m.Coherent failed' := by
  have hq (h : m.Quiet failed) : m.Quiet failed' :=
    fun hr => ⟨(h hr).left, (h hr).right.imp_left hf⟩
  cases hc : m.control <;> simp only [Coherent, hc] at h ⊢
  case exitWait => exact ⟨h.left, hf ∘ h.right⟩
  all_goals first | exact h | exact hq h

theorem quiet_of_next (h : m.swap.nextExpectedEvent = .none) : m.Quiet failed := by
  simp [Quiet, h]

theorem exit_coherent (h : m.Quiet failed) : (m.exit n).Coherent failed := by
  unfold exit
  split
  case h_1 hn =>
    simp only [Quiet, hn] at h
    simpa [Coherent, hn] using h
  case h_2 => exact h
  case h_3 => exact quiet_of_next rfl

theorem returns_coherent (h : m.Quiet failed) : (m.returns n).Coherent failed := by
  cases n <;> exact h

theorem handleEventContractReady_coherent (hr : m.readyClosed = false)
    (hn : m.swap.nextExpectedEvent ≠ .ethLocked) :
    (m.handleEventContractReady n).Coherent failed := by
  rw [handleEventContractReady, if_neg (by simp [hr])]
  exact hn

theorem handleEvent_coherent (h : m.Quiet failed) (hc : m.control = .runHandleEvents)
    (he : e = .contractReady → failed = false) : (m.handleEvent e).Coherent failed := by
  have hm : m.Coherent failed := by simpa [Coherent, hc] using h
  cases e <;> simp only [handleEvent]
  case ethLocked =>
    split
    case isTrue hn => exact ⟨hn, by_contra fun hr => (h (by simpa using hr)).left hn⟩
    case isFalse   => exact hm
  case contractReady =>
    split
    case isTrue hn =>
      refine handleEventContractReady_coherent (by_contra fun hr => ?_) (by simp [hn])
      simpa [he rfl, hn] using h (by simpa using hr)
    case isFalse   => exact hm
  case ethRefunded => exact h
  case exit        => exact exit_coherent h

theorem handleEventInExit_coherent (hn : m.swap.nextExpectedEvent ≠ .ethLocked)
    (hr : m.readyClosed → failed) (he : e = .contractReady → failed = false) :
    (m.handleEventInExit n e).Coherent failed := by
  have hm : m.Quiet failed := fun h => ⟨hn, .inl (hr h)⟩
  cases e <;> simp only [handleEventInExit]
  case contractReady =>
    refine handleEventContractReady_coherent (by_contra fun h => ?_) hn
    simp [he rfl] at hr
    exact h hr
  all_goals exact hm

theorem checked_coherent {msg : NotifyETHLocked} {ec : EthClient} {calls : Calls}
    (hc : m.control = .checkETHLocked msg) (hn : m.swap.nextExpectedEvent = .ethLocked)
    (hr : m.readyClosed = false) :
    (m.checked b msg ec calls).Coherent failed ∨ m.Derefs b (.checked ec calls) := by
  have hk : (amountToLock b ec calls msg m.swap).snd.nextExpectedEvent = _ :=
    amountToLock_keeps untouched_nextExpectedEvent m.swap
  unfold checked resume
  split
  case h_1 hs => exact .inl ⟨by rw [← hn, ← hk, hs], hr⟩
  case h_2 e s hs =>
    split
    case isTrue hp => exact .inr (by simp only [Derefs, hc]; exact ⟨e, s, hs, hp⟩)
    case isFalse   => exact .inl <| exit_coherent (by simp [Quiet, hr])

theorem prepared_coherent {calls : Calls} {amount : Decimal}
    (hn : m.swap.nextExpectedEvent = .ethLocked) (hr : m.readyClosed = false) :
    (m.prepared calls amount).Coherent failed := by
  simp only [prepared, resume]
  split
  case h_1      => simp [Coherent, Quiet, hr]
  case h_2 e s hs =>
    rw [if_neg (by simp [(startTransfer_calm hn).result hs e rfl])]
    exact exit_coherent (by simp [Quiet, hr])

theorem transferred_coherent (h : m.Quiet failed) : (m.transferred ok).Coherent failed := by
  unfold transferred
  split
  case isTrue  => exact h
  case isFalse => exact exit_coherent h

theorem claimed_coherent (hn : m.swap.nextExpectedEvent ≠ .ethLocked) :
    (m.claimed n ok).Coherent (failed || !ok) := by
  unfold claimed
  split
  case isTrue     => exact returns_coherent <| quiet_of_next rfl
  case isFalse ho => exact exit_coherent fun _ => ⟨hn, .inl (by simp [ho])⟩

theorem sweeping_coherent (h : m.Quiet failed) :
    (m.sweeping n ready written).Coherent failed := by
  unfold sweeping
  repeat' split
  · exact returns_coherent h
  · exact returns_coherent h
  · exact h

theorem swept_coherent (h : m.Quiet failed) : (m.swept n ok).Coherent failed := by
  unfold swept
  split
  case isTrue => exact returns_coherent h
  case isFalse =>
    cases n
    case zero => exact exit_coherent <| quiet_of_next rfl
    case succ => exact returns_coherent <| quiet_of_next rfl

theorem completed_coherent (h : m.Quiet failed) (hd : ok → m.doneClosed = false) :
    (m.completed n ok).Coherent failed := by
  unfold completed
  split
  case isTrue     => exact returns_coherent h
  case isFalse ho =>
    dsimp only
    rw [if_neg (by simp [hd (by simpa using ho)])]
    exact returns_coherent h

-- The maker is about to lock its XMR.
def isLocking (m : Loop) : Bool :=
  match m.control with
  | .checkETHLocked _ | .prepareLock _ => true
  | _                                  => false

theorem handleClaimedLogs_coherent {log : Log} (h : m.Coherent failed)
    (hl : m.isLocking → ∀ u, checkSwapID log claimedTopic m.swap.contractSwapID ≠ .ok u) :
    (m.handleClaimedLogs log).Coherent failed := by
  unfold handleClaimedLogs
  split
  case h_1 u hu =>
    have hl : m.isLocking = false := by_contra fun h => hl (by simpa using h) u hu
    cases hc : m.control <;> simp_all [Coherent, clearNextExpectedEvent, isLocking, Quiet]
  case h_2 => exact h

def Admits (m : Loop) (failed : Bool) : Input → Prop
  | .event e        => e = .contractReady → failed = false
  | .claimedLog log =>
    m.isLocking → ∀ u, checkSwapID log claimedTopic m.swap.contractSwapID ≠ .ok u
  | .completed ok   => ok → m.doneClosed = false
  | _               => True

theorem step_coherent {i : Input} (h : m.Coherent failed) (ha : m.Admits failed i) :
    (m.step b i).Coherent (failed || m.claiming && i.isFailedClaim) ∨ m.Derefs b i := by
  have hm : m.Coherent (failed || m.claiming && i.isFailedClaim) := h.mono (by simp +contextual)
  have hs := step_step b m i
  generalize m.step b i = m' at hs ⊢
  cases hs
  case idle       => exact .inl hm
  case claimedLog =>
    simp only [Input.isFailedClaim, Bool.and_false, Bool.or_false]
    exact .inl <| handleClaimedLogs_coherent h ha
  case ctxDone hc =>
    simp only [Coherent, hc] at hm
    exact .inl hm
  all_goals
    rename_i hc
    simp only [Coherent, hc] at h
    simp only [claiming, hc, Input.isFailedClaim, Bool.and_false, Bool.or_false]
  case event       => exact .inl <| handleEvent_coherent h hc ha
  case eventInExit => exact .inl <| handleEventInExit_coherent h.left h.right ha
  case checked     => exact checked_coherent hc h.left h.right
  case prepared    => exact .inl <| prepared_coherent h.left h.right
  case transferred => exact .inl <| transferred_coherent h
  case claimed     => exact .inl <| claimed_coherent h
  case sweeping    => exact .inl <| sweeping_coherent h
  case swept       => exact .inl <| swept_coherent h
  case completed   => exact .inl <| completed_coherent h ha

section DoneClosed

@[simp]
theorem exit_doneClosed : (m.exit n).doneClosed = m.doneClosed := by
  unfold exit
  split <;> rfl

@[simp]
theorem returns_doneClosed : (m.returns n).doneClosed = m.doneClosed := by
  cases n <;> rfl

theorem handleEventContractReady_doneClosed :
    (m.handleEventContractReady n).doneClosed = m.doneClosed := by
  unfold handleEventContractReady
  split <;> rfl

theorem resume_doneClosed {α : Type} {r : Except Error α × SwapState} {next : α → Control} :
    (m.resume r next).doneClosed = m.doneClosed := by
  unfold resume
  split
  case h_1 => rfl
  case h_2 => split <;> simp

theorem step_doneClosed {i : Input} (hi : i ≠ .completed true) :
    (m.step b i).doneClosed = m.doneClosed := by
  have hs := step_step b m i
  generalize m.step b i = m' at hs ⊢
  cases hs
  case idle           => rfl
  case claimedLog     => unfold handleClaimedLogs; split <;> rfl
  case ctxDone        => rfl
  case completed ok _ =>
    cases ok
    case false => simp [completed]
    case true  => exact absurd rfl hi
  case event e _ =>
    cases e <;> simp only [handleEvent]
    case ethLocked     => split <;> rfl
    case contractReady => split <;> simp [handleEventContractReady_doneClosed]
    case ethRefunded   => rfl
    case exit          => exact exit_doneClosed
  case eventInExit e _ =>
    cases e <;> simp only [handleEventInExit, handleEventETHRefunded]
    case contractReady => exact handleEventContractReady_doneClosed
  case checked     => exact resume_doneClosed
  case prepared    => exact resume_doneClosed
  case transferred => unfold transferred; split <;> simp
  case claimed     => unfold claimed; split <;> simp [clearNextExpectedEvent]
  case sweeping    => unfold sweeping; repeat' split <;> simp
  case swept n _ _ => unfold swept; cases n <;> split <;> simp [clearNextExpectedEvent]

end DoneClosed

theorem Derefs.panicked {i : Input} (h : m.Derefs b i) : (m.step b i).control = .panicked := by
  unfold Derefs at h
  split at h
  case h_1 hc =>
    obtain ⟨e, s, hr, hp⟩ := h
    simp [step, hc, checked, resume, hr, hp]
  case h_2 => contradiction

theorem step_halted {i : Input} (h : m.control = .stopped ∨ m.control = .panicked) :
    (m.step b i).control = m.control := by
  cases i
  case claimedLog => simp only [step, handleClaimedLogs]; split <;> rfl
  all_goals cases h <;> simp_all [step]

end Loop

namespace RunningSwap

variable {m : RunningSwap} {i : RunningInput}

def Derefs (b : Backend) (m : RunningSwap) : RunningInput → Prop
  | .loop i => m.loop.Derefs b i
  | _       => False

-- No other event claims the ETH after a claim has failed, the ETH is not claimed before the maker
-- has locked its XMR, and the offer is not taken again before the loop has stopped.
def Careful (m : RunningSwap) : RunningInput → Prop
  | .t1Event | .readyEvent  => m.claimFailed = false
  | .loop (.claimedLog log) =>
    m.loop.isLocking → ¬∃ u, checkSwapID log claimedTopic m.loop.swap.contractSwapID = .ok u
  | .swapAdded              => m.loop.control = .stopped
  | _                       => True

instance (m : RunningSwap) (i : RunningInput) : Decidable (m.Careful i) := by
  unfold Careful
  split <;> infer_instance

structure Inv (m : RunningSwap) : Prop where
  loop : m.loop.Coherent m.claimFailed
  done : m.loop.doneClosed → m.ongoing → m.loop.control = .stopped

theorem advance_inv {i : Input} (h : m.Inv) (ha : m.loop.Admits m.claimFailed i)
    (hi : ∀ ok, i ≠ .completed ok) : (m.advance b i).Inv ∨ m.loop.Derefs b i := by
  refine (Loop.step_coherent h.loop ha).imp_left fun hs => ⟨hs, fun hd ho => ?_⟩
  have hs := h.done (Loop.step_doneClosed (hi true) ▸ hd) ho
  exact (Loop.step_halted (.inl hs)).trans hs

theorem contractReady_inv (h : m.Inv) (hf : m.claimFailed = false) :
    (m.advance b (.event .contractReady)).Inv := by
  have ha : m.loop.Admits m.claimFailed (.event .contractReady) := fun _ => hf
  refine (advance_inv h ha (by simp)).resolve_right ?_
  simp [Loop.Derefs]

theorem completed_inv {put : Bool} (h : m.Inv) (hc : m.loop.completing) :
    (m.completeOngoingSwap b put).Inv := by
  have hs : m.loop.control ≠ .stopped := by
    intro hs
    simp [Loop.completing, hs] at hc
  have ha : m.loop.Admits m.claimFailed (.completed <| m.ongoing && put) := by
    intro ho
    by_contra hd
    simp only [Bool.and_eq_true] at ho
    exact hs <| h.done (by simpa using hd) ho.left
  refine ⟨(Loop.step_coherent (b := b) h.loop ha).resolve_right ?_, by simp [completeOngoingSwap]⟩
  simp [Loop.Derefs]

theorem step_inv (h : m.Inv) (hc : m.Careful i) : (m.step b i).Inv ∨ m.Derefs b i := by
  unfold step
  split
  case h_1 => exact .inl h
  case h_2 => exact .inl h
  case h_3 i he hd =>
    refine advance_inv h ?_ hd
    cases i
    case event e    => exact fun hr => absurd (hr ▸ rfl) he
    case claimedLog => exact fun hl u hu => hc hl ⟨u, hu⟩
    case completed  => exact absurd rfl (hd _)
    all_goals trivial
  case h_4 => exact .inl ⟨h.loop, h.done⟩
  case h_5 => split <;> exact .inl ⟨h.loop, h.done⟩
  case h_6 => split <;> [split; skip] <;> exact .inl ⟨h.loop, h.done⟩
  case h_7 =>
    split
    case isTrue  => exact .inl <| contractReady_inv ⟨h.loop, h.done⟩ hc
    case isFalse => exact .inl h
  case h_8 =>
    split
    case isTrue  => exact .inl <| contractReady_inv ⟨h.loop, h.done⟩ hc
    case isFalse => exact .inl h
  case h_9 =>
    split
    case isTrue hs => exact .inl <| completed_inv h hs
    case isFalse   => exact .inl h
  case h_10 => split <;> exact .inl ⟨h.loop, fun _ _ => hc⟩

theorem Derefs.panicked (h : m.Derefs b i) : (m.step b i).loop.control = .panicked := by
  unfold Derefs at h
  split at h
  case h_1 i =>
    cases i
    case checked => exact Loop.Derefs.panicked h
    all_goals simp [Loop.Derefs] at h
  case h_2 => contradiction

theorem step_panicked (h : m.loop.control = .panicked) :
    (m.step b i).loop.control = .panicked := by
  have ha (i : Input) : (m.advance b i).loop.control = .panicked :=
    (Loop.step_halted (.inr h)).trans h
  unfold step
  split
  case h_3 => exact ha _
  case h_9 => simp [Loop.completing, h]
  case h_7 => simp [Loop.receives, h]
  case h_8 => simp [Loop.receives, h]
  case h_6 => split <;> [split; skip] <;> exact h
  case h_5 => split <;> exact h
  case h_10 => split <;> exact h
  all_goals exact h

-- A swap is started, or it is found in the database after a restart. The taker's key is set as soon
-- as its message has been checked.
inductive Initial (b : Backend) : RunningSwap → Prop
  | started {calls : InitiateCalls} {offer : Offer} {providesAmount : Decimal}
    {desiredAmount : Coins.EthAssetAmount} {s : SwapState} (key : Option PublicKey) (now : Time)
    (h : newSwapStateFromStart b calls offer providesAmount desiredAmount = .ok s) :
    Initial b (start { s with xmrtakerSecp256k1PublicKey := key } now)
  | recovered {newTxSender newSwapCreator : Bool} {offer : Offer} {ethSwapInfo : EthereumSwapInfo}
    {info : Info} {s : SwapState} (now : Time)
    (h : newSwapStateFromOngoing b newTxSender newSwapCreator offer ethSwapInfo info = .ok s) :
    Initial b (restart s now)

theorem Initial.inv (h : Initial b m) : m.Inv := by
  cases h
  all_goals
    refine ⟨?_, by simp [start, restart, Loop.start]⟩
    simp [start, restart, Loop.start, Loop.Coherent, Loop.Quiet]

-- The loop itself panics, or it closes a channel for the second time.
def Panics (b : Backend) (m : RunningSwap) (i : RunningInput) : Prop :=
  m.loop.control ≠ .panicked ∧ (m.step b i).loop.control = .panicked ∧ ¬m.Derefs b i

theorem careful_calm {is : List RunningInput} (h₀ : Initial b m)
    (h : Along (step b) Careful is m) : Along (step b) (fun m i => ¬m.Panics b i) is m := by
  let I (m : RunningSwap) : Prop := m.Inv ∨ m.loop.control = .panicked
  refine h.of_invariant (I := I) ?_ ?_ (.inl h₀.inv)
  · intro m i hi hc
    cases hi
    case inl hi => exact (step_inv hi hc).imp_right Derefs.panicked
    case inr hp => exact .inr (step_panicked hp)
  · rintro m i hi hc ⟨hn, hp, hd⟩
    have hi := (step_inv (hi.resolve_right hn) hc).resolve_right hd
    simpa [Loop.Coherent, hp] using hi.loop

end RunningSwap

end XMRMaker

namespace XMRMaker.Sample

def running : RunningSwap :=
  .start state 1700000000

theorem newSwapStateFromStart_state :
    newSwapStateFromStart backend initiateCalls offer { coeff := 10 ^ 12 }
      (.wei { coeff := 5 * 10 ^ 18 }) =
      .ok { state with xmrtakerSecp256k1PublicKey := none } := by
  decide

theorem running_initial : RunningSwap.Initial backend running :=
  .started (some takerKey) _ newSwapStateFromStart_state

def lockingRun : List RunningInput :=
  locking.map .loop

-- The contract is set to ready just before `t1`, and the claim fails.
def claimingRun : List RunningInput :=
  lockingRun ++ [.t1Expired true, .readyEvent, .loop <| .claimed false]

-- The taker refunds afterwards.
def refundedRun : List RunningInput :=
  claimingRun ++ [.loop <| .event .ethRefunded, .loop <| .sweeping true true, .loop <| .swept true,
    .completed true, .completed true, .loop .ctxDone, .swapAdded]

-- The swap is cancelled before the ETH is locked, and then its offer is taken again.
def retakenRun : List RunningInput :=
  [.loop <| .event .exit, .completed true, .swapAdded, .loop <| .event .exit]

end XMRMaker.Sample

namespace XMRMaker.RunningSwap

open XMRMaker.Sample

theorem careful_calm_refunded :
    let m := run (step backend) refundedRun running
    m.loop.xmrReclaimed ∧ m.loop.control = .stopped ∧ m.ongoing ∧
    Along (step backend) (fun m i => ¬m.Panics backend i) refundedRun running := by
  have h : Along (step backend) Careful refundedRun running := by
    decide +kernel
  exact ⟨by decide +kernel, by decide +kernel, by decide +kernel, careful_calm running_initial h⟩

theorem t1Event_panics :
    (run (step backend) claimingRun running).Panics backend .t1Event ∧
    (run (step backend) retakenRun running).Panics backend (.completed true) :=
  ⟨⟨by decide +kernel, by decide +kernel, not_false⟩, by decide +kernel, by decide +kernel,
    not_false⟩

end XMRMaker.RunningSwap
