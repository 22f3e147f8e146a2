import AtomicSwap.Ethereum.SwapCreator.Theorems.Exclusion
import AtomicSwap.Protocol.XMRMaker.Expiration
import AtomicSwap.Protocol.XMRMaker.Theorems.Initiate
import AtomicSwap.Protocol.XMRMaker.Theorems.Retirement

open Ethereum SwapCreator Handler Machine Function

namespace XMRMaker

variable {b : Backend} {ec : EthClient} {calls : Calls} {msg : NotifyETHLocked} {s s' : SwapState}
variable {sw : SwapCreatorSwap} {amount : Decimal}

-- The timeouts are those of the swap that the maker would claim.
structure Dated (sw : SwapCreatorSwap) (s : SwapState) : Prop where
  swap : s.contractSwap = some sw
  t1   : s.t1 = unix (int64 sw.timeout1)
  t2   : s.t2 = unix (int64 sw.timeout2)

structure Kept (sw : SwapCreatorSwap) (s : SwapState) : Prop where
  dated : Dated sw s
  next  : s.nextExpectedEvent ≠ .ethLocked

section Lock

theorem checkETHLocked_dated :
    (checkETHLocked b ec calls msg).Post s fun r s' => r = .ok () → Dated msg.contractSwap s' := by
  refine post_throwIf_bind.mpr ⟨by simp, fun _ => ?_⟩
  refine post_throwIf_bind.mpr ⟨by simp, fun _ => ?_⟩
  refine post_throwIf_bind.mpr ⟨by simp, fun _ => post_modify_bind.mpr ?_⟩
  refine post_ofExcept_bind.mpr ⟨by simp, fun receipt _ => ?_⟩
  refine post_ofExcept_bind.mpr ⟨by simp, fun _ _ => ?_⟩
  refine post_bind_bind.mpr <| post_modify_bind.mpr <| post_throwIf_bind.mpr ⟨by simp, fun _ => ?_⟩
  refine post_throwIf_bind.mpr ⟨by simp, fun _ => post_modify_bind.mpr ?_⟩
  refine checkContract_keeps.post.bind (by simp) fun _ _ hs => ?_
  subst hs
  refine post_modify_bind.mpr <| post_get_bind.mpr <| post_throwIf_bind.mpr ⟨by simp, fun _ => ?_⟩
  exact fun _ => ⟨rfl, rfl, rfl⟩

theorem untouched_nextExpectedEvent : Untouched SwapState.nextExpectedEvent := by
  constructor <;> simp

-- The maker starts to wait for the contract before it asks for the transfer.
theorem startTransfer_post :
    (startTransfer calls amount).Post s fun r s' =>
      (∀ sw, Dated sw s → Dated sw s') ∧ (r = .ok () → s'.nextExpectedEvent = .contractReady) ∧
      (s'.nextExpectedEvent = s.nextExpectedEvent ∨ s'.nextExpectedEvent = .contractReady) := by
  refine post_bind_bind.mpr <| post_throwIf_bind.mpr ⟨fun _ => ⟨fun _ h => h, by simp⟩, fun _ => ?_⟩
  refine post_bind_bind.mpr <| post_get_bind.mpr <| post_bind_bind.mpr ?_
  refine post_throwIf_bind.mpr ⟨fun _ => ⟨fun _ h => h, by simp⟩, fun _ => post_bind_bind.mpr ?_⟩
  refine post_throwIf_bind.mpr ⟨fun _ => ⟨fun _ h => h, by simp⟩, fun _ => post_bind_bind.mpr ?_⟩
  refine post_modify_bind.mpr <| post_bind_bind.mpr ?_
  have hd (sw) (h : Dated sw s) : Dated sw { s with nextExpectedEvent := .contractReady } :=
    ⟨h.swap, h.t1, h.t2⟩
  refine post_throwIf_bind.mpr ⟨fun _ => ⟨hd, by simp⟩, fun _ => post_bind_bind.mpr ?_⟩
  refine post_modify_bind.mpr <| post_throwIf_bind.mpr ⟨fun _ => ⟨?_, by simp⟩, fun _ => ?_⟩
  · exact fun _ h => ⟨h.swap, h.t1, h.t2⟩
  · exact ⟨fun _ h => ⟨h.swap, h.t1, h.t2⟩, fun _ => rfl, .inr rfl⟩

end Lock

section Start

variable {ic : InitiateCalls} {keys : SendKeysMessage} {offer : Offer}

theorem initiate_next {provides : Decimal} {desired : Coins.EthAssetAmount}
    (h : initiate b ic offer provides desired = .ok s) : s.nextExpectedEvent = .ethLocked := by
  cases hu : ic.unlockedBalance
  case none => simp [initiate, hu] at h
  case some =>
    cases hh : ic.ethHeader
    case none => simp [initiate, newSwapStateFromStart, hu, hh] at h
    case some =>
      cases hg : ic.generateKeys
      case none => simp [initiate, newSwapStateFromStart, hu, hh, hg] at h
      case some =>
        simp only [initiate, newSwapStateFromStart, newSwapState, hu, hh, hg, Except.bind_ok_iff,
          Except.pure_ok_iff] at h
        obtain ⟨_, _, _, _, _, _, s₁, ⟨_, _, _, _, _, _, s₂, ⟨_, _, h₂⟩, h₁⟩, _, _, h⟩ := h
        rw [← h, ← h₁, ← h₂]
        rfl

theorem handleInitiateMessage_next (h : handleInitiateMessage b ec ic keys = .ok s) :
    s.nextExpectedEvent = .ethLocked := by
  cases hg : ic.getOffer keys.offerID
  case none => simp [handleInitiateMessage, hg] at h
  case some offer =>
    simp only [handleInitiateMessage, handleSendKeysMessage, hg, Except.bind_ok_iff,
      Except.pure_ok_iff] at h
    obtain ⟨_, _, _, _, _, _, _, _, _, _, _, _, _, _, _, _, s₁, hi, s₂, ⟨_, _, _, _, _, _, hk⟩, _,
      _, h⟩ := h
    have hn := initiate_next hi
    rw [← h, ← hk]
    exact hn

theorem newSwapStateFromOngoing_kept {newTxSender newSwapCreator : Bool}
    {ethSwapInfo : EthereumSwapInfo} {info : Info}
    (h : newSwapStateFromOngoing b newTxSender newSwapCreator offer ethSwapInfo info = .ok s) :
    Kept ethSwapInfo.swap s := by
  simp only [newSwapStateFromOngoing, newSwapState, Except.bind_ok_iff, Except.failIf_eq_ok,
    Except.pure_ok_iff] at h
  have ⟨_, hi, _, ⟨_, _, hs⟩, _, _, h⟩ := h
  rw [← h, ← hs]
  refine ⟨⟨rfl, rfl, rfl⟩, ?_⟩
  simp_all [nextExpectedEventFromStatus]

end Start

namespace Loop

variable {m : Loop} {n : ℕ} {ok ready written : Bool} {e : Event}

-- Once the maker has locked its Monero, it never handles an `EventETHLocked` again.
def Locked (sw : SwapCreatorSwap) (m : Loop) : Prop :=
  match m.control with
  | .checkETHLocked _ | .prepareLock _ => False
  | _                                  => Kept sw m.swap

-- Before that, it does not wait for the contract.
def Unlocked (m : Loop) : Prop :=
  match m.control with
  | .transfer | .claimFunds _ | .exitWait _  => False
  | .prepareLock _                           =>
    (∃ sw, Dated sw m.swap) ∧ m.swap.nextExpectedEvent ≠ .contractReady
  | _                                        => m.swap.nextExpectedEvent ≠ .contractReady

section Locked

theorem Locked.kept (h : m.Locked sw) : Kept sw m.swap := by
  unfold Locked at h
  split at h
  case h_1 => contradiction
  case h_2 => contradiction
  case h_3 => exact h

theorem clearNextExpectedEvent_kept (h : Kept sw m.swap) (status : Status) :
    Kept sw (m.clearNextExpectedEvent status).swap :=
  ⟨⟨h.dated.swap, h.dated.t1, h.dated.t2⟩, by simp [clearNextExpectedEvent]⟩

theorem returns_locked (h : Kept sw m.swap) : (m.returns n).Locked sw := by
  cases n <;> exact h

theorem exit_locked (h : Kept sw m.swap) : (m.exit n).Locked sw := by
  unfold exit
  split
  case h_1 => exact h
  case h_2 => exact h
  case h_3 => exact clearNextExpectedEvent_kept h _

theorem handleEventContractReady_locked (h : Kept sw m.swap) :
    (m.handleEventContractReady n).Locked sw := by
  unfold handleEventContractReady
  split
  case isTrue  => exact h
  case isFalse => exact ⟨⟨h.dated.swap, h.dated.t1, h.dated.t2⟩, h.next⟩

theorem handleEvent_locked (h : Kept sw m.swap) (hc : m.control = .runHandleEvents) :
    (m.handleEvent e).Locked sw := by
  have hm : m.Locked sw := by simpa [Locked, hc] using h
  cases e <;> simp only [handleEvent]
  case ethLocked =>
    split
    case isTrue hn => exact absurd hn h.next
    case isFalse   => exact hm
  case contractReady =>
    split
    case isTrue  => exact handleEventContractReady_locked h
    case isFalse => exact hm
  case ethRefunded => exact h
  case exit        => exact exit_locked h

theorem handleEventInExit_locked (h : Kept sw m.swap) : (m.handleEventInExit n e).Locked sw := by
  cases e
  case contractReady => exact handleEventContractReady_locked h
  all_goals exact h

theorem transferred_locked (h : Kept sw m.swap) : (m.transferred ok).Locked sw := by
  unfold transferred
  split
  case isTrue  => exact h
  case isFalse => exact exit_locked h

theorem claimed_locked (h : Kept sw m.swap) : (m.claimed n ok).Locked sw := by
  unfold claimed
  split
  case isTrue  => exact returns_locked (clearNextExpectedEvent_kept h _)
  case isFalse => exact exit_locked h

theorem sweeping_locked (h : Kept sw m.swap) : (m.sweeping n ready written).Locked sw := by
  have hs : Kept sw { m.swap with info.status := .sweepingXMR } :=
    ⟨⟨h.dated.swap, h.dated.t1, h.dated.t2⟩, h.next⟩
  unfold sweeping
  repeat' split
  · exact returns_locked h
  · exact returns_locked hs
  · exact hs

theorem swept_locked (h : Kept sw m.swap) : (m.swept n ok).Locked sw := by
  unfold swept
  split
  case isTrue => exact returns_locked h
  case isFalse =>
    cases n
    case zero => exact exit_locked (clearNextExpectedEvent_kept h _)
    case succ => exact returns_locked (clearNextExpectedEvent_kept h _)

theorem completed_locked (h : Kept sw m.swap) : (m.completed n ok).Locked sw := by
  unfold completed
  dsimp only
  repeat' split
  · exact returns_locked h
  · exact h
  · exact returns_locked h

theorem handleClaimedLogs_locked {log : Log} (h : m.Locked sw) :
    (m.handleClaimedLogs log).Locked sw := by
  unfold handleClaimedLogs
  split
  case h_1 =>
    have hk := clearNextExpectedEvent_kept h.kept .completedSuccess
    unfold Locked at h ⊢
    split <;> simp_all [clearNextExpectedEvent]
  case h_2 => exact h

theorem step_locked (i : Input) (h : m.Locked sw) : (m.step b i).Locked sw := by
  have hs := step_step b m i
  generalize m.step b i = m' at hs ⊢
  cases hs
  case idle       => exact h
  case claimedLog => exact handleClaimedLogs_locked h
  case ctxDone    => exact h.kept
  all_goals
    rename_i hc
    simp only [Locked, hc] at h
  case event       => exact handleEvent_locked h hc
  case eventInExit => exact handleEventInExit_locked h
  case transferred => exact transferred_locked h
  case claimed     => exact claimed_locked h
  case sweeping    => exact sweeping_locked h
  case swept       => exact swept_locked h
  case completed   => exact completed_locked h

end Locked

section Unlocked

variable (hn : m.swap.nextExpectedEvent ≠ .contractReady)

include hn

theorem returns_unlocked : (m.returns n).Unlocked := by
  cases n <;> exact hn

theorem exit_unlocked : (m.exit n).Unlocked := by
  unfold exit
  split
  case h_1 => contradiction
  case h_2 => exact hn
  case h_3 => exact nofun

theorem handleEvent_unlocked (hc : m.control = .runHandleEvents) : (m.handleEvent e).Unlocked := by
  have hm : m.Unlocked := by simpa [Unlocked, hc] using hn
  cases e <;> simp only [handleEvent]
  case ethLocked =>
    split
    case isTrue  => exact hn
    case isFalse => exact hm
  case contractReady => rw [if_neg hn]; exact hm
  case ethRefunded   => exact hn
  case exit          => exact exit_unlocked hn

theorem checked_unlocked : (m.checked b msg ec calls).Unlocked := by
  have hk : (amountToLock b ec calls msg m.swap).snd.nextExpectedEvent = _ :=
    amountToLock_keeps untouched_nextExpectedEvent m.swap
  unfold checked resume
  split
  case h_1 hr =>
    rw [hr] at hk
    exact ⟨⟨_, checkETHLocked_dated.result (amountToLock_ok hr) rfl⟩, hk ▸ hn⟩
  case h_2 hr =>
    rw [hr] at hk
    split
    case isTrue  => exact hk.trans_ne hn
    case isFalse => exact exit_unlocked (hk ▸ hn)

-- Whatever fails, the maker waits for the contract as soon as the transfer may be asked for.
theorem prepared_unlocked (hd : Dated sw m.swap) :
    (m.prepared calls amount).Unlocked ∨ (m.prepared calls amount).Locked sw := by
  simp only [prepared, resume]
  split
  case h_1 hr =>
    obtain ⟨hd', hc, _⟩ := startTransfer_post.result hr
    exact .inr ⟨hd' sw hd, by simp [hc rfl]⟩
  case h_2 hr =>
    obtain ⟨hd', _, hc⟩ := startTransfer_post.result hr
    split <;> cases hc
    case isTrue.inl hc  => exact .inl <| hc.trans_ne hn
    case isTrue.inr hc  => exact .inr <| ⟨hd' sw hd, by simp [hc]⟩
    case isFalse.inl hc => exact .inl <| exit_unlocked (hc ▸ hn)
    case isFalse.inr hc => exact .inr <| exit_locked ⟨hd' sw hd, by simp [hc]⟩

theorem sweeping_unlocked : (m.sweeping n ready written).Unlocked := by
  unfold sweeping
  repeat' split
  · exact returns_unlocked hn
  · exact returns_unlocked hn
  · exact hn

theorem completed_unlocked : (m.completed n ok).Unlocked := by
  unfold completed
  dsimp only
  repeat' split
  · exact returns_unlocked hn
  · trivial
  · exact returns_unlocked hn

theorem swept_unlocked : (m.swept n ok).Unlocked := by
  unfold swept
  split
  case isTrue => exact returns_unlocked hn
  case isFalse =>
    cases n
    case zero => exact exit_unlocked nofun
    case succ => exact returns_unlocked nofun

omit hn in
theorem handleClaimedLogs_unlocked {log : Log} (h : m.Unlocked) :
    (m.handleClaimedLogs log).Unlocked := by
  unfold handleClaimedLogs
  split
  case h_1 =>
    cases hc : m.control <;> simp only [Unlocked, hc, clearNextExpectedEvent] at h ⊢
    case prepareLock =>
      obtain ⟨⟨sw, hd⟩, _⟩ := h
      exact ⟨⟨sw, hd.swap, hd.t1, hd.t2⟩, by simp⟩
    all_goals simp
  case h_2 => exact h

omit hn in
theorem step_unlocked (i : Input) (h : m.Unlocked) :
    (m.step b i).Unlocked ∨ ∃ sw, (m.step b i).Locked sw := by
  have hs := step_step b m i
  generalize m.step b i = m' at hs ⊢
  cases hs
  case idle       => exact .inl h
  case claimedLog => exact .inl <| handleClaimedLogs_unlocked h
  case ctxDone hc => exact .inl <| by simpa [Unlocked, hc] using h
  all_goals
    rename_i hc
    simp only [Unlocked, hc] at h
  case event     => exact .inl <| handleEvent_unlocked h hc
  case checked   => exact .inl <| checked_unlocked h
  case prepared  =>
    obtain ⟨⟨sw, hd⟩, hn⟩ := h
    exact (prepared_unlocked hn hd).imp_right fun h => ⟨sw, h⟩
  case sweeping  => exact .inl <| sweeping_unlocked h
  case swept     => exact .inl <| swept_unlocked h
  case completed => exact .inl <| completed_unlocked h

end Unlocked

section Claiming

@[simp]
theorem exit_claiming : (m.exit n).claiming = false := by
  unfold exit
  split <;> rfl

@[simp]
theorem returns_claiming : (m.returns n).claiming = false := by
  cases n <;> rfl

@[simp]
theorem resume_claiming {α : Type} {r : Except Error α × SwapState} {next : α → Control}
    (hn : ∀ a k, next a ≠ .claimFunds k) : (m.resume r next).claiming = false := by
  unfold resume
  split
  case h_1 a _ =>
    unfold claiming
    split
    case h_1 k hc => exact absurd hc (hn a k)
    case h_2      => rfl
  case h_2 =>
    split
    case isTrue  => rfl
    case isFalse => exact exit_claiming

theorem handleEvent_claiming (he : e ≠ .contractReady) (hc : m.control = .runHandleEvents) :
    (m.handleEvent e).claiming = false := by
  have hm : m.claiming = false := by simp [claiming, hc]
  cases e <;> simp only [handleEvent]
  case ethLocked     => split; exacts [rfl, hm]
  case contractReady => contradiction
  case ethRefunded   => rfl
  case exit          => exact exit_claiming

-- Only an `EventContractReady` leads to a claim.
theorem step_claiming {i : Input} (h : (m.step b i).claiming) (hi : i ≠ .event .contractReady) :
    m.claiming := by
  have hs := step_step b m i
  generalize m.step b i = m' at hs h
  cases hs
  case idle       => exact h
  case claimedLog =>
    unfold handleClaimedLogs at h
    split at h <;> exact h
  case ctxDone  => contradiction
  case event hc => simp [handleEvent_claiming (by simpa using hi) hc] at h
  case eventInExit e hc =>
    cases e
    case contractReady => contradiction
    all_goals contradiction
  case checked  => simp [checked] at h
  case prepared => simp [prepared] at h
  case transferred =>
    unfold transferred at h
    split at h
    · contradiction
    · simp at h
  case claimed hc => simp [claiming, hc]
  case sweeping =>
    unfold sweeping at h
    repeat' split at h
    · simp at h
    · simp at h
    · contradiction
  case swept n _ _ =>
    unfold swept at h
    split at h
    · simp at h
    · cases n <;> simp at h
  case completed =>
    unfold completed at h
    dsimp only at h
    repeat' split at h
    · simp at h
    · contradiction
    · simp at h

-- An `EventContractReady` that the loop receives leads to a claim.
def heeds (m : Loop) : Bool :=
  match m.control with
  | .runHandleEvents => m.swap.nextExpectedEvent = .contractReady
  | .exitWait _      => true
  | _                => false

theorem heeds_of_claiming (h : (m.step b (.event .contractReady)).claiming)
    (hr : m.receives) : m.heeds := by
  cases hc : m.control <;> simp [receives, hc] at hr
  case exitWait        => simp [heeds, hc]
  case runHandleEvents =>
    simp only [step, hc, handleEvent] at h
    split at h
    case isTrue hn => simp [heeds, hc, hn]
    case isFalse   => simp [claiming, hc] at h

end Claiming

theorem Unlocked.next (h : m.Unlocked) : m.swap.nextExpectedEvent ≠ .contractReady := by
  unfold Unlocked at h
  split at h
  case h_4 => exact h.right
  case h_5 => exact h
  all_goals exact h.elim

theorem Unlocked.not_heeds (h : m.Unlocked) : m.heeds = false := by
  cases hc : m.control <;> simp_all [Unlocked, heeds]

end Loop

namespace ClaimCall

variable {r : ClaimCall}

-- The function `claim` of the contract does not revert because of the time.
def Allowed (r : ClaimCall) : Prop :=
  ∃ sw ∈ r.swap, r.now < sw.pack.timeout2 ∧ (r.stage = .ready ∨ sw.pack.timeout1 ≤ r.now)

instance : Decidable r.Allowed :=
  inferInstanceAs (Decidable (∃ sw ∈ r.swap, _))

theorem allowed_iff_passes {d : Deployment} {s : State} {v : Uint256} {x : Bytes32}
    (hs : r.swap = some sw) (hr : s.swaps (swapID d sw.pack) = r.stage) (ho : r.stage.IsOpen)
    (hx : Secp256k1.mulVerify d.host x sw.claimCommitment) :
    r.Allowed ↔ Passes (SwapCreator.claim d ⟨r.now⟩ ⟨sw.pack.claimer, v⟩ sw.pack x) s := by
  rw [claim_passes_iff, hr]
  simp [Allowed, hs, ho, show sw.pack.claimCommitment = sw.claimCommitment from rfl, hx,
    and_comm, or_comm]

end ClaimCall

namespace TimedLoop

variable {m : TimedLoop} {i : Input}

-- The swap has been set to ready, or `t1` has passed.
def Opened (b : Backend) (m : TimedLoop) (sw : SwapCreatorSwap) : Prop :=
  m.stages (sw.swapID b.host) = .ready ∨ sw.pack.timeout1 ≤ m.now

instance : Decidable (m.Opened b sw) :=
  inferInstanceAs (Decidable (_ ∨ _))

-- The watcher sends an `EventContractReady` for the log.
def notices (m : TimedLoop) (log : Log) : Bool :=
  !m.readyEventSent && (checkSwapID log readyTopic m.loop.swap.contractSwapID).isOk

-- An `EventContractReady` of the watcher is on its way, or the calls of `claimFunds` have not been
-- answered.
def pursues (m : TimedLoop) : Bool :=
  0 < m.watcher.sending || m.loop.claiming

-- The Ready log arrives when the maker waits for the contract and the swap is open. From then on
-- nobody changes the stage of the swap before `t1`. Events are received before `t2`, and no block
-- reaches `t2` until the calls of `claimFunds` have been answered.
def Careful (b : Backend) (m : TimedLoop) : TimedInput → Prop
  | .readyLog log        => m.notices log → m.loop.swap.nextExpectedEvent = .contractReady ∧
    ∀ sw ∈ m.loop.swap.contractSwap, m.Opened b sw
  | .stageMined id stage => m.pursues → ∀ sw ∈ m.loop.swap.contractSwap,
    sw.swapID b.host = id → stage = .ready ∨ sw.pack.timeout1 ≤ m.now
  | .t1Event             => m.loop.heeds → ∀ sw ∈ m.loop.swap.contractSwap,
    Representable sw.timeout1 ∧ m.now < sw.pack.timeout2
  | .readyEvent          => m.loop.heeds → ∀ sw ∈ m.loop.swap.contractSwap,
    m.now < sw.pack.timeout2
  | .block now           => Representable now.toNat ∧
    (m.loop.claiming → ∀ sw ∈ m.loop.swap.contractSwap, now < sw.pack.timeout2)
  | _                    => True

instance {i : TimedInput} : Decidable (m.Careful b i) := by
  unfold Careful
  split <;> infer_instance

structure Inv (b : Backend) (m : TimedLoop) : Prop where
  now      : Representable m.now.toNat
  phase    : m.loop.Unlocked ∧ m.t1 = {} ∨ ∃ sw, m.loop.Locked sw
  sending  : 0 < m.t1.sending → m.loop.swap.t1 ≤ blockTime m.now
  opened   : m.pursues → ∃ sw, m.loop.Locked sw ∧ m.Opened b sw
  claiming : m.loop.claiming → ∀ sw ∈ m.loop.swap.contractSwap, m.now < sw.pack.timeout2
  claims   : ∀ r ∈ m.claims, r.Allowed

theorem advance_phase (h : m.Inv b) :
    let m' := m.advance b i
    m'.loop.Unlocked ∧ m'.t1 = {} ∨ ∃ sw, m'.loop.Locked sw := by
  cases h.phase
  case inl hu =>
    refine (Loop.step_unlocked i hu.left).imp_left fun hu' => ⟨hu', ?_⟩
    refine (if_neg fun hs => ?_).trans hu.right
    simp [Loop.Unlocked, hs.left] at hu
  case inr hl =>
    have ⟨sw, hl⟩ := hl
    exact .inr ⟨sw, Loop.step_locked i hl⟩

theorem advance_t1 (hl : ∃ sw, m.loop.Locked sw) : (m.advance b i).loop.swap.t1 = m.loop.swap.t1 :=
  have ⟨_, hl⟩ := hl
  (Loop.step_locked i hl).kept.dated.t1.trans hl.kept.dated.t1.symm

theorem advance_inv (h : m.Inv b)
    (hi : i = .event .contractReady → (m.loop.step b i).claiming →
      ∃ sw, m.loop.Locked sw ∧ m.Opened b sw ∧ m.now < sw.pack.timeout2) :
    (m.advance b i).Inv b := by
  have hc (hc : (m.advance b i).loop.claiming) :
      ∃ sw, m.loop.Locked sw ∧ m.Opened b sw ∧ m.now < sw.pack.timeout2 := by
    by_cases he : i = .event .contractReady
    case pos => exact hi he hc
    case neg =>
      have hm := Loop.step_claiming hc he
      obtain ⟨sw, hl, ho⟩ := h.opened (by simp [pursues, hm])
      exact ⟨sw, hl, ho, h.claiming hm sw hl.kept.dated.swap⟩
  refine ⟨h.now, advance_phase h, fun hs => ?_, fun hp => ?_, fun hl sw hs => ?_, h.claims⟩
  case refine_1 =>
    have hs : 0 < m.t1.sending := by
      simp only [advance] at hs
      split at hs <;> exact hs
    have hl := h.phase.resolve_left fun hu => by simp [hu.right] at hs
    exact (advance_t1 hl).trans_le (h.sending hs)
  case refine_2 =>
    obtain ⟨sw, hl, ho⟩ : ∃ sw, m.loop.Locked sw ∧ m.Opened b sw := by
      cases Bool.or_eq_true_iff.mp hp
      case inl hw => exact h.opened <| Bool.or_eq_true_iff.mpr (.inl hw)
      case inr hl =>
        obtain ⟨sw, hl, ho, _⟩ := hc hl
        exact ⟨sw, hl, ho⟩
    exact ⟨sw, Loop.step_locked i hl, ho⟩
  case refine_3 =>
    obtain ⟨sw', hk, _, hw⟩ := hc hl
    have hs' := (Loop.step_locked (b := b) i hk).kept.dated.swap
    rwa [Option.some_inj.mp (hs.symm.trans hs')]

theorem reveal_inv {next : ClaimControl} (h : m.Inv b) (hc : m.loop.claiming) :
    (m.reveal b next).Inv b where
  now      := h.now
  phase    := h.phase
  sending  := h.sending
  opened   := h.opened
  claiming := h.claiming
  claims r hr := by
    cases List.mem_append.mp hr
    case inl hr => exact h.claims r hr
    case inr hr =>
      obtain ⟨sw, hl, ho⟩ := h.opened (by simp [pursues, hc])
      have hs := hl.kept.dated.swap
      rw [List.mem_singleton.mp hr]
      exact ⟨sw, hs, h.claiming hc sw hs, by simpa only [contractStage, hs, Opened] using ho⟩

theorem goto_inv {next : ClaimControl} (h : m.Inv b) : Inv b { m with claim := next } :=
  ⟨h.now, h.phase, h.sending, h.opened, h.claiming, h.claims⟩

theorem submitToRelayers_inv {relayers : List PeerID} (h : m.Inv b) (hc : m.loop.claiming) :
    (m.submitToRelayers b relayers).Inv b := by
  unfold submitToRelayers
  split <;> exact reveal_inv h hc

theorem stepClaim_inv {c : ClaimControl} {i : TimedInput} (h : m.Inv b) (hc : m.loop.claiming) :
    (m.stepClaim b c i).Inv b := by
  have hf (ok : Bool) : (m.advance b (.claimed ok)).Inv b := advance_inv h (by simp)
  unfold stepClaim
  split
  · unfold balanceChecked
    repeat' split
    · exact hf false
    · exact goto_inv h
    · exact reveal_inv h hc
  · unfold claimSent
    split
    · exact goto_inv h
    · exact goto_inv h
    · exact hf false
  · unfold discovered
    split
    · exact reveal_inv h hc
    · exact submitToRelayers_inv h hc
  · unfold relayed
    split
    · exact goto_inv h
    · exact submitToRelayers_inv h hc
  · unfold relayedWithXMRTaker
    split
    · exact goto_inv h
    · exact hf false
  · exact hf _
  · exact h

theorem handleReadyLogs_inv {log : Log} (h : m.Inv b) (hc : m.Careful b (.readyLog log)) :
    (m.handleReadyLogs log).Inv b := by
  unfold handleReadyLogs
  split
  case isTrue     => exact h
  case isFalse hs =>
    split
    case h_2    => exact h
    case h_1 hl =>
      obtain ⟨hn, ho⟩ := hc (by simp [notices, hs, hl, Except.isOk, Except.toBool])
      obtain ⟨sw, hk⟩ := h.phase.resolve_left fun hu => hu.left.next hn
      exact ⟨h.now, h.phase, h.sending, fun _ => ⟨sw, hk, ho sw hk.kept.dated.swap⟩, h.claiming,
        h.claims⟩

theorem block_inv {now : Uint256} (h : m.Inv b) (hc : m.Careful b (.block now)) (hn : m.now ≤ now) :
    Inv b { m with now } := by
  obtain ⟨hb, hc⟩ := hc
  have hm : blockTime m.now ≤ blockTime now := (h.now.unix_le_iff hb).mpr (Int.ofNat_le.mpr hn)
  refine ⟨hb, h.phase, fun hs => (h.sending hs).trans hm, fun hp => ?_, hc, h.claims⟩
  obtain ⟨sw, hk, ho⟩ := h.opened hp
  exact ⟨sw, hk, ho.imp_right (BitVec.le_trans · hn)⟩

theorem stageMined_inv {id : Bytes32} {stage : Stage} (h : m.Inv b)
    (hc : m.Careful b (.stageMined id stage)) :
    Inv b { m with stages := update m.stages id stage } := by
  refine ⟨h.now, h.phase, h.sending, fun hp => ?_, h.claiming, h.claims⟩
  obtain ⟨sw, hk, ho⟩ := h.opened hp
  refine ⟨sw, hk, ?_⟩
  by_cases hi : sw.swapID b.host = id
  case pos => exact (hc hp sw hk.kept.dated.swap hi).imp_left fun hr => by simp [hi, hr]
  case neg => simpa [Opened, hi] using ho

-- The event has been received from the handler of `t1` or from the watcher.
theorem contractReady_inv {cause : ClaimCause} (h : m.Inv b) (hr : m.loop.receives)
    (ho : ∀ sw, m.loop.Locked sw → m.loop.heeds → m.Opened b sw ∧ m.now < sw.pack.timeout2) :
    (m.contractReady b cause).Inv b := by
  refine advance_inv ⟨h.now, h.phase, h.sending, h.opened, h.claiming, h.claims⟩ fun he hc => ?_
  have hh : m.loop.heeds := Loop.heeds_of_claiming (b := b) (he ▸ hc) hr
  obtain ⟨sw, hl⟩ := h.phase.resolve_left fun hu => by simp [hu.left.not_heeds] at hh
  exact ⟨sw, hl, ho sw hl hh⟩

theorem t1Event_inv (h : m.Inv b) (hc : m.Careful b .t1Event) (hs : 0 < m.t1.sending)
    (hr : m.loop.receives) :
    (contractReady b { m with t1 := m.t1.receive } .t1Expired).Inv b := by
  have ht := h.sending hs
  have hl := h.phase.resolve_left fun hu => by simp [hu.right] at hs
  refine contractReady_inv ⟨h.now, .inr hl, fun _ => ht, h.opened, h.claiming, h.claims⟩ hr
    fun sw hl hh => ?_
  obtain ⟨hr, hb⟩ := hc hh sw hl.kept.dated.swap
  exact ⟨.inr <| (hr.le_blockTime_iff h.now).mp (hl.kept.dated.t1 ▸ ht), hb⟩

theorem readyEvent_inv (h : m.Inv b) (hc : m.Careful b .readyEvent) (hs : 0 < m.watcher.sending)
    (hr : m.loop.receives) :
    (contractReady b { m with watcher := m.watcher.receive } .readyLog).Inv b := by
  have ho := h.opened (by simp [pursues, hs])
  refine contractReady_inv ⟨h.now, h.phase, h.sending, fun _ => ho, h.claiming, h.claims⟩ hr
    fun sw hl hh => ?_
  obtain ⟨sw', hl', ho⟩ := ho
  have he := Option.some_inj.mp (hl'.kept.dated.swap.symm.trans hl.kept.dated.swap)
  exact ⟨he ▸ ho, hc hh sw hl.kept.dated.swap⟩

theorem step_inv (m : TimedLoop) (i : TimedInput) (h : m.Inv b) (hc : m.Careful b i) :
    (m.step b i).Inv b := by
  unfold step
  split
  case h_1 =>
    split
    case isFalse => exact h
    case isTrue hw =>
      have hl := h.phase.resolve_left fun hu => by simp [hu.right] at hw
      exact ⟨h.now, .inr hl, fun _ => hw.right, h.opened, h.claiming, h.claims⟩
  case h_2 =>
    split
    case isTrue hw => exact t1Event_inv h hc hw.left hw.right
    case isFalse   => exact h
  case h_3 => exact handleReadyLogs_inv h hc
  case h_4 =>
    split
    case isTrue hw => exact readyEvent_inv h hc hw.left hw.right
    case isFalse   => exact h
  case h_5 =>
    split
    case isTrue hn => exact block_inv h hc hn
    case isFalse   => exact h
  case h_6 => exact stageMined_inv h hc
  case h_7 => exact h
  case h_8 => exact advance_inv h (by simp)
  case h_9 he _ =>
    split
    case isTrue hc => exact stepClaim_inv h hc
    case isFalse   =>
      split
      case h_1 => exact advance_inv h fun hi => by simp [hi] at he
      case h_2 => exact h

-- A swap is started, or it is found in the database after a restart.
inductive Initial (b : Backend) : TimedLoop → Prop
  | started {ec : EthClient} {ic : InitiateCalls} {keys : SendKeysMessage} {s : SwapState}
    {useRelayer : Bool} {peerID : PeerID} {now : Uint256} {stages : Bytes32 → Stage}
    (hn : Representable now.toNat) (h : handleInitiateMessage b ec ic keys = .ok s) :
    Initial b { loop := .start s, useRelayer, peerID, now, stages }
  | recovered {newTxSender newSwapCreator : Bool} {offer : Offer} {ethSwapInfo : EthereumSwapInfo}
    {info : Info} {s : SwapState} {useRelayer : Bool} {peerID : PeerID} {now : Uint256}
    {stages : Bytes32 → Stage} (hn : Representable now.toNat)
    (h : newSwapStateFromOngoing b newTxSender newSwapCreator offer ethSwapInfo info = .ok s) :
    Initial b { loop := .start s, useRelayer, peerID, now, stages, t1 := { waiting := 1 } }

theorem Initial.inv (h : Initial b m) : m.Inv b := by
  cases h
  case started hn h =>
    have hs := handleInitiateMessage_next h
    refine ⟨hn, .inl ⟨?_, rfl⟩, by simp, by simp [pursues, Loop.start, Loop.claiming],
      by simp [Loop.start, Loop.claiming], by simp⟩
    simp [Loop.Unlocked, Loop.start, hs]
  case recovered hn h =>
    have hl : (Loop.start _).Locked _ := newSwapStateFromOngoing_kept h
    exact ⟨hn, .inr ⟨_, hl⟩, by simp, by simp [pursues, Loop.start, Loop.claiming],
      by simp [Loop.start, Loop.claiming], by simp⟩

-- The secret of the maker is only revealed when the contract lets it claim, as long as events and
-- answers arrive in time, Ready logs are not replayed and nobody changes the stage meanwhile.
theorem claims_allowed {is : List TimedInput} (h₀ : Initial b m)
    (hc : Along (step b) (Careful b) is m) : ∀ r ∈ (run (step b) is m).claims, r.Allowed :=
  (run_invariant step_inv h₀.inv hc).claims

end TimedLoop

end XMRMaker

namespace XMRMaker.Sample

def timed : TimedLoop where
  loop       := .start state
  useRelayer := false
  peerID     := 7
  now        := 1700000000
  stages id  := if id = XMRMaker.Sample.swapID then .pending else .invalid

theorem timed_initial : TimedLoop.Initial backend timed :=
  .started (by decide) initiated

-- The taker does not set the contract to ready, and the maker claims after `t1`.
def claimingTimed : List TimedInput :=
  locking.map .loop ++ [.block 1700003700, .t1Expired, .t1Event, .balanceChecked (some true)]

def recovered : SwapState :=
  { state with
    info.status                := .xmrLocked
    secp256k1Pub               := none
    xmrtakerSecp256k1PublicKey := none
    swapCreatorAddr            := swapCreatorAddr
    contractSwapID             := XMRMaker.Sample.swapID
    contractSwap               := some swap
    t1                         := unix 1700003600
    t2                         := unix 1700007200
    nextExpectedEvent          := .contractReady
    recovery                   := some ⟨90, XMRMaker.Sample.swapID, swap, swapCreatorAddr⟩ }

-- The taker has refunded after `t2`, and then the daemon is restarted.
def timedRefunded : TimedLoop where
  loop       := .start recovered
  useRelayer := false
  peerID     := 7
  now        := 1700007300
  stages id  := if id = XMRMaker.Sample.swapID then .completed else .invalid
  t1         := { waiting := 1 }

theorem timedRefunded_initial : TimedLoop.Initial backend timedRefunded := by
  have h : newSwapStateFromOngoing backend true true offer
      ⟨90, XMRMaker.Sample.swapID, swap, swapCreatorAddr⟩
      { state.info with status := .xmrLocked } = .ok recovered := by
    decide
  exact .recovered (by decide) h

-- The watcher finds the log of the time when the contract was set to ready.
def replaying : List TimedInput :=
  [.readyLog <| Event.ready XMRMaker.Sample.swapID |>.toLog swapCreatorAddr 120, .readyEvent,
    .balanceChecked (some true)]

end XMRMaker.Sample

namespace XMRMaker.TimedLoop

open XMRMaker.Sample

theorem claims_allowed_claiming :
    let m := run (step backend) claimingTimed timed
    m.claims ≠ [] ∧ ∀ r ∈ m.claims, r.Allowed := by
  exact ⟨by decide +kernel, claims_allowed timed_initial (by decide +kernel)⟩

theorem claim_after_refund :
    Initial backend timedRefunded ∧
    ∃ r ∈ (run (step backend) replaying timedRefunded).claims,
      r.stage = .completed ∧ r.now = 1700007300 ∧ ¬r.Allowed :=
  ⟨timedRefunded_initial, by decide +kernel⟩

end XMRMaker.TimedLoop
