import AtomicSwap.Ethereum.SwapCreator.Theorems.Exclusion
import AtomicSwap.Protocol.XMRTaker.Expiration
import AtomicSwap.Protocol.XMRTaker.Theorems.Tracking

open Ethereum SwapCreator Machine

namespace XMRTaker

namespace Loop

variable {b : Backend} {sw : SwapCreatorSwap} {m m' : Loop} {i : Input} {site : RefundSite}
variable {ok text inExit : Bool} {e : EventType}

theorem calledRefund_eq_some :
    m.calledRefund m' = some site ↔ m'.refundSite = some site ∧ m.refundSite ≠ some site := by
  unfold calledRefund
  split
  case isTrue he => simp [he]
  case isFalse he => exact ⟨fun h => ⟨h, h ▸ he⟩, And.left⟩

section Sites

@[simp]
theorem setNextExpectedEvent_refundSite : (m.setNextExpectedEvent e).refundSite = none := by
  unfold setNextExpectedEvent
  split <;> rfl

@[simp]
theorem exit_refundSite : m.exit.refundSite = none := by
  unfold exit
  split <;> rfl

@[simp]
theorem keysReceivedFailed_refundSite : m.keysReceivedFailed.refundSite = none := by
  unfold keysReceivedFailed
  split
  case isTrue  =>
    unfold setNextExpectedEvent
    split <;> rfl
  case isFalse => rfl

@[simp]
theorem claimMoneroFailed_refundSite : (m.claimMoneroFailed inExit).refundSite = none := by
  cases inExit
  case false => exact exit_refundSite
  case true  => rfl

@[simp]
theorem moneroClaimed_refundSite : (m.moneroClaimed inExit).refundSite = none := by
  unfold moneroClaimed
  split
  case isTrue  => rfl
  case isFalse =>
    cases inExit
    case false =>
      exact exit_refundSite (m := { m.clearNextExpectedEvent _ with claimedClosed := _ })
    case true => rfl

@[simp]
theorem claimMonero_refundSite : (m.claimMonero inExit).refundSite = none := by
  unfold claimMonero
  split
  case isTrue  => rfl
  case isFalse => exact claimMoneroFailed_refundSite

@[simp]
theorem tryClaim_refundSite : m.tryClaim.refundSite = none := by
  unfold tryClaim
  split <;> rfl

theorem waitOrRefund_refundSite {ts : Time} :
    (m.waitOrRefund ts).refundSite = if m.swap.t2 < ts then some .final else none := by
  unfold waitOrRefund
  split <;> rfl

theorem afterRefund_refundSite {r : RefundResult} {site' : RefundSite}
    (h : (m.afterRefund site r).refundSite = some site') :
    site' = .final ∧ ∃ ts, site = .early ts ∧ m.swap.t2 < ts := by
  unfold afterRefund at h
  split at h
  case h_1 => simp at h
  case h_3 =>
    rw [waitOrRefund_refundSite] at h
    split at h
    case isTrue ht => cases h; exact ⟨rfl, _, rfl, ht⟩
    case isFalse   => contradiction
  case h_5 => simp at h
  all_goals contradiction

theorem refund_t2 : (m.refund b sw ok text).snd.swap.t2 = m.swap.t2 := by
  unfold refund
  dsimp only
  repeat' split
  all_goals rfl

theorem waitOrRefund_stages {ts : Time} : (m.waitOrRefund ts).stages = m.stages := by
  unfold waitOrRefund
  split <;> rfl

theorem refundTimestamp_stages {isReady : Bool} {ts : Option Time} :
    (m.refundTimestamp isReady ts).stages = m.stages := by
  unfold refundTimestamp
  repeat' split
  · rfl
  · rfl
  · exact waitOrRefund_stages

-- A refund that is followed by another one has not succeeded.
theorem refundSent_stages {ts : Time}
    (h : (m.refundSent b (.early ts) ok text).refundSite = some site) :
    (m.refundSent b (.early ts) ok text).stages = m.stages := by
  unfold refundSent at h ⊢
  split at h
  case h_1 =>
    split
    case isTrue  => rfl
    case isFalse => exact waitOrRefund_stages
  case h_2 sw _ =>
    have hk : (m.refund b sw ok text).fst ≠ .refunded → (m.refund b sw ok text).snd = m :=
      refund_stage
    generalize m.refund b sw ok text = r at h hk ⊢
    obtain ⟨result, m'⟩ := r
    cases result
    case refunded      => contradiction
    case swapCompleted => exact waitOrRefund_stages.trans (congrArg _ <| hk (by simp))
    case failed        => exact waitOrRefund_stages.trans (congrArg _ <| hk (by simp))

end Sites

-- What can lead to a call of `refund`.
inductive Leads (m : Loop) : Input → RefundSite → Prop
  | shouldRefund (hc : m.control = .runHandleEvents) (ho : m.swap.info.status.isOngoing) :
    m.Leads (.event .shouldRefund) .shouldRefund
  | waiting (hc : m.control = .waitT2) : m.Leads (.event .shouldRefund) .final
  | early {ts : Time} (hc : m.control = .refundTimestamp false)
    (h : ts < m.swap.t1) : m.Leads (.timestamp <| some ts) (.early ts)
  | late {isReady : Bool} {ts : Time} (hc : m.control = .refundTimestamp isReady)
    (h : m.swap.t2 < ts) : m.Leads (.timestamp <| some ts) .final
  | waited (hc : m.control = .waitT2) : m.Leads (.waited true) .final
  | again {ok text : Bool} {ts : Time} (hc : m.control = .refund (.early ts))
    (h : m.swap.t2 < ts) : m.Leads (.refundSent ok text) .final

theorem step_leads (h : (m.step b i).refundSite = some site) (hn : m.refundSite ≠ some site) :
    m.Leads i site := by
  have hs := step_step b m i
  generalize m.step b i = m' at hs h
  cases hs
  case idle         => contradiction
  case newSwapMined => contradiction
  case stageMined   =>
    rw [refundSite, stageMined_control] at h
    contradiction
  case ctxDone      => contradiction
  case event e hc =>
    cases e <;> simp only [handleEvent] at h
    case keysReceived => split at h <;> contradiction
    case xmrLocked =>
      unfold handleNotifyXMRLock at h
      repeat' split at h
      all_goals contradiction
    case ethClaimed =>
      split at h
      · simp at h
      · contradiction
    case shouldRefund =>
      unfold handleEventShouldRefund at h
      split at h
      case isTrue ho => cases h; exact .shouldRefund hc ho
      case isFalse => simp at h
    case exit => simp at h
  case eventWaiting e hc =>
    cases e <;> simp only [handleEventWaiting] at h <;> try contradiction
    case ethClaimed   => simp at h
    case shouldRefund => cases h; exact .waiting hc
  case keysChecked =>
    unfold keysChecked at h
    repeat' split at h
    · contradiction
    · contradiction
    · simp at h
  case newSwapped =>
    unfold newSwapped at h
    dsimp only at h
    repeat' split at h
    · simp at h
    · contradiction
    · contradiction
    · simp at h
  case messageSent =>
    unfold messageSent at h
    split at h <;> simp at h
  case swapWritten ok _ => cases ok <;> contradiction
  case readyStageRead =>
    unfold readyStageRead at h
    repeat' split at h
    all_goals first | contradiction | simp at h
  case readySent =>
    unfold readySent at h
    dsimp only at h
    repeat' split at h
    all_goals first | contradiction | simp at h
  case sweeping =>
    unfold sweeping at h
    repeat' split at h
    all_goals first | contradiction | simp at h
  case swept =>
    unfold swept at h
    split at h <;> simp at h
  case refundStageRead =>
    unfold refundStageRead at h
    repeat' split at h
    all_goals first | contradiction | simp at h
  case refundTimestamp isReady ts hc =>
    unfold refundTimestamp at h
    split at h
    · contradiction
    · split at h
      case isTrue ht =>
        cases h
        obtain rfl : isReady = false := by simpa using ht.right
        exact .early hc ht.left
      case isFalse =>
        rw [waitOrRefund_refundSite] at h
        split at h
        case isTrue ht => cases h; exact .late hc ht
        case isFalse   => contradiction
  case refundSent hc =>
    unfold refundSent at h
    split at h
    case h_1 =>
      split at h
      case isTrue => contradiction
      case isFalse =>
        obtain ⟨hf, ts, hs, ht⟩ := afterRefund_refundSite h
        exact hf ▸ .again (hs ▸ hc) ht
    case h_2 =>
      obtain ⟨hf, ts, hs, ht⟩ := afterRefund_refundSite h
      exact hf ▸ .again (hs ▸ hc) (refund_t2.symm.trans_lt ht)
  case waited ok hc =>
    cases ok
    case false => contradiction
    case true  => cases h; exact .waited hc
  case filtered =>
    unfold filtered at h
    repeat' split at h
    all_goals first | contradiction | simp at h
  case completed =>
    unfold completed at h
    repeat' split at h
    all_goals contradiction

-- A step that leads to a call leaves the chain as it is.
theorem Leads.stages (h : m.Leads i site) (hs : (m.step b i).refundSite = some site) :
    (m.step b i).stages = m.stages := by
  cases h
  case shouldRefund hc _ =>
    simp only [step, hc]
    exact (handleEvent_idles hc).stages
  case waiting hc =>
    simp only [step, hc]
    rfl
  case early hc _ =>
    simp only [step, hc]
    exact refundTimestamp_stages
  case late hc _ =>
    simp only [step, hc]
    exact refundTimestamp_stages
  case waited hc =>
    simp only [step, hc]
    rfl
  case again hc _ =>
    simp only [step, hc] at hs ⊢
    exact refundSent_stages hs

theorem Leads.not_panicked (h : m.Leads i site) : m.control ≠ .panicked := by
  cases h <;> simp_all

theorem Leads.not_unlocked (h : m.Leads i site) (hi : i ≠ .event .shouldRefund) : ¬m.Unlocked := by
  intro hu
  cases h <;> simp_all [Unlocked]

end Loop

namespace RefundCall

variable {r : RefundCall} {sw : SwapCreatorSwap}

-- The function `refund` of the contract does not revert because of the time.
def InTime (r : RefundCall) : Prop :=
  ∃ sw ∈ r.swap, sw.pack.timeout2 ≤ r.now ∨ r.now ≤ sw.pack.timeout1 ∧ r.stage ≠ .ready

instance : Decidable r.InTime :=
  inferInstanceAs (Decidable (∃ sw ∈ r.swap, _))

def Allowed (r : RefundCall) : Prop :=
  r.stage.IsOpen ∧ r.InTime

instance : Decidable r.Allowed :=
  inferInstanceAs (Decidable (_ ∧ _))

theorem allowed_iff_passes {d : Deployment} {s : State} {v : Uint256} {y : Bytes32}
    (hs : r.swap = some sw) (hr : s.swaps (swapID d sw.pack) = r.stage)
    (hy : Secp256k1.mulVerify d.host y sw.refundCommitment) :
    r.Allowed ↔ Passes (SwapCreator.refund d ⟨r.now⟩ ⟨sw.pack.owner, v⟩ sw.pack y) s := by
  rw [refund_passes_iff, hr]
  simp [Allowed, InTime, hs, show sw.pack.refundCommitment = sw.refundCommitment from rfl, hy]

end RefundCall

namespace Loop

-- An `EventShouldRefund` that the loop receives leads to a refund.
def heeds (m : Loop) : Bool :=
  m.control = .waitT2 ∨ m.control = .runHandleEvents ∧ m.swap.info.status.isOngoing

theorem Leads.heeds {m : Loop} {site : RefundSite} (h : m.Leads (.event .shouldRefund) site) :
    m.heeds := by
  cases h <;> simp_all [Loop.heeds]

end Loop

namespace TimedLoop

variable {b : Backend} {m : TimedLoop} {sw : SwapCreatorSwap} {i : Input}
variable {cause : RefundSite → RefundCause}

-- The event of the handler of `t1` arrives before `t1` and before the taker has made the swap ready
-- or finds it so after a restart, and that of the handler of `t2` arrives before somebody has
-- completed the swap. Blocks have timestamps that their clients can represent.
def Careful (b : Backend) (m : TimedLoop) : TimedInput → Prop
  | .loop i    => m.loop.Watched b i
  | .t1Event   => m.loop.heeds →
    m.loop.swap.nextExpectedEvent = .xmrLocked ∧ blockTime m.now ≤ m.loop.swap.t1
  | .t2Event   => m.loop.heeds → m.loop.stage ≠ .completed
  | .block now => Representable now.toNat
  | _          => True

instance {i : TimedInput} : Decidable (m.Careful b i) := by
  unfold Careful
  split <;> infer_instance

structure Inv (b : Backend) (m : TimedLoop) : Prop where
  now     : Representable m.now.toNat
  phase   : m.loop.Unlocked ∧ m.t1 = {} ∧ m.t2 = {} ∨
    ∃ sw, m.loop.Locked sw ∧ m.loop.Tracked b sw
  sending : 0 < m.t2.sending → m.loop.swap.t2 ≤ blockTime m.now
  early   : ∀ ts, m.loop.refundSite = some (.early ts) → ts ≤ blockTime m.now
  refunds : ∀ r ∈ m.refunds, r.Allowed

-- What is known of the time and of the stage when `refund` is called.
def Justified (m : TimedLoop) : RefundCause → Prop
  | .t1Expired | .beforeT1 => m.loop.stage = .pending ∧ blockTime m.now ≤ m.loop.swap.t1
  | _                      => m.loop.stage ≠ .completed ∧ m.loop.swap.t2 ≤ blockTime m.now

theorem Justified.allowed {c : RefundCause} (h : m.Justified c) (hn : Representable m.now.toNat)
    (hw : Noted sw m.loop.swap) (ht : m.loop.Tracks b sw) :
    RefundCall.Allowed ⟨c, some sw, m.loop.stage, m.now⟩ := by
  obtain ⟨h₁, h₂, _⟩ := ht.inTime
  have hp (h : m.loop.stage = .pending ∧ blockTime m.now ≤ m.loop.swap.t1) :
      RefundCall.Allowed ⟨c, some sw, m.loop.stage, m.now⟩ := by
    refine ⟨by simp [h.left, Stage.IsOpen], sw, rfl, .inr ⟨?_, by simp [h.left]⟩⟩
    exact (h₁.blockTime_le_iff hn).mp (hw.t1 ▸ h.right)
  have hl (h : m.loop.stage ≠ .completed ∧ m.loop.swap.t2 ≤ blockTime m.now) :
      RefundCall.Allowed ⟨c, some sw, m.loop.stage, m.now⟩ := by
    refine ⟨?_, sw, rfl, .inl <| (h₂.le_blockTime_iff hn).mp (hw.t2 ▸ h.right)⟩
    have := ht.created
    cases hs : m.loop.stage <;> simp_all [Stage.IsOpen]
  cases c
  case t1Expired => exact hp h
  case beforeT1  => exact hp h
  all_goals exact hl h

theorem Inv.locked (h : m.Inv b) {site : RefundSite} (hl : m.loop.Leads i site)
    (hi : i = .event .shouldRefund → ∃ sw, m.loop.Locked sw ∧ m.loop.Tracked b sw) :
    ∃ sw, m.loop.Locked sw ∧ m.loop.Tracked b sw :=
  h.phase.elim (fun hu => by_contra fun hn => hl.not_unlocked (hn <| hi ·) hu.left) id

theorem advance_phase (h : m.Inv b) (hw : m.loop.Watched b i)
    (hi : i = .event .shouldRefund → ∃ sw, m.loop.Locked sw ∧ m.loop.Tracked b sw) :
    let m' := m.advance b i cause
    m'.loop.Unlocked ∧ m'.t1 = {} ∧ m'.t2 = {} ∨
      ∃ sw, m'.loop.Locked sw ∧ m'.loop.Tracked b sw := by
  by_cases hl : ∃ sw, m.loop.Locked sw ∧ m.loop.Tracked b sw
  case pos =>
    obtain ⟨sw, hl, ht⟩ := hl
    exact .inr ⟨sw, Loop.step_locked i hl, Loop.step_tracked hl ht hw⟩
  case neg =>
    obtain ⟨hu, h₁, h₂⟩ := h.phase.resolve_right hl
    rcases Loop.step_phase (b := b) hu (hl <| hi ·) with hu' | ⟨sw, hl'⟩
    · refine .inl ⟨hu', (if_neg fun hs => ?_).trans h₁, (if_neg fun hs => ?_).trans h₂⟩
      · obtain ⟨_, hs⟩ : _ ∧ _ := of_decide_eq_true hs
        simp [Loop.Unlocked, hs] at hu'
      · obtain ⟨hs, _⟩ : _ ∧ _ := of_decide_eq_true hs
        cases hs <;> simp_all [Loop.Unlocked]
    · exact .inr ⟨sw, hl', Loop.step_tracked_of_unlocked hu (hl <| hi ·) hl' hw⟩

theorem advance_refunds (h : m.Inv b)
    (hi : i = .event .shouldRefund → ∃ sw, m.loop.Locked sw ∧ m.loop.Tracked b sw)
    (hc : ∀ site sw, m.loop.Leads i site → m.loop.Tracks b sw → m.loop.Fits →
      m.Justified (cause site)) :
    ∀ r ∈ (m.advance b i cause).refunds, r.Allowed := by
  intro r hr
  cases List.mem_append.mp hr
  case inl hr => exact h.refunds r hr
  case inr hr =>
    obtain ⟨site, hs, rfl⟩ := List.mem_map.mp hr
    obtain ⟨hs, hn⟩ := Loop.calledRefund_eq_some.mp (Option.mem_toList.mp hs)
    have hl := Loop.step_leads hs hn
    obtain ⟨sw, hw, ht⟩ := h.locked hl hi
    obtain ⟨ht, hf⟩ := ht.resolve_left hl.not_panicked
    have hsw := (Loop.step_locked (b := b) i hw).noted.swap
    have hst : (m.loop.step b i).contractStage b = m.loop.stage := by
      simp only [Loop.contractStage, hsw, hl.stages hs, Loop.stage, ht.swapID]
    simp only [hsw, hst]
    exact (hc site sw hl ht hf).allowed h.now hw.noted ht

theorem advance_inv (h : m.Inv b) (hw : m.loop.Watched b i)
    (hi : i = .event .shouldRefund → ∃ sw, m.loop.Locked sw ∧ m.loop.Tracked b sw)
    (ht : ∀ ts, i = .timestamp (some ts) → ts = blockTime m.now)
    (hc : ∀ site sw, m.loop.Leads i site → m.loop.Tracks b sw → m.loop.Fits →
      m.Justified (cause site)) :
    (m.advance b i cause).Inv b where
  now     := h.now
  phase   := advance_phase h hw hi
  sending hs := by
    have hs : 0 < m.t2.sending := by
      simp only [advance] at hs
      split at hs <;> exact hs
    cases h.phase
    case inl hu => simp [hu.right.right] at hs
    case inr hl =>
      obtain ⟨sw, hl, _⟩ := hl
      exact (Loop.step_locked i hl).noted.t2.trans hl.noted.t2.symm ▸ h.sending hs
  early ts hs := by
    by_cases hn : m.loop.refundSite = some (.early ts)
    case pos => exact h.early ts hn
    case neg =>
      cases Loop.step_leads hs hn
      case early => exact (ht ts rfl).le
  refunds := advance_refunds h hi hc

theorem stepLoop_inv (h : m.Inv b) (hw : m.loop.Watched b i) : (m.stepLoop b i).Inv b := by
  unfold stepLoop
  split
  case h_1 => exact h
  case h_2 =>
    refine advance_inv h trivial (by simp) (by simp) fun site sw hl _ hf => ?_
    cases hl
    case early hc ht =>
      simp only [Loop.Fits, hc] at hf
      exact ⟨hf.right trivial, ht.le⟩
    case late hc ht  =>
      simp only [Loop.Fits, hc] at hf
      exact ⟨hf.left, ht.le⟩
  case h_3 =>
    split
    case isFalse   => exact h
    case isTrue ht =>
      refine advance_inv h trivial (by simp) (by simp) fun site sw hl _ hf => ?_
      cases hl
      case waited hc =>
        simp only [Loop.Fits, hc] at hf
        exact ⟨hf, ht⟩
  case h_4 hs ht _ =>
    refine advance_inv h hw (absurd · hs) (fun ts hi => absurd hi (ht ts)) fun site sw hl _ hf => ?_
    cases hl
    case again hc hl _ =>
      simp only [Loop.Fits, hc] at hf
      have he := h.early _ (by rw [Loop.refundSite, hc])
      exact ⟨by simp [hf], (hl.trans_le he).le⟩
    all_goals simp_all

theorem block_inv {now : Uint256} (h : m.Inv b) (hb : Representable now.toNat) (hn : m.now ≤ now) :
    Inv b { m with now } :=
  have hm : blockTime m.now ≤ blockTime now := (h.now.unix_le_iff hb).mpr (Int.ofNat_le.mpr hn)
  ⟨hb, h.phase, fun hs => (h.sending hs).trans hm, fun ts hs => (h.early ts hs).trans hm, h.refunds⟩

theorem step_inv (m : TimedLoop) (i : TimedInput) (h : m.Inv b) (hc : m.Careful b i) :
    (m.step b i).Inv b := by
  cases i <;> simp only [step]
  case loop => exact stepLoop_inv h hc
  case t1Expired =>
    split
    case isFalse => exact h
    case isTrue hw =>
      have hl := h.phase.resolve_left fun ⟨_, h₁, _⟩ => by simp [h₁] at hw
      exact ⟨h.now, .inr hl, h.sending, h.early, h.refunds⟩
  case t2Expired =>
    split
    case isFalse => exact h
    case isTrue hw =>
      have hl := h.phase.resolve_left fun ⟨_, _, h₂⟩ => by simp [h₂] at hw
      exact ⟨h.now, .inr hl, fun _ => hw.right, h.early, h.refunds⟩
  case t1Event =>
    split
    case isFalse => exact h
    case isTrue hw =>
      have hl := h.phase.resolve_left fun ⟨_, h₁, _⟩ => by simp [h₁] at hw
      have hm : Inv b { m with t1 := m.t1.receive } :=
        ⟨h.now, .inr hl, h.sending, h.early, h.refunds⟩
      refine advance_inv hm trivial (fun _ => hl) (by simp) fun _ _ hl ht _ => ?_
      obtain ⟨hn, ht₁⟩ := hc hl.heeds
      exact ⟨ht.pending (.inr hn), ht₁⟩
  case t2Event =>
    split
    case isFalse => exact h
    case isTrue hw =>
      have hl := h.phase.resolve_left fun ⟨_, _, h₂⟩ => by simp [h₂] at hw
      have hm : Inv b { m with t2 := m.t2.receive } :=
        ⟨h.now, .inr hl, fun _ => h.sending hw.left, h.early, h.refunds⟩
      refine advance_inv hm trivial (fun _ => hl) (by simp) fun _ _ hl _ _ => ?_
      exact ⟨hc hl.heeds, h.sending hw.left⟩
  case block now =>
    split
    case isTrue hn => exact block_inv h hc hn
    case isFalse   => exact h

-- A swap is started, or it is found in the database after a restart. Then it is the one that was
-- stored when the asset was locked, and it is still pending if the taker has not made it ready.
inductive Initial (b : Backend) : TimedLoop → Prop
  | started {calls : StartCalls} {offerID : Bytes32} {noTransferBack : Bool}
    {providedAmount : Coins.EthAssetAmount} {exchangeRate : Decimal} {ethAsset : Address}
    {s : SwapState} {stages : Bytes32 → Stage} {now : Uint256} (hn : Representable now.toNat)
    (h : newSwapStateFromStart calls offerID noTransferBack providedAmount exchangeRate ethAsset =
      .ok s) : Initial b (start s stages now)
  | recovered {calls : StartCalls} {info : Info} {noTransferBack : Bool}
    {ethSwapInfo : EthereumSwapInfo} {s : SwapState} {stages : Bytes32 → Stage} {now : Uint256}
    (hn : Representable now.toNat)
    (h : newSwapStateFromOngoing b calls info noTransferBack ethSwapInfo = .ok s)
    (hid : ethSwapInfo.swap.swapID b.host = ethSwapInfo.swapID) (hr : ethSwapInfo.swap.InTime)
    (hs : stages ethSwapInfo.swapID ≠ .invalid)
    (hp : info.status = .ethLocked → stages ethSwapInfo.swapID = .pending) :
    Initial b (restart s stages now)

-- Only a swap with this status is expected to have its Monero locked.
theorem newSwapStateFromOngoing_status {calls : StartCalls} {info : Info} {noTransferBack : Bool}
    {ethSwapInfo : EthereumSwapInfo} {s : SwapState}
    (h : newSwapStateFromOngoing b calls info noTransferBack ethSwapInfo = .ok s)
    (hn : s.nextExpectedEvent = .keysReceived ∨ s.nextExpectedEvent = .xmrLocked) :
    info.status = .ethLocked := by
  simp only [newSwapStateFromOngoing, Except.bind_ok_iff, Except.failIf_eq_ok,
    Except.pure_ok_iff] at h
  obtain ⟨_, hi, _, _, s₁, hs, _, _, rfl⟩ := h
  obtain ⟨_, hn'⟩ := Loop.newSwapState_ok hs
  have hi : info.status = .ethLocked ∨ info.status = .contractReady := by
    simpa [or_iff_not_imp_left] using hi
  refine hi.resolve_right fun hr => ?_
  simp_all [nextExpectedEventFromStatus]

theorem Initial.inv (h : Initial b m) : m.Inv b := by
  cases h
  case started hn h =>
    refine ⟨hn, .inl ⟨newSwapStateFromStart_fresh h, rfl, rfl⟩, ?_, ?_, ?_⟩
    all_goals simp [start, Loop.start, Loop.refundSite]
  case recovered s stages now hn h hid hr hs hp =>
    obtain ⟨hi, _⟩ := Loop.newSwapStateFromOngoing_ok h
    have hg : (restart s stages now).loop.stage = stages _ := congrArg stages hi
    have ht : (restart s stages now).loop.Tracks b _ :=
      ⟨hr, hid.trans hi.symm, hg ▸ hs, fun hx => hg ▸ hp (newSwapStateFromOngoing_status h hx)⟩
    refine ⟨hn, .inr ⟨_, newSwapStateFromOngoing_kept h, .inr ⟨ht, trivial⟩⟩, ?_, ?_, ?_⟩
    all_goals simp [restart, Loop.start, Loop.refundSite]

end TimedLoop

end XMRTaker

namespace XMRTaker.Sample

open XMRMaker.Sample (swap swapID swapCreatorAddr)

def timed : TimedLoop :=
  .start state (fun _ => .invalid) 1700000000

theorem timed_initial : TimedLoop.Initial backend timed :=
  .started (by decide) newSwapStateFromStart_state

def ready : SwapState :=
  { state with
    info.status       := .contractReady
    secp256k1Pub      := none
    t1                := unix 1700003600
    t2                := unix 1700007200
    contractSwapID    := swapID
    contractSwap      := some swap
    nextExpectedEvent := .ethClaimed
    recovery          := some ⟨100, swapID, swap, swapCreatorAddr⟩ }

end XMRTaker.Sample

namespace XMRTaker.TimedLoop

open XMRTaker.Sample

end XMRTaker.TimedLoop
