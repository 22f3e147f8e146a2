import AtomicSwap.Protocol.Clock
import AtomicSwap.Protocol.XMRTaker.Theorems.Locked

open Ethereum SwapCreator Function

namespace XMRTaker.Loop

variable {b : Backend} {sw : SwapCreatorSwap} {m m' : Loop} {i : Input} {e : EventType}
variable {ok text ready written inExit isReady : Bool}

def stage (m : Loop) : Stage :=
  m.stages m.swap.contractSwapID

-- The loop counts on the stage that it has seen last.
def reliesOnStage (m : Loop) : Bool :=
  match m.control with
  | .sendSwapMessage | .refundTimestamp _ | .refund (.early _) | .waitT2 => true
  | _                                                                    => false

def Fits (m : Loop) : Prop :=
  match m.control with
  | .sendSwapMessage         => m.swap.nextExpectedEvent = .keysReceived
  | .refundTimestamp isReady => m.stage ≠ .completed ∧ (isReady = false → m.stage = .pending)
  | .refund (.early _)       => m.stage = .pending
  | .waitT2                  => m.stage ≠ .completed
  | _                        => True

-- The taker knows its swap, which is pending until the taker has made it ready.
structure Tracks (b : Backend) (sw : SwapCreatorSwap) (m : Loop) : Prop where
  inTime  : sw.InTime
  swapID  : sw.swapID b.host = m.swap.contractSwapID
  created : m.stage ≠ .invalid
  pending : m.swap.nextExpectedEvent = .keysReceived ∨ m.swap.nextExpectedEvent = .xmrLocked →
    m.stage = .pending

def Tracked (b : Backend) (sw : SwapCreatorSwap) (m : Loop) : Prop :=
  m.control = .panicked ∨ m.Tracks b sw ∧ m.Fits

-- The loop has the swap of another one, and does not count on its stage.
structure Idles (m m' : Loop) : Prop where
  swapID : m'.swap.contractSwapID = m.swap.contractSwapID
  stages : m'.stages = m.stages
  next   : m'.swap.nextExpectedEvent = m.swap.nextExpectedEvent ∨
    m'.swap.nextExpectedEvent = .ethClaimed ∨ m'.swap.nextExpectedEvent = .none
  relies : m'.reliesOnStage = false

theorem fits_of_not_relies (h : m.reliesOnStage = false) : m.Fits := by
  unfold Fits
  split
  case h_5 => trivial
  all_goals simp_all [reliesOnStage]

theorem Tracks.idles (h : m.Tracks b sw) (hi : m.Idles m') : m'.Tracked b sw := by
  have hs : m'.stage = m.stage := by simp only [stage, hi.swapID, hi.stages]
  refine .inr ⟨⟨h.inTime, h.swapID.trans hi.swapID.symm, hs ▸ h.created, ?_⟩,
    fits_of_not_relies hi.relies⟩
  intro hn
  rw [hs]
  rcases hi.next with he | he | he
  · exact h.pending (he ▸ hn)
  · simp [he] at hn
  · simp [he] at hn

section Idles

theorem Idles.cleared {status : Status} {claimedClosed : Bool}
    (h : Idles { m.clearNextExpectedEvent status with claimedClosed } m') : m.Idles m' where
  swapID := h.swapID
  stages := h.stages
  next   := .inr <| h.next.elim .inr id
  relies := h.relies

theorem setETHClaimed_idles : m.Idles (m.setNextExpectedEvent .ethClaimed) := by
  unfold setNextExpectedEvent
  split
  case isTrue  => exact ⟨rfl, rfl, .inl rfl, rfl⟩
  case isFalse => exact ⟨rfl, rfl, .inr <| .inl rfl, rfl⟩

theorem exit_idles : m.Idles m.exit := by
  unfold exit
  split
  case h_4 => exact ⟨rfl, rfl, .inr <| .inr rfl, rfl⟩
  all_goals exact ⟨rfl, rfl, .inl rfl, rfl⟩

theorem exited_idles : m.Idles m.exited :=
  ⟨rfl, rfl, .inl rfl, rfl⟩

theorem exitedCleared_idles {status : Status} :
    m.Idles (m.clearNextExpectedEvent status).exited :=
  ⟨rfl, rfl, .inr <| .inr rfl, rfl⟩

theorem claimMoneroFailed_idles : m.Idles (m.claimMoneroFailed inExit) := by
  cases inExit
  case false => exact exit_idles
  case true  => exact exited_idles

theorem claimMonero_idles : m.Idles (m.claimMonero inExit) := by
  unfold claimMonero
  split
  case isTrue  => exact ⟨rfl, rfl, .inl rfl, rfl⟩
  case isFalse => exact claimMoneroFailed_idles

theorem moneroClaimed_idles : m.Idles (m.moneroClaimed inExit) := by
  unfold moneroClaimed
  split
  case isTrue  => exact ⟨rfl, rfl, .inl rfl, rfl⟩
  case isFalse =>
    cases inExit
    case false => exact exit_idles.cleared
    case true  => exact exited_idles.cleared

theorem sweeping_idles : m.Idles (m.sweeping inExit ready written) := by
  have hs : Idles { m with swap.info.status := .sweepingXMR }
      (claimMoneroFailed { m with swap.info.status := .sweepingXMR } inExit) :=
    claimMoneroFailed_idles
  unfold sweeping
  repeat' split
  · exact claimMoneroFailed_idles
  · exact moneroClaimed_idles
  · exact ⟨hs.swapID, hs.stages, hs.next, hs.relies⟩
  · exact ⟨rfl, rfl, .inl rfl, rfl⟩

theorem swept_idles : m.Idles (m.swept inExit ok) := by
  unfold swept
  split
  case isTrue  => exact moneroClaimed_idles
  case isFalse => exact claimMoneroFailed_idles

theorem tryClaim_idles : m.Idles m.tryClaim := by
  unfold tryClaim
  split <;> exact ⟨rfl, rfl, .inl rfl, rfl⟩

theorem filtered_idles {logs : Option (List Log)} : m.Idles (m.filtered logs) := by
  unfold filtered
  repeat' split
  · exact exited_idles
  · exact exitedCleared_idles
  · exact exited_idles
  · exact claimMonero_idles

theorem readyStageRead_idles : m.Idles (m.readyStageRead ok) := by
  unfold readyStageRead
  repeat' split
  · exact ⟨rfl, rfl, .inl rfl, rfl⟩
  · exact ⟨rfl, rfl, .inl rfl, rfl⟩
  · exact setETHClaimed_idles
  · exact setETHClaimed_idles
  · exact ⟨rfl, rfl, .inl rfl, rfl⟩

theorem completed_idles : m.Idles (m.completed ok) := by
  unfold completed
  repeat' split
  all_goals exact ⟨rfl, rfl, .inl rfl, rfl⟩

theorem handleEvent_idles {e : Event} (hc : m.control = .runHandleEvents) :
    m.Idles (m.handleEvent e) := by
  have hm : m.Idles m := ⟨rfl, rfl, .inl rfl, by simp [reliesOnStage, hc]⟩
  cases e <;> simp only [handleEvent]
  case keysReceived =>
    split
    case isTrue  => exact ⟨rfl, rfl, .inl rfl, rfl⟩
    case isFalse => exact hm
  case xmrLocked =>
    split
    case isTrue  => unfold handleNotifyXMRLock; split <;> exact ⟨rfl, rfl, .inl rfl, rfl⟩
    case isFalse => exact hm
  case ethClaimed =>
    split
    case isTrue  => exact claimMonero_idles
    case isFalse => exact hm
  case shouldRefund =>
    unfold handleEventShouldRefund
    split
    case isTrue  => exact ⟨rfl, rfl, .inl rfl, rfl⟩
    case isFalse => exact exit_idles
  case exit => exact exit_idles

end Idles

section Tracked

-- The first event after the asset has been locked is only expected while the swap is pending.
theorem setXMRLocked_tracked (h : m.Tracks b sw) (hp : m.stage = .pending) :
    (m.setNextExpectedEvent .xmrLocked).Tracked b sw := by
  unfold setNextExpectedEvent
  split
  case isTrue  => exact .inl rfl
  case isFalse => exact .inr ⟨⟨h.inTime, h.swapID, h.created, fun _ => hp⟩, trivial⟩

theorem writingSwap_tracked (h : m.Tracked b sw) : m.writingSwap.Tracked b sw := by
  unfold writingSwap
  split
  case isFalse   => exact h
  case isTrue hc =>
    have ⟨ht, _⟩ := h.resolve_left (by simp [hc])
    exact .inr ⟨⟨ht.inTime, ht.swapID, ht.created, ht.pending⟩, trivial⟩

theorem keysReceivedFailed_tracked (h : m.Tracks b sw) (hp : m.stage = .pending) :
    m.keysReceivedFailed.Tracked b sw := by
  unfold keysReceivedFailed
  split
  case isTrue  => exact writingSwap_tracked <| setXMRLocked_tracked h hp
  case isFalse => exact h.idles ⟨rfl, rfl, .inl rfl, rfl⟩

theorem messageSent_tracked (h : m.Tracks b sw) (hn : m.swap.nextExpectedEvent = .keysReceived) :
    (m.messageSent ok).Tracked b sw := by
  have hp := h.pending (.inl hn)
  unfold messageSent
  split
  case isTrue  => exact setXMRLocked_tracked h hp
  case isFalse => exact keysReceivedFailed_tracked h hp

-- The taker itself makes the swap ready, and waits for the claim from then on.
theorem readySent_tracked (h : m.Tracks b sw) (hs : m.swap.contractSwap = some sw) :
    (m.readySent b ok text).Tracked b sw := by
  simp only [readySent, hs]
  split
  case isTrue =>
    unfold setNextExpectedEvent
    split
    case isTrue  => exact .inl rfl
    case isFalse =>
      refine .inr ⟨⟨h.inTime, h.swapID, ?_, by simp⟩, trivial⟩
      simp [stage, h.swapID]
  case isFalse =>
    split
    case isTrue  => exact h.idles setETHClaimed_idles
    case isFalse => exact h.idles ⟨rfl, rfl, .inl rfl, rfl⟩

theorem waitOrRefund_tracked {ts : Time} (h : m.Tracks b sw) (hs : m.stage ≠ .completed) :
    (m.waitOrRefund ts).Tracked b sw := by
  unfold waitOrRefund
  split
  case isTrue  => exact h.idles ⟨rfl, rfl, .inl rfl, rfl⟩
  case isFalse => exact .inr ⟨⟨h.inTime, h.swapID, h.created, h.pending⟩, hs⟩

theorem refundStageRead_tracked (h : m.Tracks b sw) : (m.refundStageRead ok).Tracked b sw := by
  unfold refundStageRead
  split
  case isTrue  => exact h.idles exited_idles
  case isFalse =>
    split
    case h_1    => exact h.idles exited_idles
    case h_2    => exact h.idles tryClaim_idles
    case h_3 hs =>
      refine .inr ⟨⟨h.inTime, h.swapID, h.created, h.pending⟩, ?_, fun _ => hs⟩
      simp [stage, hs]
    case h_4 hs =>
      refine .inr ⟨⟨h.inTime, h.swapID, h.created, h.pending⟩, ?_, by simp⟩
      simp [stage, hs]

theorem refundTimestamp_tracked {ts : Option Time} (h : m.Tracks b sw)
    (hs : m.stage ≠ .completed ∧ (isReady = false → m.stage = .pending)) :
    (m.refundTimestamp isReady ts).Tracked b sw := by
  unfold refundTimestamp
  split
  case h_1 => exact h.idles exited_idles
  case h_2 =>
    split
    case isTrue hr =>
      exact .inr ⟨⟨h.inTime, h.swapID, h.created, h.pending⟩, hs.right (by simpa using hr.right)⟩
    case isFalse   => exact waitOrRefund_tracked h hs.left

theorem refund_tracks (h : m.Tracks b sw) : (m.refund b sw ok text).snd.Tracks b sw := by
  unfold refund
  dsimp only
  split
  case isTrue =>
    refine ⟨h.inTime, h.swapID, ?_, by simp [clearNextExpectedEvent]⟩
    simp [stage, clearNextExpectedEvent, h.swapID]
  case isFalse => split <;> exact h

theorem refund_stage (h : (m.refund b sw ok text).fst ≠ .refunded) :
    (m.refund b sw ok text).snd = m := by
  unfold refund at h ⊢
  dsimp only at h ⊢
  split at h
  case isTrue     => contradiction
  case isFalse hn =>
    rw [if_neg hn]
    split <;> rfl

theorem refundSent_tracked {site : RefundSite} (h : m.Tracks b sw)
    (hs : m.swap.contractSwap = some sw) (hp : ∀ ts, site = .early ts → m.stage = .pending) :
    (m.refundSent b site ok text).Tracked b sw := by
  have ht : (m.refund b sw ok text).snd.Tracks b sw := refund_tracks h
  have hk (hr : (m.refund b sw ok text).fst ≠ .refunded) : (m.refund b sw ok text).snd = m :=
    refund_stage hr
  simp only [refundSent, hs]
  generalize m.refund b sw ok text = r at ht hk ⊢
  unfold afterRefund
  split
  case h_1 => exact ht.idles exit_idles
  case h_2 => exact ht.idles exitedCleared_idles
  case h_3 _ ts hr =>
    rw [hk hr]
    exact waitOrRefund_tracked h (by simp [hp ts rfl])
  case h_4 => exact ht.idles exitedCleared_idles
  case h_5 => exact ht.idles tryClaim_idles
  case h_6 => exact ht.idles exited_idles

end Tracked

-- What happens to the swap behind the taker's back: the swap that `newSwap` has created is the one
-- that the taker reads off the receipt, nobody else makes it ready, and nobody completes it before
-- it is ready or while the taker counts on its stage.
def Watched (b : Backend) (m : Loop) : Input → Prop
  | .newSwapped (some receipt) id nonce _ => m.control = .newSwap → m.stages id = .invalid ∧
    ∃ found, foundSwap b m.swap receipt nonce = .ok found ∧
      found.fst = id ∧ found.snd.swapID b.host = id ∧ found.snd.InTime
  | .stageMined id stage => m.swap.contractSwapID = id → stage ≠ .ready ∧
    (stage = .completed → m.reliesOnStage = false ∧
      m.swap.nextExpectedEvent ≠ .keysReceived ∧ m.swap.nextExpectedEvent ≠ .xmrLocked)
  | _ => True

instance : Decidable (m.Watched b i) :=
  match i with
  | .newSwapped (some _) .. | .stageMined .. => inferInstanceAs (Decidable (_ → _))
  | .newSwapped none ..     | .event _       | .keysChecked _ | .messageSent _ | .swapWritten _
  | .stageRead _            | .readySent ..  | .sweeping ..   | .swept _       | .timestamp _
  | .refundSent ..          | .waited _      | .filtered _    | .completed _   | .ctxDone
  | .newSwapMined _         => .isTrue trivial

theorem Tracked.congr (h : m.Tracked b sw) (hs : m'.swap = m.swap) (hc : m'.control = m.control)
    (hg : m'.stage = m.stage) : m'.Tracked b sw := by
  refine h.imp hc.trans fun ⟨ht, hf⟩ => ⟨⟨ht.inTime, hs ▸ ht.swapID, hg ▸ ht.created, ?_⟩, ?_⟩
  · exact fun hn => hg.trans <| ht.pending (hs ▸ hn)
  · simpa only [Fits, hs, hc, hg] using hf

theorem newSwapMined_tracked {id : Bytes32} (h : m.Tracked b sw) :
    (m.newSwapMined id).Tracked b sw := by
  by_cases hp : m.control = .panicked
  case pos => exact .inl hp
  obtain ⟨ht, _⟩ := h.resolve_left hp
  refine h.congr rfl rfl ?_
  simp only [stage, newSwapMined]
  split
  case isTrue hi =>
    refine update_of_ne (fun he => ht.created ?_) ..
    rw [stage, he, hi]
  case isFalse   => rfl

theorem stageMined_tracked {id : Bytes32} {stage : Stage} (h : m.Tracked b sw)
    (hw : m.Watched b (.stageMined id stage)) : (m.stageMined id stage).Tracked b sw := by
  by_cases hp : m.control = .panicked
  case pos => exact .inl <| stageMined_control.trans hp
  obtain ⟨ht, _⟩ := h.resolve_left hp
  unfold stageMined
  split
  case isFalse   => exact h
  case isTrue hr =>
    by_cases hi : m.swap.contractSwapID = id
    case neg => exact h.congr rfl rfl (update_of_ne hi ..)
    case pos =>
      subst hi
      obtain ⟨hr', hc⟩ := hw rfl
      have hs : Loop.stage { m with stages := update m.stages m.swap.contractSwapID stage } =
          stage := update_self ..
      by_cases he : stage = .completed
      case pos =>
        obtain ⟨hl, hk, hx⟩ := hc he
        refine .inr ⟨⟨ht.inTime, ht.swapID, fun hn => ?_, fun hn => ?_⟩, fits_of_not_relies hl⟩
        · exact absurd (he.symm.trans <| hs.symm.trans hn) (by decide)
        · exact (hn.elim hk hx).elim
      case neg =>
        -- The stage is the one it was, since a swap that exists only moves on.
        refine h.congr rfl rfl (hs.trans ?_)
        have := ht.created
        cases stage <;> cases hm : m.stage <;> simp_all [stageRank, Loop.stage]

-- The taker keeps track of its swap once it has locked its asset.
theorem step_tracked (hl : m.Locked sw) (h : m.Tracked b sw) (hw : m.Watched b i) :
    (m.step b i).Tracked b sw := by
  have hs := hl.noted.swap
  have hm := step_step b m i
  generalize m.step b i = m' at hm ⊢
  cases hm
  case idle         => exact h
  case newSwapMined => exact newSwapMined_tracked h
  case stageMined   => exact stageMined_tracked h hw
  all_goals
    rename_i hc
    obtain ⟨ht, hf⟩ := h.resolve_left (by simp [hc])
    simp only [Fits, hc] at hf
  case ctxDone         => exact ht.idles ⟨rfl, rfl, .inl rfl, rfl⟩
  case event           => exact ht.idles <| handleEvent_idles hc
  case keysChecked     => simp [Locked, hc] at hl
  case newSwapped      => simp [Locked, hc] at hl
  case messageSent     => exact messageSent_tracked ht hf
  case swapWritten ok  => cases ok <;> exact ht.idles ⟨rfl, rfl, .inl rfl, rfl⟩
  case readyStageRead  => exact ht.idles readyStageRead_idles
  case readySent       => exact readySent_tracked ht hs
  case sweeping        => exact ht.idles sweeping_idles
  case swept           => exact ht.idles swept_idles
  case refundStageRead => exact refundStageRead_tracked ht
  case refundTimestamp => exact refundTimestamp_tracked ht hf
  case refundSent site _ _ =>
    refine refundSent_tracked ht hs fun ts he => ?_
    subst he
    exact hf
  case waited ok =>
    cases ok
    case false => exact ht.idles exited_idles
    case true  => exact ht.idles ⟨rfl, rfl, .inl rfl, rfl⟩
  case filtered  => exact ht.idles filtered_idles
  case completed => exact ht.idles completed_idles
  case eventWaiting e =>
    cases e
    case exit => exact h
    case ethClaimed => exact ht.idles tryClaim_idles
    all_goals exact ht.idles ⟨rfl, rfl, .inl rfl, rfl⟩

theorem keysReceivedFailed_contractSwap :
    m.keysReceivedFailed.swap.contractSwap = m.swap.contractSwap := by
  unfold keysReceivedFailed
  split
  case isTrue  =>
    rw [writingSwap_swap]
    unfold setNextExpectedEvent
    split <;> rfl
  case isFalse => rfl

-- The swap that the taker gets to know is the one that has just been created.
theorem newSwapped_tracked {receipt : Option Receipt} {id : Bytes32} {nonce : ℤ} {put : Bool}
    (hu : m.Unlocked) (hc : m.control = .newSwap)
    (hl : (m.newSwapped b receipt id nonce put).Locked sw)
    (hw : m.Watched b (.newSwapped receipt id nonce put)) :
    (m.newSwapped b receipt id nonce put).Tracked b sw := by
  simp only [Unlocked, hc] at hu
  have hs := hl.noted.swap
  cases receipt
  case none => simp [newSwapped, keysReceivedFailed_contractSwap, hu.left.swap] at hs
  case some receipt =>
    obtain ⟨hi, found, hf, rfl, hid, hr⟩ := hw hc
    obtain ⟨s', hs', hrec⟩ := recordSwap_found put hf
    have hm : (m.newSwapMined found.fst).swap = m.swap := rfl
    have hp (c : Control) : Loop.stage { m.newSwapMined found.fst with swap := s', control := c } =
        .pending := by
      simp [stage, hs'.swapID, newSwapMined, hi]
    have ht (c : Control) : Loop.Tracks b found.snd
        { m.newSwapMined found.fst with swap := s', control := c } :=
      ⟨hr, hid.trans hs'.swapID.symm, by simp [hp], fun _ => hp c⟩
    rcases hrec with hrec | hrec
    · simp only [newSwapped, hm, hrec] at hs ⊢
      cases hs'.swap.symm.trans hs
      exact .inr ⟨ht _, hs'.next.trans hu.right⟩
    · simp only [newSwapped, hm, hrec] at hs ⊢
      cases hs'.swap.symm.trans (keysReceivedFailed_contractSwap.symm.trans hs)
      exact keysReceivedFailed_tracked (ht _) (hp _)

theorem step_tracked_of_unlocked (hu : m.Unlocked) (hi : i ≠ .event .shouldRefund)
    (hl : (m.step b i).Locked sw) (hw : m.Watched b i) : (m.step b i).Tracked b sw := by
  by_cases hp : (m.step b i).control = .panicked
  case pos => exact .inl hp
  by_cases hn : ∃ r id nonce put, i = .newSwapped r id nonce put ∧ m.control = .newSwap
  case pos =>
    obtain ⟨r, id, nonce, put, rfl, hc⟩ := hn
    simp only [step, hc] at hl ⊢
    exact newSwapped_tracked hu hc hl hw
  case neg =>
    have hu' : (m.step b i).Unlocked := by
      cases i
      case newSwapped =>
        cases hc : m.control <;> simp only [step, hc] <;> try exact hu
        exact absurd ⟨_, _, _, _, rfl, hc⟩ hn
      all_goals exact step_unlocked hu hi (by simp)
    have hs := hl.noted.swap
    simp [(hu'.fresh hp).swap] at hs

end XMRTaker.Loop
