import AtomicSwap.Protocol.XMRMaker.Theorems.Lock
import AtomicSwap.Protocol.XMRTaker.EventLoop

open Ethereum SwapCreator Handler Machine Function

namespace XMRTaker

variable {b : Backend} {s : SwapState} {receipt : Receipt} {nonce : ℤ} {id : Bytes32} {put : Bool}

section Receipt

-- The swap that the taker reads off the logs of a receipt.
def foundSwap (b : Backend) (s : SwapState) (receipt : Receipt) (nonce : ℤ) :
    Except Error (Bytes32 × SwapCreatorSwap) := do
  let id ← firstOf getIDFromLog .swapIDNotFound receipt.logs
  let (t1, t2) ← firstOf getTimeoutsFromLog .timeoutsNotFound receipt.logs
  let some ours := s.secp256k1Pub | .error .panicked
  let some theirs := s.xmrmakerSecp256k1PublicKey | .error .panicked
  let value ← s.providedAmount.bigInt.mapError .coins
  return (id, newContractSwap b s ours theirs t1 t2 value nonce)

-- It is the one that the contract has created.
def Faithful (b : Backend) (s : SwapState) (receipt : Receipt) (nonce : ℤ) (id : Bytes32) : Prop :=
  ∃ found, foundSwap b s receipt nonce = .ok found ∧ found.fst = id ∧ found.snd.swapID b.host = id

instance : Decidable (Faithful b s receipt nonce id) :=
  inferInstanceAs (Decidable (∃ _, _ ∧ _))

-- What is known of the state after a swap has been recorded.
structure Recorded (found : Bytes32 × SwapCreatorSwap) (s s' : SwapState) : Prop where
  swapID      : s'.contractSwapID = found.fst
  swap        : s'.contractSwap = some found.snd
  fundsLocked : s'.fundsLocked = true
  next        : s'.nextExpectedEvent = s.nextExpectedEvent

theorem readSwap_found {found : Bytes32 × SwapCreatorSwap}
    (h : foundSwap b s receipt nonce = .ok found) :
    ∃ s', readSwap b nonce receipt s = (.ok found.snd, s') ∧ Recorded found s s' := by
  cases ho : s.secp256k1Pub
  case none => simp [foundSwap, ho] at h
  case some ours =>
    cases ht : s.xmrmakerSecp256k1PublicKey
    case none => simp [foundSwap, ho, ht] at h
    case some theirs =>
      simp only [foundSwap, ho, ht, Except.bind_ok_iff, Except.mapError_eq_ok,
        Except.pure_ok_iff] at h
      obtain ⟨id, hi, ⟨t1, t2⟩, hts, value, hv, he⟩ := h
      have hl : receipt.logs ≠ [] := fun hl => by simp [hl, firstOf] at hi
      subst he
      let sw := newContractSwap b s ours theirs t1 t2 value nonce
      let s' := { s with
        contractSwapID := id, fundsLocked := true, t1 := unix (int64 t1), t2 := unix (int64 t2)
        contractSwap := some sw }
      refine ⟨s', ?_, rfl, rfl, rfl, rfl⟩
      simp [readSwap, setSwapID, setTimeouts, hi, hts, ho, ht, hv, hl, sw, s', newContractSwap,
        Except.toOption]

variable (put) in
theorem recordSwap_found {found : Bytes32 × SwapCreatorSwap}
    (h : foundSwap b s receipt nonce = .ok found) :
    ∃ s', Recorded found s s' ∧ (recordSwap b nonce put receipt s = (.ok (), s') ∨
      recordSwap b nonce put receipt s = (.error .putContractSwapInfo, s')) := by
  have ⟨s', hr, hs⟩ := readSwap_found h
  cases put
  case false => exact ⟨s', hs, .inr <| by simp [recordSwap, Bind.bind, hr]; rfl⟩
  case true =>
    let info : EthereumSwapInfo :=
      ⟨receipt.blockNumber, s'.contractSwapID, found.snd, b.swapCreatorAddr⟩
    refine ⟨{ s' with recovery := some info }, ⟨hs.swapID, hs.swap, hs.fundsLocked, hs.next⟩, ?_⟩
    simp only [recordSwap, bind_ok, hr]
    exact .inl ⟨found.snd, s', rfl, (), s', rfl, rfl⟩

-- The event of the contract is enough, if it comes before all logs of other contracts.
theorem faithful_of_new {ours theirs : PublicKey} {v : ℕ} {ck rk : Bytes32} {t₁ t₂ value : Uint256}
    {asset : Address} {n : ℕ} {logs : List Log} (ho : s.secp256k1Pub = some ours)
    (ht : s.xmrmakerSecp256k1PublicKey = some theirs) (hv : s.providedAmount.bigInt = .ok v)
    (hid : (newContractSwap b s ours theirs t₁.toNat t₂.toNat v nonce).swapID b.host = id)
    (hl : receipt.logs =
      (Event.new id ck rk t₁ t₂ asset value |>.toLog b.swapCreatorAddr n) :: logs) :
    Faithful b s receipt nonce id := by
  refine ⟨(id, newContractSwap b s ours theirs t₁.toNat t₂.toNat v nonce), ?_, rfl, hid⟩
  simp [foundSwap, hl, firstOf, getIDFromLog, getTimeoutsFromLog, unpackNewLog_toLog, ho, ht, hv,
    Functor.map, Except.map]

end Receipt

section Chain

variable (b : Backend) (s : SwapState) (stages : Bytes32 → Stage)

-- The swap that the taker knows is completed, and its status says how.
structure Settled : Prop where
  stage  : stages s.contractSwapID = .completed
  status : s.info.status = .completedSuccess ∨ s.info.status = .completedRefund

-- The swap that the taker knows exists, and is the one that it would refund.
structure Linked : Prop where
  swap  : ∃ sw, s.contractSwap = some sw ∧ sw.swapID b.host = s.contractSwapID
  stage : stages s.contractSwapID ≠ .invalid

-- The swap is under way, and `exit` would try to refund.
structure Waiting : Prop where
  linked  : Linked b s stages
  next    : s.nextExpectedEvent = .xmrLocked ∨ s.nextExpectedEvent = .ethClaimed
  ongoing : s.info.status.isOngoing = true

structure Closed : Prop where
  next    : s.nextExpectedEvent = .none
  settled : Settled s stages

end Chain

section Mono

variable {stages stages' : Bytes32 → Stage} (hm : ∀ i, stageRank (stages i) ≤ stageRank (stages' i))

include hm

theorem completed_mono (h : stages id = .completed) : stages' id = .completed := by
  have := hm id
  cases hs : stages' id <;> simp_all [stageRank]

theorem Linked.mono (h : Linked b s stages) : Linked b s stages' where
  swap  := h.swap
  stage := by
    have := hm s.contractSwapID
    have := h.stage
    cases hs : stages s.contractSwapID <;> cases hs' : stages' s.contractSwapID <;>
      simp_all [stageRank]

theorem Waiting.mono (h : Waiting b s stages) : Waiting b s stages' :=
  ⟨h.linked.mono hm, h.next, h.ongoing⟩

theorem Closed.mono (h : Closed s stages) : Closed s stages' :=
  ⟨h.next, completed_mono hm h.settled.stage, h.settled.status⟩

end Mono

namespace Loop

variable {m : Loop} {ok text ready written inExit isReady : Bool}

-- What the taker believes of the swap is right: events and errors tell that it is completed only
-- when it is.
def Sound (m : Loop) : Input → Prop
  | .event .ethClaimed   => m.stages m.swap.contractSwapID = .completed
  | .refundSent _ text   => text → m.stages m.swap.contractSwapID = .completed
  | _                    => True

instance (m : Loop) (i : Input) : Decidable (m.Sound i) := by
  unfold Sound
  split <;> infer_instance

-- The logs can be read, and so can the secret in a log of the swap.
def Readable (m : Loop) : Option (List Log) → Prop
  | none      => False
  | some logs => ∀ l ∈ m.findClaim logs, ∃ k, getSecretFromLog l claimedTopic = .ok k

-- The taker gets to know of the transaction `newSwap`, and no call fails that `exit` depends on.
def Orderly (b : Backend) (m : Loop) (i : Input) : Prop :=
  match m.control, i with
  | _,                  .newSwapMined _                       => False
  | .newSwap,           .newSwapped (some receipt) id nonce _ => Faithful b m.swap receipt nonce id
  | .refundStage,       .stageRead ok                         => ok
  | .refundTimestamp _, .timestamp ts                         => ts.isSome
  | .waitT2,            .waited ok                            => ok
  | .refund .final,     .refundSent ok text                   =>
    text ∨ ok ∧ m.stages m.swap.contractSwapID ≠ .completed
  | .filterForClaim,    .filtered logs                        => m.Readable logs
  | .claimMonero true,  .sweeping ready written               =>
    ready ∧ (written ∨ m.swap.noTransferBack)
  | .sweepAll true,     .swept ok                             => ok
  | _,                  _                                     => True

instance (m : Loop) (logs : Option (List Log)) : Decidable (m.Readable logs) := by
  unfold Readable
  split <;> infer_instance

instance (m : Loop) (i : Input) : Decidable (m.Orderly b i) := by
  unfold Orderly
  split <;> infer_instance

section Invariant

def Calm (b : Backend) (m : Loop) : Prop :=
  m.newSwapIncluded → Waiting b m.swap m.stages ∨ Closed m.swap m.stages

def Hopeful (b : Backend) (m : Loop) : Prop :=
  m.newSwapIncluded → Waiting b m.swap m.stages

def Claiming (b : Backend) (m : Loop) : Prop :=
  m.newSwapIncluded → Waiting b m.swap m.stages ∧ m.stages m.swap.contractSwapID = .completed

def Finished (m : Loop) : Prop :=
  m.newSwapIncluded → Closed m.swap m.stages

def Stored (b : Backend) (m : Loop) : Prop :=
  m.newSwapIncluded → Linked b m.swap m.stages ∧ m.swap.fundsLocked

def Safe (b : Backend) (m : Loop) : Prop :=
  match m.control with
  | .runHandleEvents | .writeSwapToDB                          => m.Calm b
  | .checkKeys _ | .newSwap                                    => ¬m.newSwapIncluded
  | .sendSwapMessage                                           => m.Stored b
  | .readyStage | .setReady                                    => m.Hopeful b
  | .refundStage | .refundTimestamp _ | .refund _ | .waitT2    => m.Hopeful b
  | .filterForClaim | .claimMonero _ | .sweepAll _             => m.Claiming b
  | .completeOngoingSwap                                       => m.Finished
  | .blocked | .panicked | .stopped                            => True

theorem safe_of_not_included (h : ¬m.newSwapIncluded) : m.Safe b := by
  unfold Safe
  split
  case h_3 => exact h
  case h_4 => exact h
  case h_16 => trivial
  case h_17 => trivial
  case h_18 => trivial
  all_goals exact fun hl => absurd hl h

theorem Hopeful.calm (h : m.Hopeful b) : m.Calm b :=
  fun hl => .inl (h hl)

theorem Claiming.hopeful (h : m.Claiming b) : m.Hopeful b :=
  fun hl => (h hl).left

end Invariant

section Functions

theorem panic_safe : m.panic.Safe b :=
  trivial

theorem exit_safe (h : m.Calm b) : m.exit.Safe b := by
  unfold exit
  split
  case h_1 hn => exact fun hl => (h hl).resolve_right fun hc => by simp [hc.next] at hn
  case h_2 hn => exact fun hl => (h hl).resolve_right fun hc => by simp [hc.next] at hn
  case h_3 hn => exact fun hl => (h hl).resolve_left fun hw => by cases hw.next <;> simp_all
  case h_4 hx he hn =>
    intro hl
    cases h hl
    case inl hw => cases hw.next <;> contradiction
    case inr hc => exact absurd hc.next hn

theorem setNextExpectedEvent_safe {e : EventType} (he : e = .xmrLocked ∨ e = .ethClaimed)
    (h : m.newSwapIncluded → Linked b m.swap m.stages) : (m.setNextExpectedEvent e).Safe b := by
  unfold setNextExpectedEvent
  split
  case isTrue => exact panic_safe
  case isFalse =>
    intro hl
    have hl := h hl
    refine .inl ⟨⟨hl.swap, hl.stage⟩, he, ?_⟩
    cases he <;> subst e <;> rfl

theorem moneroClaimed_safe (h : m.Claiming b) : (m.moneroClaimed inExit).Safe b := by
  have hf : Finished { m.clearNextExpectedEvent .completedSuccess with claimedClosed := true } :=
    fun hl => ⟨rfl, (h hl).right, .inl rfl⟩
  unfold moneroClaimed
  split
  case isTrue => exact panic_safe
  case isFalse =>
    dsimp only
    split
    case isTrue  => exact hf
    case isFalse => exact exit_safe fun hl => .inr (hf hl)

theorem claimMonero_safe (h : m.Claiming b) : (m.claimMonero inExit).Safe b := by
  unfold claimMonero
  split
  case isTrue => exact h
  case isFalse ho =>
    have hn : ¬m.newSwapIncluded := fun hl => ho (h hl).left.ongoing
    unfold claimMoneroFailed
    split
    case isTrue  => exact safe_of_not_included hn
    case isFalse => exact exit_safe h.hopeful.calm

-- A swap that is being swept is still under way.
theorem Claiming.sweeping (h : m.Claiming b) :
    Claiming b { m with swap.info.status := .sweepingXMR } :=
  fun hl =>
    have ⟨hw, hs⟩ := h hl
    ⟨⟨⟨hw.linked.swap, hw.linked.stage⟩, hw.next, rfl⟩, hs⟩

theorem sweeping_safe (h : m.Claiming b) (hc : m.control = .claimMonero inExit)
    (ho : m.Orderly b (.sweeping ready written)) : (m.sweeping inExit ready written).Safe b := by
  unfold Loop.sweeping
  cases inExit
  case false =>
    repeat' split
    · exact exit_safe h.hopeful.calm
    · exact moneroClaimed_safe h
    · exact exit_safe h.sweeping.hopeful.calm
    · exact h.sweeping
  case true =>
    simp only [Orderly, hc] at ho
    repeat' split
    · simp_all
    · exact moneroClaimed_safe h
    · simp_all
    · exact h.sweeping

theorem swept_safe (h : m.Claiming b) (hc : m.control = .sweepAll inExit)
    (ho : m.Orderly b (.swept ok)) : (m.swept inExit ok).Safe b := by
  unfold swept
  split
  case isTrue => exact moneroClaimed_safe h
  case isFalse hk =>
    cases inExit
    case false => exact exit_safe h.hopeful.calm
    case true  => simp [Orderly, hc, hk] at ho

theorem tryClaim_safe (h : m.Claiming b) : m.tryClaim.Safe b := by
  unfold tryClaim
  split
  case isTrue     => exact h
  case isFalse ho => exact safe_of_not_included fun hl => ho (h hl).left.ongoing

theorem filtered_safe {logs : Option (List Log)} (h : m.Claiming b)
    (ho : m.Readable logs) : (m.filtered logs).Safe b := by
  cases logs
  case none => contradiction
  case some logs =>
    simp only [filtered]
    split
    case h_1 => exact fun hl => ⟨rfl, (h hl).right, .inr rfl⟩
    case h_2 l hf =>
      obtain ⟨_, hk⟩ := ho l hf
      simp only [hk]
      exact claimMonero_safe h

theorem writingSwap_safe (h : m.Safe b) : m.writingSwap.Safe b := by
  unfold writingSwap
  split
  case isTrue hc =>
    simp only [Safe, hc] at h
    exact h
  case isFalse   => exact h

theorem swapWritten_safe (h : m.Calm b) : (m.swapWritten ok).Safe b := by
  cases ok
  case false => trivial
  case true  => exact h

theorem keysReceivedFailed_safe (h : m.Stored b) : m.keysReceivedFailed.Safe b := by
  unfold keysReceivedFailed
  split
  case isTrue     =>
    exact writingSwap_safe <| setNextExpectedEvent_safe (.inl rfl) fun hl => (h hl).left
  case isFalse hf => exact safe_of_not_included fun hl => hf (h hl).right

theorem messageSent_safe (h : m.Stored b) : (m.messageSent ok).Safe b := by
  unfold messageSent
  split
  case isTrue  => exact setNextExpectedEvent_safe (.inl rfl) fun hl => (h hl).left
  case isFalse => exact keysReceivedFailed_safe h

theorem keysChecked_safe {msg : SendKeysMessage} {calls : KeysCalls} (h : ¬m.newSwapIncluded) :
    (m.keysChecked msg calls).Safe b := by
  unfold keysChecked
  split
  case h_1 => exact h
  case h_2 =>
    split
    case isTrue  => exact panic_safe
    case isFalse => exact keysReceivedFailed_safe fun hl => absurd hl h

theorem newSwapMined_stage : (m.newSwapMined id).stages id ≠ .invalid := by
  unfold newSwapMined
  split <;> simp_all

theorem newSwapped_safe {receipt : Option Receipt} (h : ¬m.newSwapIncluded)
    (hc : m.control = .newSwap) (ho : m.Orderly b (.newSwapped receipt id nonce put)) :
    (m.newSwapped b receipt id nonce put).Safe b := by
  cases receipt
  case none => exact keysReceivedFailed_safe fun hl => absurd hl h
  case some receipt =>
    simp only [Orderly, hc] at ho
    obtain ⟨found, hf, rfl, hsw⟩ := ho
    have ⟨s', hr, hs⟩ := recordSwap_found put hf
    have hl : Linked b s' (m.newSwapMined found.fst).stages :=
      ⟨⟨_, hr.swap, hsw.trans hr.swapID.symm⟩, hr.swapID ▸ newSwapMined_stage⟩
    have hm : (m.newSwapMined found.fst).swap = m.swap := rfl
    cases hs
    case inl hs =>
      simp only [newSwapped, hm, hs]
      exact fun _ => ⟨hl, hr.fundsLocked⟩
    case inr hs =>
      simp only [newSwapped, hm, hs]
      exact keysReceivedFailed_safe fun _ => ⟨hl, hr.fundsLocked⟩

theorem handleNotifyXMRLock_safe (h : m.Calm b) (hn : m.swap.nextExpectedEvent = .xmrLocked) :
    m.handleNotifyXMRLock.Safe b := by
  unfold handleNotifyXMRLock
  split
  case isTrue  => exact panic_safe
  case isFalse => exact fun hl => (h hl).resolve_right fun hc => by simp [hc.next] at hn

theorem readyStageRead_safe (h : m.Hopeful b) : (m.readyStageRead ok).Safe b := by
  unfold readyStageRead
  split
  case isTrue => exact h.calm
  case isFalse =>
    split
    case h_1 => exact h
    case h_2 => exact setNextExpectedEvent_safe (.inr rfl) fun hl => (h hl).linked
    case h_3 => exact setNextExpectedEvent_safe (.inr rfl) fun hl => (h hl).linked
    case h_4 => exact h.calm

theorem readySent_safe (h : m.Hopeful b) : (m.readySent b ok text).Safe b := by
  unfold readySent
  split
  case h_1 => split; exacts [panic_safe, h.calm]
  case h_2 sw hs =>
    dsimp only
    repeat' split
    · refine setNextExpectedEvent_safe (.inr rfl) fun hl => ⟨(h hl).linked.swap, ?_⟩
      have hw := (h hl).linked.stage
      simp only [update_apply]
      split <;> simp_all
    · exact setNextExpectedEvent_safe (.inr rfl) fun hl => (h hl).linked
    · exact h.calm

theorem waitOrRefund_safe {ts : Time} (h : m.Hopeful b) : (m.waitOrRefund ts).Safe b := by
  unfold waitOrRefund
  split <;> exact h

theorem refundTimestamp_safe {ts : Option Time} (h : m.Hopeful b) (ho : ts.isSome) :
    (m.refundTimestamp isReady ts).Safe b := by
  cases ts
  case none => contradiction
  case some ts =>
    simp only [refundTimestamp]
    split
    case isTrue  => exact h
    case isFalse => exact waitOrRefund_safe h

theorem refundStageRead_safe (h : m.Hopeful b) (ho : ok) : (m.refundStageRead ok).Safe b := by
  simp only [refundStageRead, ho]
  split
  case isTrue => contradiction
  case isFalse =>
    split
    case h_1 hs => exact safe_of_not_included fun hl => (h hl).linked.stage hs
    case h_2 hs => exact tryClaim_safe fun hl => ⟨h hl, hs⟩
    case h_3    => exact h
    case h_4    => exact h

variable (ok text) in
-- Refunding leaves the swap as it is, or it ends it.
theorem refund_cases {sw : SwapCreatorSwap} (h : m.Hopeful b) (hs : m.swap.contractSwap = some sw) :
    (∃ r, m.refund b sw ok text = (r, m) ∧ r ≠ .refunded ∧ (r = .swapCompleted → text)) ∨
    (∃ m', m.refund b sw ok text = (.refunded, m') ∧ m'.Finished) := by
  unfold refund
  dsimp only
  repeat' split
  · refine .inr ⟨_, rfl, fun hl => ⟨rfl, ?_, .inr rfl⟩⟩
    have ⟨sw', hs', hid⟩ := (h hl).linked.swap
    cases hs.symm.trans hs'
    simp [clearNextExpectedEvent, hid]
  · exact .inl ⟨_, rfl, by simp, fun _ => ‹_›⟩
  · exact .inl ⟨_, rfl, by simp, by simp⟩

theorem afterRefund_safe {site : RefundSite} {r : RefundResult} (h : m.Hopeful b)
    (hr : r ≠ .refunded) (ht : r = .swapCompleted → m.Claiming b)
    (hf : m.newSwapIncluded → site = .final → r ≠ .failed) : (m.afterRefund site r).Safe b := by
  cases site
  case shouldRefund => exact exit_safe h.calm
  case early        => cases r; exacts [absurd rfl hr, waitOrRefund_safe h, waitOrRefund_safe h]
  case final        =>
    cases r
    case refunded      => contradiction
    case swapCompleted => exact tryClaim_safe (ht rfl)
    case failed        => exact safe_of_not_included fun hl => hf hl rfl rfl

theorem afterRefund_refunded_safe {site : RefundSite} (h : m.Finished) :
    (m.afterRefund site .refunded).Safe b := by
  cases site
  case shouldRefund => exact exit_safe fun hl => .inr (h hl)
  all_goals exact fun hl => ⟨rfl, (h hl).settled.stage, .inr rfl⟩

-- Unless the text of the error says so, the last refund fails only for a swap that is completed.
theorem refund_final {sw : SwapCreatorSwap} (h : m.Hopeful b) (hl : m.newSwapIncluded)
    (hs : m.swap.contractSwap = some sw) (hc : m.control = .refund .final)
    (ho : m.Orderly b (.refundSent ok text)) : (m.refund b sw ok text).fst ≠ .failed := by
  have ⟨sw', hs', hid⟩ := (h hl).linked.swap
  have hi := (h hl).linked.stage
  cases hs.symm.trans hs'
  simp only [Orderly, hc] at ho
  unfold refund
  simp only [hid]
  repeat' split
  · simp
  · simp
  · cases hst : m.stages m.swap.contractSwapID <;> simp_all

theorem refundSent_safe {site : RefundSite} (h : m.Hopeful b) (hc : m.control = .refund site)
    (hs : m.Sound (.refundSent ok text)) (ho : m.Orderly b (.refundSent ok text)) :
    (m.refundSent b site ok text).Safe b := by
  unfold refundSent
  split
  case h_1 hn =>
    split
    case isTrue => exact panic_safe
    case isFalse =>
      refine afterRefund_safe h (by simp) (by simp) fun hl => ?_
      have ⟨_, hs, _⟩ := (h hl).linked.swap
      simp [hn] at hs
  case h_2 sw hn =>
    have hf := fun hl (hf : site = .final) => refund_final h hl hn (hf ▸ hc) ho
    cases refund_cases ok text h hn
    case inl hr =>
      have ⟨r, hr, hne, ht⟩ := hr
      simp only [hr] at hf ⊢
      exact afterRefund_safe h hne (fun he hl => ⟨h hl, hs (ht he)⟩) hf
    case inr hr =>
      have ⟨m', hr, hm⟩ := hr
      simp only [hr]
      exact afterRefund_refunded_safe hm

theorem waited_safe (h : m.Hopeful b) (ho : ok) : (m.waited ok).Safe b := by
  simp only [waited, ho]
  exact h

variable {e : Event}

theorem handleEventWaiting_safe (h : m.Hopeful b) (hc : m.control = .waitT2)
    (hs : m.Sound (.event e)) : (m.handleEventWaiting e).Safe b := by
  cases e
  case shouldRefund => exact h
  case ethClaimed   => exact tryClaim_safe fun hl => ⟨h hl, hs⟩
  case exit         => simpa [handleEventWaiting, Safe, hc] using h
  all_goals exact panic_safe

theorem handleEventShouldRefund_safe (h : m.Calm b) : m.handleEventShouldRefund.Safe b := by
  unfold handleEventShouldRefund
  split
  case isFalse => exact exit_safe h
  case isTrue ho =>
    refine fun hl => (h hl).resolve_right fun hc => ?_
    cases hc.settled.status <;> simp_all [Status.isOngoing]

theorem handleEvent_safe (h : m.Calm b) (hc : m.control = .runHandleEvents)
    (hs : m.Sound (.event e)) : (m.handleEvent e).Safe b := by
  have hm : m.Safe b := by simpa [Safe, hc] using h
  cases e
  case keysReceived msg =>
    simp only [handleEvent]
    split
    case isFalse => exact hm
    case isTrue hn =>
      intro hl
      cases h hl
      case inl hw => cases hw.next <;> simp_all
      case inr hc => simp [hc.next] at hn
  case xmrLocked =>
    simp only [handleEvent]
    split
    case isFalse   => exact hm
    case isTrue hn => exact handleNotifyXMRLock_safe h hn
  case ethClaimed =>
    simp only [handleEvent]
    split
    case isFalse => exact hm
    case isTrue hn =>
      exact claimMonero_safe fun hl =>
        ⟨(h hl).resolve_right fun hc => by simp [hc.next] at hn, hs⟩
  case shouldRefund => exact handleEventShouldRefund_safe h
  case exit         => exact exit_safe h

theorem completed_safe (h : m.Finished) : (m.completed ok).Safe b := by
  unfold completed
  repeat' split
  · exact fun hl => .inr (h hl)
  · exact panic_safe
  · exact fun hl => .inr (h hl)

theorem stageMined_safe {stage : Stage} (h : m.Safe b) : (m.stageMined id stage).Safe b := by
  unfold stageMined
  split
  case isFalse => exact h
  case isTrue hr =>
    have hm (i) : stageRank (m.stages i) ≤ stageRank (update m.stages id stage i) := by
      rw [update_apply]
      split
      case isTrue hi => exact hi ▸ hr
      case isFalse   => exact le_rfl
    cases hc : m.control
    all_goals simp only [Safe, hc] at h ⊢
    case runHandleEvents     => exact fun hl => (h hl).imp (.mono hm) (.mono hm)
    case writeSwapToDB       => exact fun hl => (h hl).imp (.mono hm) (.mono hm)
    case checkKeys           => exact h
    case newSwap             => exact h
    case sendSwapMessage     => exact fun hl => (h hl).imp_left (.mono hm)
    case completeOngoingSwap => exact fun hl => (h hl).mono hm
    case filterForClaim      => exact fun hl => (h hl).imp (.mono hm) (completed_mono hm)
    case claimMonero         => exact fun hl => (h hl).imp (.mono hm) (completed_mono hm)
    case sweepAll            => exact fun hl => (h hl).imp (.mono hm) (completed_mono hm)
    all_goals exact fun hl => (h hl).mono hm

end Functions

theorem step_safe (m : Loop) (i : Input) (h : m.Safe b) (ha : m.Sound i ∧ m.Orderly b i) :
    (m.step b i).Safe b := by
  have ⟨hs, ho⟩ := ha
  have hm := step_step b m i
  generalize m.step b i = m' at hm ⊢
  cases hm
  case idle         => exact h
  case stageMined   => exact stageMined_safe h
  case newSwapMined => simp [Orderly] at ho
  case ctxDone      => trivial
  all_goals
    rename_i hc
    simp only [Safe, hc] at h
  case event          => exact handleEvent_safe h hc hs
  case eventWaiting   => exact handleEventWaiting_safe h hc hs
  case keysChecked    => exact keysChecked_safe h
  case newSwapped     => exact newSwapped_safe h hc ho
  case messageSent    => exact messageSent_safe h
  case swapWritten    => exact swapWritten_safe h
  case readyStageRead => exact readyStageRead_safe h
  case readySent      => exact readySent_safe h
  case sweeping       => exact sweeping_safe h hc ho
  case swept          => exact swept_safe h hc ho
  case refundSent     => exact refundSent_safe h hc hs ho
  case completed      => exact completed_safe h
  all_goals simp only [Orderly, hc] at ho
  case refundStageRead => exact refundStageRead_safe h ho
  case refundTimestamp => exact refundTimestamp_safe h ho
  case waited          => exact waited_safe h ho
  case filtered        => exact filtered_safe h ho

-- A swap is started, or it is found in the database after a restart, with what was stored there
-- when its asset was locked.
inductive Initial (b : Backend) : Loop → Prop
  | started {calls : StartCalls} {offerID : Bytes32} {noTransferBack : Bool}
    {providedAmount : Coins.EthAssetAmount} {exchangeRate : Decimal} {ethAsset : Address}
    {s : SwapState} (stages : Bytes32 → Stage)
    (h : newSwapStateFromStart calls offerID noTransferBack providedAmount exchangeRate ethAsset =
      .ok s) : Initial b (start s stages false)
  | recovered {calls : StartCalls} {info : Info} {noTransferBack : Bool}
    {ethSwapInfo : EthereumSwapInfo} {s : SwapState} {stages : Bytes32 → Stage}
    (h : newSwapStateFromOngoing b calls info noTransferBack ethSwapInfo = .ok s)
    (hid : ethSwapInfo.swap.swapID b.host = ethSwapInfo.swapID)
    (hs : stages ethSwapInfo.swapID ≠ .invalid) : Initial b (start s stages true)

theorem newSwapState_ok {calls : StartCalls} {noTransferBack : Bool} {info : Info}
    (h : newSwapState calls noTransferBack info = .ok s) :
    s.info = info ∧ s.nextExpectedEvent = nextExpectedEventFromStatus info.status := by
  simp only [newSwapState, Except.bind_ok_iff, Except.pure_ok_iff] at h
  obtain ⟨_, _, _, _, _, _, h⟩ := h
  exact h ▸ ⟨rfl, rfl⟩

theorem newSwapStateFromOngoing_ok {calls : StartCalls} {noTransferBack : Bool} {info : Info}
    {ethSwapInfo : EthereumSwapInfo}
    (h : newSwapStateFromOngoing b calls info noTransferBack ethSwapInfo = .ok s) :
    s.contractSwapID = ethSwapInfo.swapID ∧ s.contractSwap = some ethSwapInfo.swap ∧
    (s.nextExpectedEvent = .xmrLocked ∨ s.nextExpectedEvent = .ethClaimed) ∧
    s.info.status.isOngoing = true := by
  simp only [newSwapStateFromOngoing, Except.bind_ok_iff, Except.failIf_eq_ok,
    Except.pure_ok_iff] at h
  obtain ⟨_, hi, _, _, s₁, hs, _, _, h⟩ := h
  obtain ⟨hi', hn⟩ := newSwapState_ok hs
  subst h
  have hi : info.status = .ethLocked ∨ info.status = .contractReady := by
    simpa [or_iff_not_imp_left] using hi
  refine ⟨rfl, rfl, ?_, ?_⟩
  · cases hi <;> simp_all [nextExpectedEventFromStatus]
  · cases hi <;> simp_all [Status.isOngoing]

theorem Initial.safe (h : Initial b m) : m.Safe b := by
  cases h
  case started => exact safe_of_not_included (by simp [start])
  case recovered h hid hs =>
    have ⟨hi, hsw, hn, ho⟩ := newSwapStateFromOngoing_ok h
    exact fun _ => .inl ⟨⟨⟨_, hsw, hid.trans hi.symm⟩, hi ▸ hs⟩, hn, ho⟩

-- A swap is only retired when its asset is not in the contract.
theorem retired_unlocked {is : List Input} (h₀ : Initial b m)
    (h : Along (step b) (fun m i => m.Sound i ∧ m.Orderly b i) is m) :
    let m' := run (step b) is m
    m'.control = .completeOngoingSwap → ¬m'.newSwapIncluded ∨ Settled m'.swap m'.stages := by
  intro m' hc
  have hs : m'.Safe b := run_invariant step_safe h₀.safe h
  simp only [Safe, hc] at hs
  by_cases hl : m'.newSwapIncluded
  case pos => exact .inr (hs hl).settled
  case neg => exact .inl hl

end Loop

end XMRTaker

-- The other side of the swap of the maker's sample.
namespace XMRTaker.Sample

open XMRMaker.Sample (host makerKey takerKey swap swapID swapCreatorAddr newLog)

def backend : Backend where
  host            := host
  ethAddress      := swap.owner
  swapCreatorAddr := swapCreatorAddr

def startCalls : StartCalls where
  getHeight               := true
  ethHeader               := true
  addSwap                 := true
  hasPrivateKey           := true
  newTxSender             := true
  erc20Info _             := none
  generateKeys            := some takerKey
  getCounterpartySwapKeys := true

def state : SwapState where
  info                       := ⟨1, { coeff := 5 }, { coeff := 1 }, ethAssetETH, .expectingKeys⟩
  providedAmount             := .wei { coeff := 5, exponent := 18 }
  noTransferBack             := false
  secp256k1Pub               := some takerKey
  xmrmakerSecp256k1PublicKey := none
  xmrmakerAddress            := 0
  contractSwapID             := 0
  contractSwap               := none
  t1                         := 0
  t2                         := 0
  nextExpectedEvent          := .keysReceived
  fundsLocked                := false
  recovery                   := none

def loop : Loop :=
  .start state (fun _ => .invalid) false

theorem newSwapStateFromStart_state :
    newSwapStateFromStart startCalls 1 false (.wei { coeff := 5 * 10 ^ 18 }) { coeff := 5 }
      ethAssetETH = .ok state := by
  decide +kernel

theorem loop_initial : Loop.Initial backend loop :=
  .started _ newSwapStateFromStart_state

def locking : List Input :=
  [.event <| .keysReceived ⟨some { coeff := 1 }, true, swap.claimer, makerKey⟩,
    .keysChecked ⟨true, true, true⟩,
    .newSwapped (some ⟨true, [newLog swap swapID], 100⟩) swapID 0 true, .messageSent true]

-- The swap is cancelled before `t1`.
def cancelling : List Input :=
  locking ++ [.event .exit, .stageRead true, .timestamp <| some <| unix 1700000100,
    .refundSent true false]

-- The same, but the stage of the swap cannot be read.
def failing : List Input :=
  locking ++ [.event .exit, .stageRead false]

end XMRTaker.Sample

namespace XMRTaker.Loop

open XMRTaker.Sample

theorem retired_unlocked_cancelling :
    let m := run (step backend) cancelling loop
    m.control = .completeOngoingSwap ∧ m.newSwapIncluded ∧ Settled m.swap m.stages := by
  have hc : (run (step backend) cancelling loop).control = .completeOngoingSwap := by
    decide +kernel
  have hl : (run (step backend) cancelling loop).newSwapIncluded := by
    decide +kernel
  exact ⟨hc, hl, (retired_unlocked loop_initial (by decide +kernel) hc).resolve_left (· hl)⟩

theorem retired_locked :
    let m := run (step backend) failing loop
    m.control = .completeOngoingSwap ∧ m.newSwapIncluded ∧ m.swap.info.status = .ethLocked ∧
    m.stages m.swap.contractSwapID = .pending ∧ (m.step backend (.completed true)).cancelled := by
  decide +kernel

end XMRTaker.Loop
