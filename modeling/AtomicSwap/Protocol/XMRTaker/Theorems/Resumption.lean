import AtomicSwap.Protocol.XMRTaker.Theorems.Startup

open Ethereum SwapCreator Handler Function
open DB (RecoveryDB)
open Monero (Curve PrivateKeyPair PrivateSpendKey)

-- The functions of the taker that deal with the swaps in the database are modelled in full for an
-- instance, and again in the smaller models of a daemon that goes down and is started again. Here
-- is what they can do about one swap.
namespace XMRTaker

-- What a process that starts has done about a swap: the status in the database, the state that it
-- has made, and the transaction that it has cancelled.
structure Resumption where
  status    : Status
  state     : Option SwapState := none
  cancelled : Option Bytes32   := none

section Resumes

variable (C : Curve) (b : Backend) (recovery : RecoveryDB) (noTransferBack : Bool) (info : Info)

-- The database has all keys of the shared account.
def Claimable : Prop :=
  ∃ skB skA vkA keys, recovery.getCounterpartySwapPrivateKey info.offerID = .ok skB ∧
    recovery.getSwapPrivateKey info.offerID = .ok skA ∧ skA.view C = .ok vkA ∧
    recovery.getCounterpartySwapKeys C info.offerID = .ok keys

inductive Resumes : Resumption → Prop
  | failed : Resumes { status := info.status }
  | aborted (hs : info.status = .expectingKeys)
      (ht : ∀ txHash, recovery.getNewSwapTxHash info.offerID ≠ .ok txHash) :
      Resumes { status := .completedAbort }
  | cancelled {txHash : Bytes32} (hs : info.status = .expectingKeys)
      (ht : recovery.getNewSwapTxHash info.offerID = .ok txHash) :
      Resumes { status := info.status, cancelled := txHash }
  | refunded {txHash : Bytes32} {secret : PrivateSpendKey} (hs : info.status = .expectingKeys)
      (ht : recovery.getNewSwapTxHash info.offerID = .ok txHash)
      (hk : recovery.getSwapPrivateKey info.offerID = .ok secret) :
      Resumes { status := .completedRefund }
  | swept (hs : info.status = .sweepingXMR) : Resumes { status := .completedSuccess }
  | sweeping (he : info.status ≠ .expectingKeys) (hs : info.status ≠ .sweepingXMR)
      (hc : Claimable C recovery info) (hn : noTransferBack = false) :
      Resumes { status := .sweepingXMR }
  | claimed (he : info.status ≠ .expectingKeys) (hs : info.status ≠ .sweepingXMR)
      (hc : Claimable C recovery info) : Resumes { status := .completedSuccess }
  | started {start : StartCalls} {ethSwapInfo : EthereumSwapInfo} {sk : PrivateSpendKey}
      {kp : PrivateKeyPair} {ss : SwapState}
      (hc : ∀ skB, recovery.getCounterpartySwapPrivateKey info.offerID ≠ .ok skB)
      (hi : recovery.getContractSwapInfo info.offerID = .ok ethSwapInfo)
      (hk : recovery.getSwapPrivateKey info.offerID = .ok sk)
      (hp : sk.asPrivateKeyPair C = .ok kp)
      (hr : ∃ keys, recovery.getCounterpartySwapKeys C info.offerID = .ok keys)
      (hs : newSwapStateFromOngoing b start info noTransferBack ethSwapInfo = .ok ss) :
      Resumes { status := info.status, state := ss }

end Resumes

theorem newSwapStateFromOngoing_resumable {b : Backend} {start : StartCalls} {info : Info}
    {noTransferBack : Bool} {ethSwapInfo : EthereumSwapInfo} {ss : SwapState}
    (h : newSwapStateFromOngoing b start info noTransferBack ethSwapInfo = .ok ss) :
    (info.status = .ethLocked ∨ info.status = .contractReady) ∧
    start.getCounterpartySwapKeys = true := by
  simp only [newSwapStateFromOngoing, Except.bind_ok_iff, Except.failIf_eq_ok] at h
  obtain ⟨_, hs, _, hk, _⟩ := h
  exact ⟨by tauto, by simpa using hk⟩

theorem resumable_other {status : Status} (h : status = .ethLocked ∨ status = .contractReady) :
    status ≠ .expectingKeys ∧ status ≠ .sweepingXMR := by
  rcases h with rfl | rfl <;> decide

namespace Instance

variable {C : Curve} {b : Backend} {calls : StartupCalls} {inst inst' : Instance} {p : ℕ}
  {s : Swap.Record} {id : Bytes32} {status : Status} {o : Resumption}

structure Shows (inst inst' : Instance) (id : Bytes32) (o : Resumption) : Prop where
  status   : ∃ s, inst'.swapManager.db.getSwap id = some s ∧ s.status = o.status
  state    : inst'.swapStates id = o.state
  recovery : inst'.recovery = inst.recovery

-- A transaction is only cancelled while it is pending.
def Resumed (C : Curve) (b : Backend) (calls : StartupCalls) (inst : Instance) (s : Swap.Record)
    (inst' : Instance) : Prop :=
  ∃ o, Resumes C b inst.recovery inst.noTransferBack s.toInfo o ∧
    (o.cancelled.isSome → Cancels calls) ∧ inst.Shows inst' s.offerID o

theorem completeOngoingSwap_states (h : inst.Found id p s) :
    (completeOngoingSwap calls p status).Post inst fun r inst' =>
      Completes calls inst id status r inst' ∧ inst'.swapStates = inst.swapStates :=
  ⟨completeOngoingSwap_post h, rfl⟩

-- The swap that a round is about, as the database knows it. Its state has not been made.
structure Waiting (inst : Instance) (p : ℕ) (s : Swap.Record) : Prop where
  found  : inst.Found s.offerID p s
  stored : inst.swapManager.db.getSwap s.offerID = some s
  state  : inst.swapStates s.offerID = none

-- What `ClaimMonero` leaves of it: the status is only written if the XMR is transferred.
structure Transfers (inst : Instance) (s : Swap.Record) (inst' : Instance) : Prop where
  states   : inst'.swapStates = inst.swapStates
  recovery : inst'.recovery = inst.recovery
  stored   : inst'.swapManager.db.getSwap s.offerID = some s ∨ inst.noTransferBack = false ∧
    ∃ s', inst'.swapManager.db.getSwap s.offerID = some s' ∧ s'.status = .sweepingXMR

namespace Waiting

variable (h : inst.Waiting p s)
include h

theorem failed : Resumed C b calls inst s inst :=
  ⟨_, .failed, by simp, ⟨s, h.stored, rfl⟩, h.state, rfl⟩

theorem completed
    (hr : Resumes C b inst.recovery inst.noTransferBack s.toInfo { status := status }) :
    (completeOngoingSwap calls p status).Post inst fun _ => Resumed C b calls inst s := by
  refine (completeOngoingSwap_states h.found).imp fun r inst' hc => ?_
  obtain ⟨hc, hk⟩ := hc
  have hn := (congrFun hk s.offerID).trans h.state
  by_cases ho : r = .ok ()
  case pos => exact ⟨_, hr, by simp, (hc.completed ho).stored, hn, hc.touches.recovery⟩
  case neg =>
    refine ⟨_, .failed, by simp, ⟨s, ?_, rfl⟩, hn, hc.touches.recovery⟩
    exact (hc.unstored ho).trans h.stored

theorem aborted (hs : s.status = .expectingKeys)
    (ht : ∀ txHash, inst.recovery.getNewSwapTxHash s.offerID ≠ .ok txHash) :
    (abortOngoingSwap calls p s).Post inst fun _ => Resumed C b calls inst s := by
  refine (h.completed (.aborted hs ht)).bind (fun _ _ hr => hr) fun _ inst' hr => ?_
  obtain ⟨o, ho, hc, hs⟩ := hr
  exact post_modify.mpr ⟨o, ho, hc, hs.status, hs.state, hs.recovery⟩

theorem refunded {txHash : Bytes32} (hs : s.status = .expectingKeys)
    (ht : inst.recovery.getNewSwapTxHash s.offerID = .ok txHash) :
    (refundNewSwap b calls p s).Post inst fun _ => Resumed C b calls inst s := by
  refine post_ofOption_bind.mpr ⟨fun _ => h.failed, fun receipt _ => ?_⟩
  refine post_throwIf_bind.mpr ⟨fun _ => h.failed, fun _ => ?_⟩
  refine post_ofExcept_bind.mpr ⟨fun _ _ => h.failed, fun (t1, t2) _ => ?_⟩
  refine post_ofOption_bind.mpr ⟨fun _ => h.failed, fun params _ => ?_⟩
  refine post_recoveryDB_bind.mpr ⟨fun _ _ => h.failed, fun secret hk => ?_⟩
  refine post_throwIf_bind.mpr ⟨fun _ => h.failed, fun _ => ?_⟩
  refine post_ofOption_bind.mpr ⟨fun _ => h.failed, fun stage _ => ?_⟩
  refine post_throwIf_bind.mpr ⟨fun _ => h.failed, fun _ => ?_⟩
  refine post_throwIf_bind.mpr ⟨fun _ => h.failed, fun _ => ?_⟩
  refine post_throwIf_bind.mpr ⟨fun _ => h.failed, fun _ => ?_⟩
  refine post_throwIf_bind.mpr ⟨fun _ => h.failed, fun _ => ?_⟩
  exact h.completed <| .refunded hs ht hk

theorem settled (hs : s.status = .expectingKeys) :
    (settleNewSwap b calls p s).Post inst fun _ => Resumed C b calls inst s := by
  refine post_throwIf_bind.mpr ⟨fun _ => h.failed, fun _ => ?_⟩
  refine post_attempt_recoveryDB_bind.mpr
    ⟨fun _ ht => h.aborted hs (by simp [ht]), fun txHash ht => ?_⟩
  refine maybeCancelNewSwap_post.bind (fun e inst' hc => ?_) fun cancelled inst' hc => ?_
  · obtain ⟨rfl, -⟩ := hc
    exact h.failed
  obtain ⟨rfl, hc⟩ := hc
  cases cancelled
  case false => exact h.refunded hs ht
  case true  =>
    have hc : Cancels calls := (hc true rfl).mp rfl
    exact post_pure.mpr ⟨_, .cancelled hs ht, fun _ => hc, ⟨s, h.stored, rfl⟩, h.state, rfl⟩

theorem claimMonero {kpAB : PrivateKeyPair} :
    (claimMonero calls p kpAB).Post inst fun _ inst' =>
      inst.Transfers s inst' ∧ ∃ s', inst'.Found s.offerID p s' := by
  have hs : (inst.withStatus p .sweepingXMR).Found s.offerID p { s with status := .sweepingXMR } :=
    withStatus_found h.found
  have hf : (inst.withStatus p .sweepingXMR).swapManager.Frame s.offerID _ :=
    Swap.Manager.putSwap_frame hs.keyed hs.offerID
  refine post_throwIf_bind.mpr ⟨fun _ => ⟨⟨rfl, rfl, .inl h.stored⟩, s, h.found⟩, fun _ => ?_⟩
  refine post_get_bind.mpr ?_
  split
  case isTrue => exact post_pure.mpr ⟨⟨rfl, rfl, .inl h.stored⟩, s, h.found⟩
  case isFalse hn =>
    refine post_setStatus_bind.mpr <| post_zoom_bind.mpr <|
      (Swap.Manager.post_writeSwapToDB_points hs.points).mpr ⟨fun _ => ?_, fun _ => ?_⟩
    · exact ⟨⟨rfl, rfl, .inl h.stored⟩, _, hs⟩
    · have hs' := hs.points
      refine post_ofExcept.mpr ⟨⟨rfl, rfl, .inr ?_⟩, _, hf.keyed, hs'.lookup, hs'.info⟩
      exact ⟨by simpa using hn, { s with status := .sweepingXMR },
        Swap.Table.getSwap_putSwap_self, rfl⟩

section Claimable

variable (he : s.status ≠ .expectingKeys) (hs : s.status ≠ .sweepingXMR)
  (hc : Claimable C inst.recovery s.toInfo)
include he hs hc

theorem transfers (ht : inst.Transfers s inst') : Resumed C b calls inst s inst' := by
  have hn := (congrFun ht.states s.offerID).trans h.state
  rcases ht.stored with hd | ⟨hb, hd⟩
  · exact ⟨_, .failed, by simp, ⟨s, hd, rfl⟩, hn, ht.recovery⟩
  · exact ⟨_, .sweeping he hs hc hb, by simp, hd, hn, ht.recovery⟩

-- A swap that cannot be completed is where `ClaimMonero` has left it.
theorem transferred {s' : Swap.Record} (ht : inst.Transfers s inst')
    (hf : inst'.Found s.offerID p s') :
    (completeOngoingSwap calls p .completedSuccess).Post inst' fun _ =>
      Resumed C b calls inst s := by
  refine (completeOngoingSwap_states hf).imp fun r inst'' hp => ?_
  obtain ⟨hp, hk⟩ := hp
  have hk := hk.trans ht.states
  have hr := hp.touches.recovery.trans ht.recovery
  by_cases ho : r = .ok ()
  case pos =>
    have hn := (congrFun hk s.offerID).trans h.state
    exact ⟨_, .claimed he hs hc, by simp, (hp.completed ho).stored, hn, hr⟩
  case neg => exact h.transfers he hs hc ⟨hk, hr, hp.unstored ho ▸ ht.stored⟩

end Claimable

theorem claimed {skB : PrivateSpendKey} (he : s.status ≠ .expectingKeys)
    (hs : s.status ≠ .sweepingXMR)
    (hc : inst.recovery.getCounterpartySwapPrivateKey s.offerID = .ok skB) :
    (completeSwap C calls p s skB).Post inst fun _ => Resumed C b calls inst s := by
  refine post_recoveryDB_bind.mpr ⟨fun _ _ => h.failed, fun skA hk => ?_⟩
  refine post_ofExcept_bind.mpr ⟨fun _ _ => h.failed, fun vkA hv => ?_⟩
  refine post_recoveryDB_bind.mpr ⟨fun _ _ => h.failed, fun keys hr => ?_⟩
  have hc : Claimable C inst.recovery s.toInfo :=
    ⟨skB, skA, vkA, keys, hc, hk, Except.mapError_eq_ok.mp hv, hr⟩
  refine h.claimMonero.bind (fun _ _ ht => h.transfers he hs hc ht.left) fun _ inst' ht => ?_
  obtain ⟨ht, s', hf⟩ := ht
  exact h.transferred he hs hc ht hf

-- The maker's keys are there if they could be read.
theorem created (he : s.status ≠ .expectingKeys) (hs : s.status ≠ .sweepingXMR)
    (hr : calls.start.getCounterpartySwapKeys = true →
      ∃ keys, inst.recovery.getCounterpartySwapKeys C s.offerID = .ok keys) :
    (createOngoingSwap C b calls p s).Post inst fun _ => Resumed C b calls inst s := by
  refine post_attempt_recoveryDB_bind.mpr ⟨fun _ hc => ?_, fun skB hc => h.claimed he hs hc⟩
  refine post_recoveryDB_bind.mpr ⟨fun _ _ => h.failed, fun info hi => ?_⟩
  refine post_recoveryDB_bind.mpr ⟨fun _ _ => h.failed, fun sk hk => ?_⟩
  refine post_ofExcept_bind.mpr ⟨fun _ _ => h.failed, fun kp hp => ?_⟩
  refine post_get_bind.mpr <| post_ofExcept_bind.mpr ⟨fun _ _ => h.failed, fun ss hn => ?_⟩
  have hp := Except.mapError_eq_ok.mp hp
  have hn := Except.mapError_eq_ok.mp hn
  have hr := hr (newSwapStateFromOngoing_resumable hn).right
  refine post_modify.mpr ⟨_, .started (by simp [hc]) hi hk hp hr hn, by simp, ?_⟩
  exact ⟨⟨s, h.stored, rfl⟩, update_self .., rfl⟩

theorem recovered (hp : s.provides = .eth)
    (hr : calls.start.getCounterpartySwapKeys = true →
      ∃ keys, inst.recovery.getCounterpartySwapKeys C s.offerID = .ok keys) :
    (recoverSwap C b calls p s).Post inst fun _ => Resumed C b calls inst s := by
  rw [recoverSwap, if_neg (not_not.mpr hp)]
  split
  case isTrue hs => exact h.settled hs
  split
  case isTrue hs     => exact h.completed (.swept hs)
  case isFalse he hs =>
    refine (h.created he hs hr).attempt_bind fun r inst' hr => ?_
    cases r
    case error => exact post_ofExcept.mpr hr
    case ok    => exact post_pure.mpr hr

-- One round of the loop.
theorem resumed (hp : s.provides = .eth)
    (hr : calls.start.getCounterpartySwapKeys = true →
      ∃ keys, inst.recovery.getCounterpartySwapKeys C s.offerID = .ok keys) :
    (checkForOngoingSwap C b calls s.offerID).Post inst fun _ => Resumed C b calls inst s := by
  refine post_zoom_bind.mpr <| post_get_bind.mpr <| post_ofOption.mpr ⟨?_, fun p' hp' => ?_⟩
  · simp [h.found.points.lookup]
  obtain rfl : p = p' := Option.some.inj (h.found.points.lookup.symm.trans hp')
  refine post_zoom_bind.mpr <| post_get_bind.mpr <| post_ofOption.mpr ⟨?_, fun s' hs' => ?_⟩
  · simp [h.found.points.info]
  obtain rfl : s = s' := Option.some.inj (h.found.points.info.symm.trans hs')
  exact h.recovered hp hr

end Waiting

end Instance

section Smaller

variable {C : Curve} {b : Backend} {noTransferBack : Bool} {o : Resumption}

-- The answers with which nothing succeeds.
def StartCalls.failing : StartCalls where
  getHeight               := false
  ethHeader               := false
  addSwap                 := false
  hasPrivateKey           := false
  newTxSender             := false
  erc20Info _             := none
  generateKeys            := none
  getCounterpartySwapKeys := false

def RestartCalls.failing (noTransferBack : Bool) (stages : Bytes32 → Stage) : RestartCalls where
  completeOngoingSwap := false
  transactionByHash   := false
  cancelTxWithNonce   := .failed
  refund              := false
  sweeping            := false
  claimMonero         := false
  start               := .failing
  noTransferBack      := noTransferBack
  stages              := stages

theorem newSwapStateFromOngoing_failing {info : Info} {ethSwapInfo : EthereumSwapInfo} :
    (newSwapStateFromOngoing b .failing info noTransferBack ethSwapInfo).toOption = none := by
  refine Option.eq_none_iff_forall_not_mem.mpr fun ss hs => ?_
  have hk := (newSwapStateFromOngoing_resumable (Except.toOption_eq_some_iff.mp hs)).right
  simp [StartCalls.failing] at hk

namespace Daemon

variable {d : Daemon} {calls : RestartCalls}

def after (d : Daemon) (stages : Bytes32 → Stage) (o : Resumption) : Daemon :=
  { d with
    loop        := o.state.elim d.loop fun ss => some (.start ss stages true)
    info.status := o.status
    txs         := o.cancelled.elim d.txs fun txHash => update d.txs txHash (some .replaced) }

theorem check_expecting (hs : d.info.status = .expectingKeys) :
    d.checkForOngoingSwaps b calls =
      match d.recovery.getNewSwapTxHash d.info.offerID with
      | .error _   => d.abortOngoingSwap calls
      | .ok txHash => d.refundOrCancelNewSwap calls txHash := by
  unfold checkForOngoingSwaps
  exact (if_neg (by rw [hs]; decide)).trans (if_pos hs)

theorem check_sweeping (hs : d.info.status = .sweepingXMR) :
    d.checkForOngoingSwaps b calls = d.complete calls .completedSuccess := by
  rw [checkForOngoingSwaps, if_neg (by rw [hs]; decide), if_neg (by rw [hs]; decide), if_pos hs]

theorem check_other (ho : d.info.status.isOngoing) (he : d.info.status ≠ .expectingKeys)
    (hs : d.info.status ≠ .sweepingXMR) :
    d.checkForOngoingSwaps b calls = d.createOngoingSwap b calls := by
  rw [checkForOngoingSwaps, if_neg (by simp [ho]), if_neg he, if_neg hs]

theorem check_failing (stages : Bytes32 → Stage) :
    d.checkForOngoingSwaps b (.failing noTransferBack stages) = d := by
  unfold checkForOngoingSwaps
  split
  case isTrue => rfl
  split
  case isTrue => cases d.recovery.getNewSwapTxHash d.info.offerID <;> rfl
  split
  case isTrue  => rfl
  case isFalse =>
    simp only [createOngoingSwap, RestartCalls.failing, newSwapStateFromOngoing_failing,
      Option.bind_eq_bind, Option.bind_fun_none]
    cases d.recovery.getCounterpartySwapPrivateKey d.info.offerID <;> rfl

theorem restarts (stages : Bytes32 → Stage)
    (h : Resumes C b d.recovery noTransferBack d.info o) (ho : d.info.status.isOngoing)
    (hp : ∀ txHash ∈ o.cancelled, d.txs txHash = some .pending) :
    ∃ calls, d.checkForOngoingSwaps b calls = d.after stages o := by
  let failing := RestartCalls.failing noTransferBack stages
  cases h
  case failed => exact ⟨failing, check_failing stages⟩
  case aborted hs ht =>
    refine ⟨{ failing with completeOngoingSwap := true }, ?_⟩
    rw [check_expecting hs]
    cases hx : d.recovery.getNewSwapTxHash d.info.offerID
    case error => rfl
    case ok h  => exact absurd hx (ht h)
  case cancelled txHash hs ht =>
    refine ⟨{ failing with transactionByHash := true, cancelTxWithNonce := .included }, ?_⟩
    have hp : d.txs txHash = some .pending := hp txHash rfl
    rw [check_expecting hs, ht]
    simp [refundOrCancelNewSwap, after, hp]
  case refunded hs ht hk =>
    refine ⟨{ failing with
      transactionByHash   := true
      cancelTxWithNonce   := .notFound
      refund              := true
      completeOngoingSwap := true }, ?_⟩
    rw [check_expecting hs, ht]
    simp [refundOrCancelNewSwap, complete, after]
  case swept hs =>
    refine ⟨{ failing with completeOngoingSwap := true }, ?_⟩
    rw [check_sweeping hs]
    rfl
  case sweeping he hs hc hn =>
    obtain ⟨skB, _, _, _, hc, _⟩ := hc
    refine ⟨{ failing with sweeping := true }, ?_⟩
    rw [check_other ho he hs, createOngoingSwap, hc]
    rfl
  case claimed he hs hc =>
    obtain ⟨skB, _, _, _, hc, _⟩ := hc
    refine ⟨{ failing with sweeping := true, claimMonero := true, completeOngoingSwap := true }, ?_⟩
    rw [check_other ho he hs, createOngoingSwap, hc]
    rfl
  case started start ethSwapInfo sk kp ss hc hi hk _ _ hs =>
    refine ⟨{ failing with start }, ?_⟩
    obtain ⟨he, hw⟩ := resumable_other (newSwapStateFromOngoing_resumable hs).left
    rw [check_other ho he hw, createOngoingSwap]
    cases hx : d.recovery.getCounterpartySwapPrivateKey d.info.offerID
    case ok skB => exact absurd hx (hc skB)
    case error  =>
      simp [failing, RestartCalls.failing, hi, hk, hs, Except.toOption, after]

end Daemon

end Smaller

end XMRTaker
